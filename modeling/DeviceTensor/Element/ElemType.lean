import DeviceTensor.Binary.Format
set_option autoImplicit false

/-!
# Element types

The closed set of element types a tensor can hold, with their widths in bytes, their codes and
their names.
-/

namespace DeviceTensor

/-- An element type. -/
inductive ElemType where
  | float32
  | float16
  | int32
  | char
  | float64
  deriving DecidableEq, Repr, Inhabited

namespace ElemType

/-- All element types, in the order of their codes. -/
def all : List ElemType := [.float32, .float16, .int32, .char, .float64]

/-- Bytes of one element. -/
def width : ElemType → Nat
  | .float32 => 4
  | .float16 => 2
  | .int32 => 4
  | .char => 1
  | .float64 => 8

/-- The name of the type in messages. -/
def name : ElemType → String
  | .float32 => "float32"
  | .float16 => "float16"
  | .int32 => "int32"
  | .char => "char"
  | .float64 => "float64"

/-- The name of the type in descriptions of a tensor. -/
def tag : ElemType → String
  | .float32 => "Float32"
  | .float16 => "Float16"
  | .int32 => "Int32"
  | .char => "Char"
  | .float64 => "Float64"

/-- Whether the type is one of the floating point types. -/
def isFloat : ElemType → Bool
  | .float32 => true
  | .float16 => true
  | .int32 => false
  | .char => false
  | .float64 => true

/-- The type with the given code. -/
def ofCode? (code : Nat) : Option ElemType := all[code]?

/-- The type with the given name. -/
def ofName? (name : String) : Option ElemType := all.find? (·.name == name)

theorem mem_all (d : ElemType) : d ∈ all := by
  cases d <;> simp [all]

theorem width_pos (d : ElemType) : 0 < d.width := by
  cases d <;> decide

end ElemType

end DeviceTensor
