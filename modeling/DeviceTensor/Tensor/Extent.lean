import DeviceTensor.Fault
set_option autoImplicit false

/-!
# Counts of elements

The number of elements of a shape is the product of its dimensions, taken from the left.
-/

namespace DeviceTensor

namespace Fault

/-- A trap is a fault. -/
def ofTrap {α : Type} : Except Trap α → Except Fault α
  | .ok x => .ok x
  | .error t => .error (.trap t)

end Fault

namespace Shape

/-- The product of the dimensions from `start` up to, but without, `stop`; a `stop` of zero means
all dimensions. -/
def product (shape : Shape) (start stop : Nat) : Except Fault Nat :=
  let last := if stop = 0 then shape.length else stop
  if shape.length < last then .error (.rangeBeyondRank last shape.length)
  else Fault.ofTrap (Size.product ((shape.take last).drop start))

/-- The number of elements of a shape. -/
def count (shape : Shape) : Except Fault Nat := shape.product 0 0

/-- The bytes of a tensor with this shape. -/
def byteSize (shape : Shape) (d : ElemType) : Except Fault Nat := do
  let n ← shape.count
  Fault.ofTrap (Size.mul n d.width)

end Shape

namespace ElemType

/-- The element type with the given code. -/
def ofCode (code : Nat) : Except Fault ElemType :=
  match ofCode? code with
  | some d => .ok d
  | none => .error (.unknownCode code)

end ElemType

end DeviceTensor
