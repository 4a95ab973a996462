import DeviceTensor.Binary.Function
import DeviceTensor.Element.Basic
set_option autoImplicit false

/-!
# Arithmetic of elements

Kernels are written over an arbitrary arithmetic: a record of the constants, operations and
comparisons they use.  Operations may trap, so that integers are covered as well as floating point
numbers.  `arithmetic` is the record of each element type and `analysis?` that of the functions
only floating point types have.
-/

namespace DeviceTensor

/-- Constants, operations and comparisons of a number type. -/
structure Arithmetic (α : Type) where
  zero : α
  one : α
  isZero : α → Bool
  add : α → α → Except Trap α
  sub : α → α → Except Trap α
  mul : α → α → Except Trap α
  div : α → α → Except Trap α
  neg : α → Except Trap α
  abs : α → Except Trap α
  lt : α → α → Bool
  le : α → α → Bool

/-- What floating point types have beyond `Arithmetic`. -/
structure Analysis (α : Type) where
  negInfinity : α
  max : α → α → α
  exp : α → α
  ln : α → α
  sqrt : α → α
  tanh : α → α
  pow : α → α → α

namespace Arithmetic

variable {α : Type} (A : Arithmetic α)

/-- The element itself if it is positive, else zero. -/
def relu (x : α) : α := if A.lt A.zero x then x else A.zero

/-- One, minus one or zero, as the sign of the element is. -/
def sign (x : α) : Except Trap α :=
  if A.lt A.zero x then .ok A.one
  else if A.lt x A.zero then A.neg A.one
  else .ok A.zero

/-- The square. -/
def square (x : α) : Except Trap α := A.mul x x

/-- One if the condition holds, else zero. -/
def ofBool (hit : Bool) : α := if hit then A.one else A.zero

/-- The sum `a * x + b * y`, its products taken from the left. -/
def combine (a x b y : α) : Except Trap α := do
  let left ← A.mul a x
  let right ← A.mul b y
  A.add left right

/-- The sum of a list from zero, from the left. -/
def sum (xs : List α) : Except Trap α := xs.foldlM A.add A.zero

/-- The logistic function `1 / (1 + exp (-x))`. -/
def sigmoid (F : Analysis α) (x : α) : Except Trap α := do
  let opposite ← A.neg x
  let denominator ← A.add A.one (F.exp opposite)
  A.div A.one denominator

end Arithmetic

/-! ## The arithmetic of each element type -/

/-- Exact arithmetic on signed words. -/
def Word.arithmetic (w : Nat) : Arithmetic (BitVec w) where
  zero := 0
  one := 1
  isZero x := x == 0
  add := Word.add
  sub := Word.sub
  mul := Word.mul
  div := Word.div
  neg := Word.neg
  abs := Word.abs
  lt x y := decide (x.toInt < y.toInt)
  le x y := decide (x.toInt ≤ y.toInt)

namespace Binary

/-- Arithmetic on a binary format; it never traps. -/
def arithmetic (F : Format) : Arithmetic (Bits F) where
  zero := zero F
  one := one F
  isZero := isZero
  add x y := .ok (add x y)
  sub x y := .ok (sub x y)
  mul x y := .ok (mul x y)
  div x y := .ok (div x y)
  neg x := .ok (neg x)
  abs x := .ok (abs x)
  lt := lt
  le := le

/-- The functions of a binary format. -/
def analysis (F : Format) : Analysis (Bits F) where
  negInfinity := infinite F true
  max := max
  exp := exp
  ln := ln
  sqrt := sqrt
  tanh := tanh
  pow := pow

/-- Arithmetic on a narrow format by way of a wide one: operands are widened, the operation runs
there, and its result is rounded back. -/
def arithmeticVia (narrow wide : Format) : Arithmetic (Bits narrow) where
  zero := zero narrow
  one := one narrow
  isZero := isZero
  add x y := .ok (convert narrow (add (convert wide x) (convert wide y)))
  sub x y := .ok (convert narrow (sub (convert wide x) (convert wide y)))
  mul x y := .ok (convert narrow (mul (convert wide x) (convert wide y)))
  div x y := .ok (convert narrow (div (convert wide x) (convert wide y)))
  neg x := .ok (neg x)
  abs x := .ok (abs x)
  lt := lt
  le := le

/-- The functions of a narrow format by way of a wide one. -/
def analysisVia (narrow wide : Format) : Analysis (Bits narrow) where
  negInfinity := infinite narrow true
  max := max
  exp x := convert narrow (exp (convert wide x))
  ln x := convert narrow (ln (convert wide x))
  sqrt x := convert narrow (sqrt (convert wide x))
  tanh x := convert narrow (tanh (convert wide x))
  pow x y := convert narrow (pow (convert wide x) (convert wide y))

end Binary

/-- The arithmetic of an element type; the 16-bit format computes in the 32-bit one. -/
def arithmetic : (d : ElemType) → Arithmetic (Elem d)
  | .float32 => Binary.arithmetic .single
  | .float16 => Binary.arithmeticVia .half .single
  | .float64 => Binary.arithmetic .double
  | .int32 => Word.arithmetic 32
  | .char => Word.arithmetic 8

/-- The functions of an element type; integer types have none. -/
def analysis? : (d : ElemType) → Option (Analysis (Elem d))
  | .float32 => some (Binary.analysis .single)
  | .float16 => some (Binary.analysisVia .half .single)
  | .float64 => some (Binary.analysis .double)
  | .int32 => none
  | .char => none

end DeviceTensor
