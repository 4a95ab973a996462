import DeviceTensor.Binary.Conversion
set_option autoImplicit false

/-!
# Transcendental functions on binary formats

Exponential, logarithm, hyperbolic tangent and power are computed in the 64-bit format by the
machine and rounded to narrower formats.  Their last bits are not fixed by any rule, and nothing
else in this library computes with machine floating-point numbers.
-/

namespace DeviceTensor.Binary

/-- The pattern of a machine number; an answer without a number is `invalid`. -/
def ofMachine (y : Float) : Bits .double :=
  if y.isNaN then invalid .double else y.toBits.toBitVec

/-- The machine number of a pattern. -/
def toMachine (x : Bits .double) : Float := Float.ofBits (UInt64.ofBitVec x)

/-- A function of one number, computed in the 64-bit format. -/
def viaMachine {F : Format} (f : Float → Float) (x : Bits F) : Bits F :=
  if isNaN x then quiet x
  else convert F (ofMachine (f (toMachine (convert .double x))))

/-- The exponential. -/
def exp {F : Format} (x : Bits F) : Bits F := viaMachine Float.exp x

/-- The natural logarithm. -/
def ln {F : Format} (x : Bits F) : Bits F := viaMachine Float.log x

/-- The hyperbolic tangent. -/
def tanh {F : Format} (x : Bits F) : Bits F := viaMachine Float.tanh x

/-- The power; a zeroth power is one, and so is every power of one, also with a NaN. -/
def pow {F : Format} (x y : Bits F) : Bits F :=
  if isZero y || x == one F then one F
  else if isNaN x then quiet x
  else if isNaN y then quiet y
  else
    let base := toMachine (convert .double x)
    let exponent := toMachine (convert .double y)
    convert F (ofMachine (Float.pow base exponent))

end DeviceTensor.Binary
