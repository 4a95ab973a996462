import DeviceTensor.Binary.Arithmetic
import DeviceTensor.Element.Basic
set_option autoImplicit false

/-!
# 64-bit numbers

Scalars, sums and samples are elements of the widest floating point type.  Here are the operations
on them that the rest of the library uses.
-/

namespace DeviceTensor

/-- Elements of the 64-bit floating point type. -/
abbrev Double : Type := Elem .float64

namespace Double

/-- Positive zero. -/
def zero : Double := Binary.zero .double

/-- One. -/
def one : Double := Binary.one .double

/-- The 64-bit number nearest to an integer. -/
def ofInt (n : Int) : Double := Binary.ofInt .double n

/-- The 64-bit number nearest to the decimal fraction `m / 10 ^ k`. -/
def ofDecimal (m : Int) (k : Nat) : Double := Binary.ofDecimal .double m k

/-- The number `m / 2 ^ 52`, for an `m` below that. -/
def ofMantissa (m : Nat) : Double := Binary.round .double false m (-52)

/-- The sum. -/
def add (x y : Double) : Double := Binary.add (F := .double) x y

/-- The difference. -/
def sub (x y : Double) : Double := Binary.sub (F := .double) x y

/-- The product. -/
def mul (x y : Double) : Double := Binary.mul (F := .double) x y

/-- The quotient. -/
def div (x y : Double) : Double := Binary.div (F := .double) x y

/-- The absolute value. -/
def abs (x : Double) : Double := Binary.abs (F := .double) x

/-- The square root. -/
def sqrt (x : Double) : Double := Binary.sqrt (F := .double) x

/-- Whether `x` is less than `y`. -/
def lt (x y : Double) : Bool := Binary.lt (F := .double) x y

/-- Whether `x` is less than or equal to `y`. -/
def le (x y : Double) : Bool := Binary.le (F := .double) x y

/-- Whether `x` is a number, neither an infinity nor a NaN. -/
def isFinite (x : Double) : Bool := Binary.isFinite (F := .double) x

/-- Whether `x` is a number without a fractional part. -/
def isWhole (x : Double) : Bool := Binary.isWhole (F := .double) x

/-- The sum of a list from zero, from the left. -/
def sum (xs : List Double) : Double := xs.foldl add zero

end Double

end DeviceTensor
