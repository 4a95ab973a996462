set_option autoImplicit false

/-!
# Binary interchange formats

A format fixes how many bits of a pattern hold the exponent and how many the fraction; one more
bit, the highest, holds the sign.  A pattern is a number `± significand · 2 ^ exponent`, an
infinity, or a NaN; `classify` says which.
-/

namespace DeviceTensor.Binary

/-- The widths of the two fields of a binary interchange format. -/
structure Format where
  exponentBits : Nat
  fractionBits : Nat
  deriving DecidableEq, Repr, Inhabited

namespace Format

/-- The 16-bit format. -/
def half : Format := ⟨5, 10⟩

/-- The 32-bit format. -/
def single : Format := ⟨8, 23⟩

/-- The 64-bit format. -/
def double : Format := ⟨11, 52⟩

/-- Bits of a pattern: sign, exponent and fraction. -/
def width (F : Format) : Nat := 1 + F.exponentBits + F.fractionBits

/-- Exponent of the unit in which subnormal numbers are counted. -/
def leastExponent (F : Format) : Int :=
  2 - ((1 <<< (F.exponentBits - 1) : Nat) : Int) - F.fractionBits

/-- Fractions are below this bound; the significand of a normal number is above it by its
fraction. -/
def fractions (F : Format) : Nat := 1 <<< F.fractionBits

/-- Patterns without their sign bit are below this bound. -/
def magnitudes (F : Format) : Nat := 1 <<< (F.exponentBits + F.fractionBits)

/-- The magnitude pattern of infinity: all exponent bits set, no fraction bit set. -/
def infinity (F : Format) : Nat := ((1 <<< F.exponentBits) - 1) * F.fractions

/-- The fraction bit that marks a NaN as quiet. -/
def quietBit (F : Format) : Nat := 1 <<< (F.fractionBits - 1)

end Format

/-- Bit patterns of a format. -/
abbrev Bits (F : Format) : Type := BitVec F.width

variable {F : Format}

/-- The pattern with the given sign and magnitude. -/
def pack (F : Format) (negative : Bool) (magnitude : Nat) : Bits F :=
  BitVec.ofNat F.width (if negative then F.magnitudes + magnitude else magnitude)

/-- The pattern without its sign bit. -/
def magnitude (x : Bits F) : Nat := x.toNat % F.magnitudes

/-- Whether the sign bit is set. -/
def isNegative (x : Bits F) : Bool := x.toNat / F.magnitudes = 1

/-- Whether the pattern is a NaN. -/
def isNaN (x : Bits F) : Bool := F.infinity < magnitude x

/-- Whether the pattern is one of the two zeros. -/
def isZero (x : Bits F) : Bool := magnitude x = 0

/-- Positive zero. -/
def zero (F : Format) : Bits F := pack F false 0

/-- One. -/
def one (F : Format) : Bits F :=
  pack F false (((1 <<< (F.exponentBits - 1)) - 1) * F.fractions)

/-- The infinity of the given sign. -/
def infinite (F : Format) (negative : Bool) : Bits F := pack F negative F.infinity

/-- The positive quiet NaN. -/
def nan (F : Format) : Bits F := pack F false (F.infinity + F.quietBit)

/-- The NaN of an operation that has no answer and no NaN among its operands. -/
def invalid (F : Format) : Bits F := pack F true (F.infinity + F.quietBit)

/-- The same NaN marked as quiet. -/
def quiet (x : Bits F) : Bits F :=
  if magnitude x / F.quietBit % 2 = 1 then x else x + BitVec.ofNat F.width F.quietBit

/-- What a pattern stands for. -/
inductive Class where
  | nan
  | infinite (negative : Bool)
  /-- The number `± significand * 2 ^ exponent`; zero has a sign as well. -/
  | finite (negative : Bool) (significand : Nat) (exponent : Int)
  deriving DecidableEq, Repr, Inhabited

/-- What the pattern `x` stands for. -/
def classify (x : Bits F) : Class :=
  let field := magnitude x / F.fractions
  let fraction := magnitude x % F.fractions
  if isNaN x then .nan
  else if magnitude x = F.infinity then .infinite (isNegative x)
  else if field = 0 then .finite (isNegative x) fraction F.leastExponent
  else .finite (isNegative x) (F.fractions + fraction) (F.leastExponent + (field - 1 : Nat))

end DeviceTensor.Binary
