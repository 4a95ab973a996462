import DeviceTensor.Binary.Rounding
set_option autoImplicit false

/-!
# Arithmetic on binary formats

Addition, subtraction, multiplication, division and square root are exact results rounded once.
A NaN operand is the answer, marked as quiet; an operation without an answer gives `invalid`.
Comparisons with a NaN are false, and the two zeros are equal.
-/

namespace DeviceTensor.Binary

variable {F : Format}

/-! ## Sign -/

/-- The same pattern with the other sign. -/
def neg (x : Bits F) : Bits F := pack F (!isNegative x) (magnitude x)

/-- The same pattern with a positive sign. -/
def abs (x : Bits F) : Bits F := pack F false (magnitude x)

/-! ## Order -/

/-- Patterns other than NaNs are ordered as these integers are. -/
def orderKey (x : Bits F) : Int :=
  if isNegative x then -(magnitude x : Int) else magnitude x

/-- Whether `x` is less than `y`. -/
def lt (x y : Bits F) : Bool := !isNaN x && !isNaN y && decide (orderKey x < orderKey y)

/-- Whether `x` is less than or equal to `y`. -/
def le (x y : Bits F) : Bool := !isNaN x && !isNaN y && decide (orderKey x ≤ orderKey y)

/-- The larger operand; a NaN gives way to the other operand. -/
def max (x y : Bits F) : Bits F :=
  if isNaN x then y else if isNaN y then x else if lt x y then y else x

/-! ## Exact results rounded once -/

/-- A NaN operand, the first one, answers for the operation `k`. -/
def unlessNaN (x y : Bits F) (k : Class → Class → Bits F) : Bits F :=
  if isNaN x then quiet x else if isNaN y then quiet y else k (classify x) (classify y)

/-- The integer `± m * 2 ^ k`. -/
def signed (negative : Bool) (m k : Nat) : Int :=
  if negative then -((m <<< k : Nat) : Int) else ((m <<< k : Nat) : Int)

/-- The sum of two numbers; a sum of zero is negative only if both summands are. -/
def addClasses (F : Format) : Class → Class → Bits F
  | .nan, _ => invalid F
  | _, .nan => invalid F
  | .infinite s, .infinite t => if s = t then infinite F s else invalid F
  | .infinite s, .finite .. => infinite F s
  | .finite .., .infinite t => infinite F t
  | .finite s m e, .finite t n f =>
    let q := min e f
    let sum := signed s m (e - q).toNat + signed t n (f - q).toNat
    if sum = 0 then pack F (s && t) 0 else round F (decide (sum < 0)) sum.natAbs q

/-- The product of two numbers. -/
def mulClasses (F : Format) : Class → Class → Bits F
  | .nan, _ => invalid F
  | _, .nan => invalid F
  | .infinite s, .infinite t => infinite F (s ^^ t)
  | .infinite s, .finite t n _ => if n = 0 then invalid F else infinite F (s ^^ t)
  | .finite s m _, .infinite t => if m = 0 then invalid F else infinite F (s ^^ t)
  | .finite s m e, .finite t n f => round F (s ^^ t) (m * n) (e + f)

/-- The quotient of two numbers. -/
def divClasses (F : Format) : Class → Class → Bits F
  | .nan, _ => invalid F
  | _, .nan => invalid F
  | .infinite _, .infinite _ => invalid F
  | .infinite s, .finite t _ _ => infinite F (s ^^ t)
  | .finite s _ _, .infinite t => pack F (s ^^ t) 0
  | .finite s m e, .finite t n f =>
    if n = 0 then
      if m = 0 then invalid F else infinite F (s ^^ t)
    else roundQuotient F (s ^^ t) m n (e - f)

/-- The sum. -/
def add (x y : Bits F) : Bits F := unlessNaN x y (addClasses F)

/-- The difference. -/
def sub (x y : Bits F) : Bits F := unlessNaN x y fun _ _ => add x (neg y)

/-- The product. -/
def mul (x y : Bits F) : Bits F := unlessNaN x y (mulClasses F)

/-- The quotient. -/
def div (x y : Bits F) : Bits F := unlessNaN x y (divClasses F)

/-- The square root; that of negative zero is negative zero. -/
def sqrt (x : Bits F) : Bits F :=
  match classify x with
  | .nan => quiet x
  | .infinite s => if s then invalid F else x
  | .finite s m e =>
    if m = 0 then x else if s then invalid F else roundSquareRoot F m e

end DeviceTensor.Binary
