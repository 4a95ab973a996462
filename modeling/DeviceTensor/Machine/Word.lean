import DeviceTensor.Machine.Trap
set_option autoImplicit false

/-!
# Signed words

Signed integers of `w` bits are bit patterns read in two's complement.  Their arithmetic is exact:
an operation returns the pattern of the exact result, or traps when the result has none.
-/

namespace DeviceTensor.Word

variable {w : Nat}

/-- Whether `n` has a two's complement pattern of `w` bits. -/
def Fits (w : Nat) (n : Int) : Prop :=
  (BitVec.intMin w).toInt ≤ n ∧ n ≤ (BitVec.intMax w).toInt

instance (w : Nat) (n : Int) : Decidable (Fits w n) :=
  inferInstanceAs (Decidable (_ ∧ _))

/-- The pattern of `n`, if it has one. -/
def ofInt? (w : Nat) (n : Int) : Option (BitVec w) :=
  if Fits w n then some (BitVec.ofInt w n) else none

/-- The pattern of the exact result `n` of the operation `op`. -/
def exact (op : ArithmeticOp) (n : Int) : Except Trap (BitVec w) :=
  if Fits w n then .ok (BitVec.ofInt w n) else .error (.overflow op)

/-- The sum. -/
def add (x y : BitVec w) : Except Trap (BitVec w) := exact .add (x.toInt + y.toInt)

/-- The difference. -/
def sub (x y : BitVec w) : Except Trap (BitVec w) := exact .sub (x.toInt - y.toInt)

/-- The product. -/
def mul (x y : BitVec w) : Except Trap (BitVec w) := exact .mul (x.toInt * y.toInt)

/-- The quotient, truncated toward zero. -/
def div (x y : BitVec w) : Except Trap (BitVec w) :=
  if y.toInt = 0 then .error .divisionByZero else exact .div (x.toInt.tdiv y.toInt)

/-- The opposite. -/
def neg (x : BitVec w) : Except Trap (BitVec w) := exact .neg (-x.toInt)

/-- The absolute value; the least word has none. -/
def abs (x : BitVec w) : Except Trap (BitVec w) := if x.toInt < 0 then neg x else .ok x

theorem exact_of_fits {op : ArithmeticOp} {n : Int} (h : Fits w n) :
    exact op n = .ok (BitVec.ofInt w n) := by
  simp [exact, h]

theorem exact_of_not_fits {op : ArithmeticOp} {n : Int} (h : ¬ Fits w n) :
    (exact op n : Except Trap (BitVec w)) = .error (.overflow op) := by
  simp [exact, h]

end DeviceTensor.Word
