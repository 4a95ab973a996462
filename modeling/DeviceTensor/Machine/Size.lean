import DeviceTensor.Machine.Trap
set_option autoImplicit false

/-!
# Sizes

Counts, offsets and byte sizes are natural numbers below `Size.limit`.  Sums and products of sizes
are exact or trap; a product of several sizes is taken from the left, so that a partial product
out of range traps even when a later factor is zero.
-/

namespace DeviceTensor.Size

/-- Sizes are 64-bit numbers. -/
def limit : Nat := UInt64.size

/-- The sum of two sizes. -/
def add (a b : Nat) : Except Trap Nat :=
  if a + b < limit then .ok (a + b) else .error (.overflow .add)

/-- The product of two sizes. -/
def mul (a b : Nat) : Except Trap Nat :=
  if a * b < limit then .ok (a * b) else .error (.overflow .mul)

/-- The product of a list of sizes, from the left. -/
def product (dims : List Nat) : Except Trap Nat :=
  dims.foldlM mul 1

theorem add_eq_ok_iff {a b c : Nat} : add a b = .ok c ↔ a + b < limit ∧ c = a + b := by
  unfold add
  split
  · simp_all [eq_comm]
  · simp only [reduceCtorEq, false_iff]
    omega

theorem mul_eq_ok_iff {a b c : Nat} : mul a b = .ok c ↔ a * b < limit ∧ c = a * b := by
  unfold mul
  split
  · simp_all [eq_comm]
  · simp only [reduceCtorEq, false_iff]
    omega

theorem add_of_lt {a b : Nat} (h : a + b < limit) : add a b = .ok (a + b) := by
  simp [add, h]

theorem mul_of_lt {a b : Nat} (h : a * b < limit) : mul a b = .ok (a * b) := by
  simp [mul, h]

end DeviceTensor.Size
