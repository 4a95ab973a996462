set_option autoImplicit false

/-!
# Traps

Arithmetic on machine numbers and access to buffers are partial: a result may leave the range of
its type, a divisor may be zero, an index may lie behind the end of its buffer.  A computation
that meets such a case stops with a `Trap`, which names the cause; `Trap.message` is its wording.
-/

namespace DeviceTensor

/-- An operation whose exact result can leave the range of a machine type. -/
inductive ArithmeticOp where
  | add
  | sub
  | mul
  | neg
  | div
  deriving DecidableEq, Repr, Inhabited

namespace ArithmeticOp

/-- The verb by which messages call the operation. -/
def verb : ArithmeticOp → String
  | .add => "add"
  | .sub => "subtract"
  | .mul => "multiply"
  | .neg => "negate"
  | .div => "divide"

end ArithmeticOp

/-- Why a computation on machine numbers or buffers stopped. -/
inductive Trap where
  /-- The exact result of an operation does not fit its type. -/
  | overflow (op : ArithmeticOp)
  /-- An integer was divided by zero. -/
  | divisionByZero
  /-- A buffer of `size` elements was accessed at `index`. -/
  | outOfBounds (size index : Nat)
  deriving DecidableEq, Repr, Inhabited

namespace Trap

/-- The wording of a trap. -/
def message : Trap → String
  | .overflow op => s!"attempt to {op.verb} with overflow"
  | .divisionByZero => "attempt to divide by zero"
  | .outOfBounds size index =>
      s!"index out of bounds: the len is {size} but the index is {index}"

end Trap

/-! ## Buffers -/

namespace Buffer

/-- The element of `xs` at position `i`; a trap behind the end. -/
def read {α : Type} (xs : Array α) (i : Nat) : Except Trap α :=
  match xs[i]? with
  | some x => .ok x
  | none => .error (.outOfBounds xs.size i)

theorem read_of_lt {α : Type} {xs : Array α} {i : Nat} (h : i < xs.size) :
    read xs i = .ok xs[i] := by
  simp [read, h]

theorem read_of_le {α : Type} {xs : Array α} {i : Nat} (h : xs.size ≤ i) :
    read xs i = .error (.outOfBounds xs.size i) := by
  simp [read, h]

/-- The buffer with `x` at position `i`; a trap behind the end. -/
def store {α : Type} (xs : Array α) (i : Nat) (x : α) : Except Trap (Array α) :=
  if i < xs.size then .ok (xs.setIfInBounds i x) else .error (.outOfBounds xs.size i)

theorem store_of_lt {α : Type} {xs : Array α} {i : Nat} (h : i < xs.size) (x : α) :
    store xs i x = .ok (xs.setIfInBounds i x) := if_pos h

theorem store_eq_ok_iff {α : Type} {xs ys : Array α} {i : Nat} {x : α} :
    store xs i x = .ok ys ↔ i < xs.size ∧ ys = xs.setIfInBounds i x := by
  unfold store
  split
  · rename_i hlt
    simp [hlt, eq_comm]
  · rename_i hge
    simp [hge]

theorem size_store {α : Type} {xs ys : Array α} {i : Nat} {x : α} (h : store xs i x = .ok ys) :
    ys.size = xs.size := by
  obtain ⟨-, rfl⟩ := store_eq_ok_iff.mp h
  exact Array.size_setIfInBounds

end Buffer

end DeviceTensor
