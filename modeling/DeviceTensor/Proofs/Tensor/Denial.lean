import DeviceTensor.Proofs.Tensor.Evaluation
import DeviceTensor.Proofs.Tensor.Making
set_option autoImplicit false

/-!
# Denied operands

What an operation does before it launches a routine: it makes the tensor for its result, if it is
to make one, and checks its operands.  If these checks fail, by whatever fault, the operation fails
with the same fault and has done nothing.
-/

namespace DeviceTensor

open DeviceTensor.Action Tensor

/-- Makes the output of a computation and checks its operands. -/
def Computation.checking (c : Computation) (make : Action Fault Tensor) : Action Fault Issue := do
  let out ← make
  Action.examine (c.plan out)

/-- The checks of sums along an axis, with which a mean starts. -/
def Tensor.checkSums (t : Tensor) (axis : Nat) : Action Fault Issue := do
  let c ← Action.ofExcept (t.collapse axis)
  (Computation.sumAxis t axis).checking (onDevice [c.length] t.device t.dtype)

namespace Evaluation

/-- The checks of an operation on its operands. -/
def check : Evaluation → Action Fault Issue
  | .into c out => Action.examine (c.plan out)
  | .map op t x => (Computation.map op t x).checking t.blankLike
  | .zip op lhs rhs => (Computation.zip op lhs rhs).checking lhs.blankLike
  | .sums which t => do
    let (rows, cols) ← Action.ofExcept t.asMatrix
    (Computation.sums which t).checking (onDevice [which.length rows cols] t.device t.dtype)
  | .sumAxis t axis => t.checkSums axis
  | .average t axis => t.checkSums axis
  | .softmax t axis => (Computation.softmax t axis).checking t.blankLike
  | .product a b => do
    Action.examine (checkSameKind a b)
    let (shape, _) ← Action.ofExcept (productExtents a b)
    (Computation.product Double.one a b Double.zero).checking (onDevice shape a.device a.dtype)
  | .operate f t rhs => (Computation.ofAssign f t rhs).checking t.blankLike

end Evaluation

/-! ## Actions that fail with their checks -/

/-- The action fails with the fault of its checks, and has done nothing. -/
def Action.FailsWith {α β : Type} (x : Action Fault α) (check : Action Fault β) (s : Store) : Prop :=
  ∀ f, (check s).1 = .error f → (x s).1 = .error f ∧ s.Spares (x s).2

namespace Action.FailsWith

variable {α β γ : Type} {s : Store}

/-- A first step that the action and its checks have in common. -/
theorem bind {x : Action Fault γ} {next : γ → Action Fault α} {check : γ → Action Fault β}
    (hx : x.Ends s
      (fun c s₁ => ∀ f, (check c s₁).1 = .error f →
        (next c s₁).1 = .error f ∧ s.Spares (next c s₁).2)
      (fun _ s₁ => s₁ = s)) : (x >>= next).FailsWith (x >>= check) s := by
  intro f hf
  rw [bind_apply] at hf ⊢
  unfold Ends at hx
  cases hrun : x s with
  | mk r s₁ =>
    rw [hrun] at hx hf
    cases r with
    | ok c => exact hx f hf
    | error e =>
      cases hf
      exact ⟨rfl, hx ▸ .refl s₁⟩

theorem examine {p : Store → Except Fault γ} {next : γ → Action Fault α}
    {check : γ → Action Fault β} (h : ∀ c, (next c).FailsWith (check c) s) :
    (Action.examine p >>= next).FailsWith (Action.examine p >>= check) s :=
  bind (ends_examine.mpr ⟨fun c _ => h c, fun _ _ => rfl⟩)

theorem ofExcept {p : Except Fault γ} {next : γ → Action Fault α} {check : γ → Action Fault β}
    (h : ∀ c, (next c).FailsWith (check c) s) :
    (Action.ofExcept p >>= next).FailsWith (Action.ofExcept p >>= check) s :=
  examine (p := fun _ => p) h

/-- What follows an action that failed is not done. -/
theorem continued {x : Action Fault γ} {next : γ → Action Fault α} {check : Action Fault β}
    (h : x.FailsWith check s) : (x >>= next).FailsWith check s := by
  intro f hf
  obtain ⟨hfail, hs⟩ := h f hf
  rw [bind_apply]
  cases hrun : x s with
  | mk r s₁ =>
    rw [hrun] at hfail hs
    cases hfail
    exact ⟨rfl, hs⟩

end Action.FailsWith

namespace Computation

variable {s : Store}

theorem into_failsWith (c : Computation) (out : Tensor) :
    (c.into out).FailsWith (Action.examine (c.plan out)) s := by
  intro f hf
  rw [c.into_eq out s, bind_apply]
  unfold Action.examine at hf ⊢
  dsimp only at hf ⊢
  rw [hf]
  exact ⟨rfl, .refl s⟩

/-- A tensor that was made for the result is gone again. -/
theorem building_failsWith (c : Computation) {make : Action Fault Tensor}
    (hm : make.Ends s (fun t s' => t.NewIn s s') fun _ s' => s' = s) :
    (building make (c.into ·)).FailsWith (c.checking make) s := by
  refine .bind (hm.mono ?_ fun _ _ h => h)
  rintro t s₁ ⟨ht, hs⟩ f hf
  obtain ⟨hfail, hspares⟩ := c.into_failsWith t f hf
  rw [bind_apply]
  unfold Action.onFailure
  dsimp only
  cases hrun : c.into t s₁ with
  | mk r s₂ =>
    rw [hrun] at hfail hspares
    cases hfail
    refine ⟨rfl, ?_⟩
    unfold Tensor.release
    rw [ht]
    exact (hs.trans hspares).release (Nat.le_refl _)

end Computation

/-- An operation whose checks fail has done nothing. -/
theorem Evaluation.run_failsWith (e : Evaluation) (s : Store) : e.run.FailsWith e.check s := by
  have hsums (t : Tensor) (axis : Nat) :
      (t.sumAxis axis).FailsWith (t.checkSums axis) s :=
    .ofExcept fun _ => (Computation.sumAxis t axis).building_failsWith (onDevice_new _ _ _ s)
  cases e with
  | into c out => exact .continued (c.into_failsWith out)
  | map op t x => exact (Computation.map op t x).building_failsWith (t.blankLike_new s)
  | zip op lhs rhs =>
    exact (Computation.zip op lhs rhs).building_failsWith (lhs.blankLike_new s)
  | sums which t =>
    exact .ofExcept fun _ => (Computation.sums which t).building_failsWith (onDevice_new _ _ _ s)
  | sumAxis t axis => exact hsums t axis
  | average t axis =>
    refine .bind (ends_ofExcept.mpr ⟨fun c hc f hf => ?_, fun _ _ => rfl⟩)
    have hcheck : (t.checkSums axis s).1 = .error f := by
      unfold checkSums
      rw [bind_apply]
      unfold Action.ofExcept
      rw [hc]
      exact hf
    exact FailsWith.continued (hsums t axis) f hcheck
  | softmax t axis => exact (Computation.softmax t axis).building_failsWith (t.blankLike_new s)
  | product a b =>
    exact .examine fun _ => .ofExcept fun _ =>
      (Computation.product Double.one a b Double.zero).building_failsWith (onDevice_new _ _ _ s)
  | operate f t rhs =>
    cases rhs with
    | tensor other =>
      exact (Computation.zip f.onTensors t other).building_failsWith (t.blankLike_new s)
    | scalar x => exact (Computation.map f.onScalar t x).building_failsWith (t.blankLike_new s)

end DeviceTensor
