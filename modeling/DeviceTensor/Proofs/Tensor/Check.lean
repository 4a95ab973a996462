import DeviceTensor.Proofs.Tensor.Computation
import DeviceTensor.Proofs.Tensor.Valid
set_option autoImplicit false

/-!
# What the checks of an operation require

A check passes exactly if its operands have the form that the operation needs.  For each operation
the launch is given that it plans for operands that pass.
-/

namespace DeviceTensor

open DeviceTensor.Except

namespace Tensor

variable {s : Store} {a b c t v m lhs rhs out : Tensor} {u : Unit} {inv : Invocation}
  {alpha beta : Double}

/-! ## Checks -/

/-- The tensors have one element type and lie on one backend. -/
def SameKind (a b : Tensor) (s : Store) : Prop :=
  a.dtype = b.dtype ∧ s.backend a.device = s.backend b.device

/-- The tensors have one shape and one storage order. -/
def SameForm (a b : Tensor) : Prop := a.shape = b.shape ∧ a.transposed = b.transposed

/-- The output holds `count` elements of the kind of `t`. -/
def OutputOf (t out : Tensor) (count : Nat) (s : Store) : Prop :=
  SameKind t out s ∧ out.count s = count

/-- The output holds as many elements as `t`, of its kind and in its storage order. -/
def OutputLike (t out : Tensor) (s : Store) : Prop :=
  OutputOf t out (t.count s) s ∧ t.transposed = out.transposed

theorem checkSameKind_eq_ok_iff : checkSameKind a b s = .ok u ↔ SameKind a b s := by
  unfold checkSameKind
  rw [unless_ne_eq_ok_iff, unless_ne_last_eq_ok_iff]
  rfl

theorem checkSameForm_eq_ok_iff : checkSameForm a b = .ok u ↔ SameForm a b := by
  unfold checkSameForm
  rw [unless_ne_eq_ok_iff, unless_ne_last_eq_ok_iff]
  rfl

theorem checkOutput_eq_ok_iff {count : Nat} :
    checkOutput t out count s = .ok u ↔ OutputOf t out count s :=
  (check_eq_ok_iff checkSameKind_eq_ok_iff).trans
    (and_congr_right fun _ => unless_ne_last_eq_ok_iff)

theorem checkOutputLike_eq_ok_iff : checkOutputLike t out s = .ok u ↔ OutputLike t out s :=
  (check_eq_ok_iff checkOutput_eq_ok_iff).trans (and_congr_right fun _ => unless_ne_last_eq_ok_iff)

theorem requireBlock_eq_ok_iff {k : BlockId} : t.requireBlock = .ok k ↔ t.block = some k := by
  unfold requireBlock
  cases t.block with
  | none => simp
  | some k' => simp

/-- A step that needs a block. -/
theorem needsBlock_eq_ok_iff {α : Type} {f : BlockId → Except Fault α} {x : α} :
    (t.requireBlock >>= f) = .ok x ↔ ∃ k, t.block = some k ∧ f k = .ok x := by
  rw [bind_eq_ok_iff]
  simp only [requireBlock_eq_ok_iff]

/-! ## Plans -/

/-- The invocation works on the blocks of one input and the output. -/
def PlansOne (t out : Tensor) (make : BlockId → BlockId → Invocation) (inv : Invocation) : Prop :=
  ∃ dst, out.block = some dst ∧ ∃ src, t.block = some src ∧ make dst src = inv

/-- The invocation works on the blocks of two inputs and the output. -/
def PlansTwo (lhs rhs out : Tensor) (make : BlockId → BlockId → BlockId → Invocation)
    (inv : Invocation) : Prop :=
  ∃ dst, out.block = some dst ∧ ∃ left, lhs.block = some left ∧ ∃ right, rhs.block = some right ∧
    make dst left right = inv

theorem plansOne_iff {make : BlockId → BlockId → Invocation} :
    (do let dst ← out.requireBlock
        let src ← t.requireBlock
        return make dst src) = .ok inv ↔ PlansOne t out make inv := by
  simp only [needsBlock_eq_ok_iff, pure_eq_ok_iff]
  rfl

theorem plansTwo_iff {make : BlockId → BlockId → BlockId → Invocation} :
    (do let dst ← out.requireBlock
        let left ← lhs.requireBlock
        let right ← rhs.requireBlock
        return make dst left right) = .ok inv ↔ PlansTwo lhs rhs out make inv := by
  simp only [needsBlock_eq_ok_iff, pure_eq_ok_iff]
  rfl

theorem planMap_eq_ok_iff {x : Double} :
    planMap t x out s = .ok inv ↔ OutputLike t out s ∧ PlansOne t out (fun dst src =>
      { device := out.device, inputs := [src], output := dst, count := t.count s, alpha := x })
      inv :=
  (check_eq_ok_iff checkOutputLike_eq_ok_iff).trans (and_congr_right fun _ => plansOne_iff)

theorem planZip_eq_ok_iff :
    planZip lhs rhs out s = .ok inv ↔ SameKind lhs rhs s ∧ SameForm lhs rhs ∧
      OutputLike lhs out s ∧ PlansTwo lhs rhs out (fun dst left right =>
        { device := out.device, inputs := [left, right], output := dst, count := lhs.count s })
        inv := by
  refine (check_eq_ok_iff checkSameKind_eq_ok_iff).trans (and_congr_right fun _ => ?_)
  refine (check_eq_ok_iff checkSameForm_eq_ok_iff).trans (and_congr_right fun _ => ?_)
  exact (check_eq_ok_iff checkOutputLike_eq_ok_iff).trans (and_congr_right fun _ => plansTwo_iff)

theorem planAddScaled_eq_ok_iff :
    planAddScaled alpha t out s = .ok inv ↔ SameKind t out s ∧ SameForm t out ∧
      PlansOne t out (fun dst src =>
        { device := out.device, inputs := [src], output := dst, count := t.count s,
          alpha := alpha }) inv := by
  refine (check_eq_ok_iff checkSameKind_eq_ok_iff).trans (and_congr_right fun _ => ?_)
  exact (check_eq_ok_iff checkSameForm_eq_ok_iff).trans (and_congr_right fun _ => plansOne_iff)

theorem planBroadcast_eq_ok_iff {op : Operation} :
    planBroadcast op alpha beta v m s = .ok inv ↔ SameKind v m s ∧ ∃ dims, m.asMatrix = .ok dims ∧
      v.count s = (if overColumns op then dims.1 else dims.2) ∧ PlansOne v m (fun dst src =>
        { device := m.device, inputs := [src], output := dst, count := m.count s, alpha := alpha,
          beta := beta, extents := .ofGrid ⟨dims.1, dims.2, m.transposed⟩ }) inv := by
  refine (check_eq_ok_iff checkSameKind_eq_ok_iff).trans (and_congr_right fun _ => ?_)
  refine bind_eq_ok_iff.trans (exists_congr fun dims => and_congr_right fun _ => ?_)
  exact unless_ne_eq_ok_iff.trans (and_congr_right fun _ => plansOne_iff)

theorem planSums_eq_ok_iff {length : Nat} {g : Grid} :
    planSums t out length g s = .ok inv ↔ OutputOf t out length s ∧
      PlansOne t out (fun dst src =>
        { device := out.device, inputs := [src], output := dst, count := t.count s,
          extents := .ofGrid g }) inv :=
  (check_eq_ok_iff checkOutput_eq_ok_iff).trans (and_congr_right fun _ => plansOne_iff)

theorem planSoftmax_eq_ok_iff {axis : Nat} :
    planSoftmax t axis out s = .ok inv ↔ axis < t.rank ∧ OutputLike t out s ∧
      ∃ rows, Size.product (t.shape.take axis) = .ok rows ∧
      ∃ cols, Size.product (t.shape.drop axis) = .ok cols ∧ PlansOne t out (fun dst src =>
        { device := out.device, inputs := [src], output := dst, count := t.count s,
          extents := .ofGrid ⟨rows, cols, t.transposed⟩ }) inv := by
  unfold planSoftmax
  rw [unless_eq_ok_iff, Nat.not_le]
  refine and_congr_right fun _ => ?_
  refine (check_eq_ok_iff checkOutputLike_eq_ok_iff).trans (and_congr_right fun _ => ?_)
  refine bind_eq_ok_iff.trans (exists_congr fun rows => and_congr Fault.ofTrap_eq_ok_iff ?_)
  refine bind_eq_ok_iff.trans (exists_congr fun cols => and_congr Fault.ofTrap_eq_ok_iff ?_)
  exact plansOne_iff

theorem productExtents_eq_ok_iff {p : Shape × Extents} :
    productExtents a b = .ok p ↔ ∃ rows cols inner,
      productDims a b = .ok (p.1, rows, cols, inner, inner) ∧
      p.2 = ⟨rows, cols, inner, a.transposedMatrix, b.transposedMatrix⟩ := by
  unfold productExtents
  rw [bind_eq_ok_iff]
  constructor
  · rintro ⟨⟨shape, rows, cols, ka, kb⟩, hdims, h⟩
    dsimp only at h
    rw [unless_ne_eq_ok_iff] at h
    obtain ⟨rfl, h⟩ := h
    cases h
    exact ⟨rows, cols, ka, hdims, rfl⟩
  · rintro ⟨rows, cols, inner, hdims, hp⟩
    refine ⟨_, hdims, unless_ne_eq_ok_iff.mpr ⟨rfl, ?_⟩⟩
    rw [← hp]
    rfl

theorem planProduct_eq_ok_iff :
    planProduct alpha a b beta c s = .ok inv ↔ SameKind a b s ∧
      ∃ p, productExtents a b = .ok p ∧
      ∃ count, Size.mul p.2.rows p.2.cols = .ok count ∧ OutputOf a c count s ∧
      c.transposed = false ∧ PlansTwo a b c (fun dst left right =>
        { device := c.device, inputs := [left, right], output := dst, count := c.count s,
          alpha := alpha, beta := beta, extents := p.2 }) inv := by
  refine (check_eq_ok_iff checkSameKind_eq_ok_iff).trans (and_congr_right fun _ => ?_)
  refine bind_eq_ok_iff.trans (exists_congr fun p => and_congr_right fun _ => ?_)
  refine bind_eq_ok_iff.trans (exists_congr fun count => and_congr Fault.ofTrap_eq_ok_iff ?_)
  refine (check_eq_ok_iff checkOutput_eq_ok_iff).trans (and_congr_right fun _ => ?_)
  exact unless_eq_ok_iff.trans (and_congr (Bool.not_eq_true _ ▸ Iff.rfl) plansTwo_iff)

end Tensor

end DeviceTensor
