import DeviceTensor.Proofs.Kernel.Overwriting
import DeviceTensor.Proofs.Routine.Arrangement
import DeviceTensor.Proofs.Routine.Bounds
set_option autoImplicit false

/-!
# Launches that overwrite their output

Most routines leave nothing of what their output held.  Two launches of such a routine that read the
same inputs leave the same elements, each in an output of its own.
-/

namespace DeviceTensor

open DeviceTensor.Except

namespace Invocation

/-- The invocations have one form and one library, and read the same inputs. -/
structure SameInputs (inv : Invocation) (s : Store) (inv' : Invocation) (s' : Store) : Prop where
  count : inv'.count = inv.count
  alpha : inv'.alpha = inv.alpha
  beta : inv'.beta = inv.beta
  extents : inv'.extents = inv.extents
  library : s'.library = s.library
  seen : ∀ d index n, inv'.inputSeen d index n s' = inv.inputSeen d index n s

/-- Where the first output can be viewed, so can the second. -/
def OutputFollows (inv : Invocation) (s : Store) (inv' : Invocation) (s' : Store) : Prop :=
  ∀ d n, Follows (fun _ _ => True) (inv.outputSeen d n s) (inv'.outputSeen d n s')

theorem OutputFollows.sizes {inv inv' : Invocation} {s s' : Store}
    (h : inv.OutputFollows s inv' s') (d : ElemType) (n : Nat) :
    Follows (fun xs ys => xs.size = n ∧ ys.size = xs.size) (inv.outputSeen d n s)
      (inv'.outputSeen d n s') := by
  intro xs hxs
  obtain ⟨ys, hys, -⟩ := h d n xs hxs
  have hsize := size_of_outputSeen hxs
  exact ⟨ys, hys, hsize, (size_of_outputSeen hys).trans hsize.symm⟩

end Invocation

namespace Recipe

open Invocation

variable {d : ElemType} {inv inv' : Invocation} {s s' : Store}

/-- The recipe leaves nothing of what the output held. -/
def Overwrites (inv : Invocation) : Recipe d → Prop
  | .map _ => True
  | .mapScalar _ => True
  | .zip _ => True
  | .softmax _ => True
  | .sumRows => True
  | .sumColumns => True
  | .product => inv.beta = Double.zero
  | .wideProduct => inv.beta = Double.zero
  | _ => False

/-- The buffers are the same, of `n` elements. -/
def Same (n : Nat) (xs ys : Array (Elem d)) : Prop := ys = xs ∧ xs.size = n

theorem leaves_of_repeats {n : Nat} {o o' : Outcome (Elem d)} (h : o.Repeats o')
    (hsize : o.1.size = n) :
    Follows (Effect.Leaves (d := d) (Same n)) (.ok (.ofOutcome o) : Except RoutineFailure Effect)
      (.ok (.ofOutcome o') : Except RoutineFailure Effect) := by
  apply leaves_ofOutcome
  intro r hr
  obtain ⟨r', hr', hsame⟩ := h r hr
  obtain rfl := Outcome.done_eq_ok_iff.mp hr
  exact ⟨r', hr', hsame, hsize⟩

/-- Zero is the zero of every element type. -/
theorem scalarSeen_zero (d : ElemType) : scalarSeen d Double.zero = .ok 0 := by
  have hcast : Elem.cast .float64 d Double.zero = some 0 := Elem.cast_zero .float64 d
  unfold scalarSeen
  rw [hcast]

theorem isZero_zero (d : ElemType) : (arithmetic d).isZero 0 = true := by
  cases d <;> decide

/-- Two products that add nothing of what their outputs held. -/
theorem productEffect_overwrites
    {kernel : Elem d → Array (Elem d) → Array (Elem d) → Elem d → Array (Elem d) →
      Outcome (Elem d)}
    (hsize : ∀ alpha a b beta c, (kernel alpha a b beta c).1.size = c.size)
    (hkernel : ∀ alpha a b c c', c'.size = c.size →
      c.size = inv.extents.rows * inv.extents.cols →
      (kernel alpha a b 0 c).Repeats (kernel alpha a b 0 c'))
    (hbeta : inv.beta = Double.zero) (hin : inv.SameInputs s inv' s')
    (hout : inv.OutputFollows s inv' s') :
    Follows (Effect.Leaves (d := d) (Same (inv.extents.rows * inv.extents.cols)))
      (productEffect inv kernel s) (productEffect inv' kernel s') := by
  simp only [productEffect, hin.extents, hin.alpha, hin.beta, hbeta, hin.seen, scalarSeen_zero]
  refine .bind (.of_eq rfl) fun n n' hn => ?_
  subst hn
  refine .bind (.of_eq rfl) fun a a' ha => .bind (.of_eq rfl) fun n n' hn => ?_
  subst ha hn
  refine .bind (.of_eq rfl) fun b b' hb => .bind (sizeSeen_follows _ _) fun n n' hn => ?_
  obtain ⟨rfl, rfl⟩ := hn
  subst hb
  refine .bind (hout.sizes d _) fun c c' hc => .bind (.of_eq rfl) fun alpha alpha' halpha => ?_
  subst halpha
  apply leaves_of_repeats (hkernel alpha a b c c' hc.2 hc.1)
  rw [hsize, hc.1]

/-- Launches of a recipe that overwrites its output leave the same elements. -/
theorem Overwrites.effect_follows {recipe : Recipe d} (h : recipe.Overwrites inv)
    (hin : inv.SameInputs s inv' s') (hout : inv.OutputFollows s inv' s') :
    Follows (Effect.Leaves (d := d) (Same (recipe.outputView inv).count)) (recipe.effect inv s)
      (recipe.effect inv' s') := by
  cases recipe with
  | map f =>
    simp only [effect, hin.count, hin.seen]
    refine .bind (.of_eq rfl) fun src src' hs => .bind (hout.sizes d _) fun dst dst' hd => ?_
    subst hs
    exact leaves_of_repeats (Kernel.map_repeats f src hd.2) ((Kernel.size_map f src dst).trans hd.1)
  | mapScalar f =>
    simp only [effect, hin.count, hin.seen, hin.alpha]
    refine .bind (.of_eq rfl) fun v v' hv => .bind (.of_eq rfl) fun src src' hs => ?_
    refine .bind (hout.sizes d _) fun dst dst' hd => ?_
    subst hv hs
    exact leaves_of_repeats (Kernel.map_repeats (f · v) src hd.2)
      ((Kernel.size_map (f · v) src dst).trans hd.1)
  | zip f =>
    simp only [effect, hin.count, hin.seen]
    refine .bind (.of_eq rfl) fun lhs lhs' hl => .bind (.of_eq rfl) fun rhs rhs' hr => ?_
    refine .bind (hout.sizes d _) fun dst dst' hd => ?_
    subst hl hr
    exact leaves_of_repeats (Kernel.zip_repeats f lhs rhs hd.2)
      ((Kernel.size_zip f lhs rhs dst).trans hd.1)
  | softmax F =>
    simp only [effect, hin.extents, hin.seen]
    refine .bind (sizeSeen_follows _ _) fun n n' hn => ?_
    obtain ⟨rfl, rfl⟩ := hn
    refine .bind (.of_eq rfl) fun src src' hs => .bind (hout.sizes d _) fun dst dst' hd => ?_
    subst hs
    exact leaves_of_repeats (Kernel.softmax_repeats _ F src _ hd.2 hd.1)
      ((Kernel.size_softmax _ F src _ dst).trans hd.1)
  | sumRows =>
    simp only [effect, hin.extents, hin.seen]
    refine .bind (.of_eq rfl) fun n n' hn => ?_
    subst hn
    refine .bind (.of_eq rfl) fun m m' hm => .bind (hout.sizes d _) fun dst dst' hd => ?_
    subst hm
    exact leaves_of_repeats (Kernel.sumRows_repeats _ m _ hd.2)
      ((Kernel.size_sumRows _ m _ dst).trans hd.1)
  | sumColumns =>
    simp only [effect, hin.extents, hin.seen]
    refine .bind (.of_eq rfl) fun n n' hn => ?_
    subst hn
    refine .bind (.of_eq rfl) fun m m' hm => .bind (hout.sizes d _) fun dst dst' hd => ?_
    subst hm
    exact leaves_of_repeats (Kernel.sumColumns_repeats _ m _ hd.2)
      ((Kernel.size_sumColumns _ m _ dst).trans hd.1)
  | product =>
    simp only [effect, hin.extents]
    refine productEffect_overwrites (fun _ _ _ _ _ => Kernel.size_product ..) ?_ h hin hout
    intro alpha a b c c' hsize hc
    exact Kernel.product_repeats _ alpha a b _ (isZero_zero d) hsize hc
  | wideProduct =>
    simp only [effect, hin.extents, hin.library]
    refine productEffect_overwrites (fun _ _ _ _ _ => Kernel.size_wideProduct ..) ?_ h hin hout
    intro alpha a b c c' hsize hc
    exact Kernel.wideProduct_repeats _ alpha a b _ (isZero_zero d) hsize hc
  | _ => exact h.elim

/-- Such a recipe looks at its first input and at its output. -/
theorem Overwrites.sees {recipe : Recipe d} (h : recipe.Overwrites inv) {e : Effect}
    (he : recipe.effect inv s = .ok e) :
    (∃ n xs, inv.inputSeen d 0 n s = .ok xs) ∧ ∃ n xs, inv.outputSeen d n s = .ok xs := by
  have hproduct {kernel : Elem d → Array (Elem d) → Array (Elem d) → Elem d → Array (Elem d) →
      Outcome (Elem d)} (he : productEffect inv kernel s = .ok e) :
      (∃ n xs, inv.inputSeen d 0 n s = .ok xs) ∧ ∃ n xs, inv.outputSeen d n s = .ok xs := by
    obtain ⟨_, -, he⟩ := bind_eq_ok_iff.mp he
    obtain ⟨a, ha, he⟩ := bind_eq_ok_iff.mp he
    obtain ⟨_, -, he⟩ := bind_eq_ok_iff.mp he
    obtain ⟨_, -, he⟩ := bind_eq_ok_iff.mp he
    obtain ⟨_, -, he⟩ := bind_eq_ok_iff.mp he
    obtain ⟨c, hc, -⟩ := bind_eq_ok_iff.mp he
    exact ⟨⟨_, a, ha⟩, _, c, hc⟩
  cases recipe with
  | map f =>
    obtain ⟨src, hsrc, he⟩ := bind_eq_ok_iff.mp he
    obtain ⟨dst, hdst, -⟩ := bind_eq_ok_iff.mp he
    exact ⟨⟨_, src, hsrc⟩, _, dst, hdst⟩
  | mapScalar f =>
    obtain ⟨_, -, he⟩ := bind_eq_ok_iff.mp he
    obtain ⟨src, hsrc, he⟩ := bind_eq_ok_iff.mp he
    obtain ⟨dst, hdst, -⟩ := bind_eq_ok_iff.mp he
    exact ⟨⟨_, src, hsrc⟩, _, dst, hdst⟩
  | zip f =>
    obtain ⟨lhs, hlhs, he⟩ := bind_eq_ok_iff.mp he
    obtain ⟨_, -, he⟩ := bind_eq_ok_iff.mp he
    obtain ⟨dst, hdst, -⟩ := bind_eq_ok_iff.mp he
    exact ⟨⟨_, lhs, hlhs⟩, _, dst, hdst⟩
  | softmax F =>
    obtain ⟨_, -, he⟩ := bind_eq_ok_iff.mp he
    obtain ⟨src, hsrc, he⟩ := bind_eq_ok_iff.mp he
    obtain ⟨dst, hdst, -⟩ := bind_eq_ok_iff.mp he
    exact ⟨⟨_, src, hsrc⟩, _, dst, hdst⟩
  | sumRows =>
    obtain ⟨_, -, he⟩ := bind_eq_ok_iff.mp he
    obtain ⟨m, hm, he⟩ := bind_eq_ok_iff.mp he
    obtain ⟨dst, hdst, -⟩ := bind_eq_ok_iff.mp he
    exact ⟨⟨_, m, hm⟩, _, dst, hdst⟩
  | sumColumns =>
    obtain ⟨_, -, he⟩ := bind_eq_ok_iff.mp he
    obtain ⟨m, hm, he⟩ := bind_eq_ok_iff.mp he
    obtain ⟨dst, hdst, -⟩ := bind_eq_ok_iff.mp he
    exact ⟨⟨_, m, hm⟩, _, dst, hdst⟩
  | product => exact hproduct he
  | wideProduct => exact hproduct he
  | _ => exact h.elim

/-- How much is written does not depend on where it is written. -/
theorem count_outputView_onto (recipe : Recipe d) (inv : Invocation) (device : DeviceId)
    (b : BlockId) :
    (recipe.outputView { inv with device := device, output := b }).count =
      (recipe.outputView inv).count := by
  cases recipe <;> rfl

end Recipe

end DeviceTensor
