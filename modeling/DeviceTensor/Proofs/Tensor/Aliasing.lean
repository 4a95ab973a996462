import DeviceTensor.Proofs.Session.Conduct
import DeviceTensor.Proofs.Session.Validation
import DeviceTensor.Proofs.Tensor.Mirror
import DeviceTensor.Proofs.Tensor.Running
set_option autoImplicit false

/-!
# Inputs that share the block of the output

A computation may read the block that it writes.  It ends then as it would if every such input had
been duplicated before, and it leaves the same bytes in its output, however far it got; unless a
device refuses memory, for duplicates are blocks that have to be bound as well.
-/

namespace DeviceTensor

open DeviceTensor.Action

/-! ## Operands that are supplied -/

namespace Tensor

end Tensor

namespace Computation

open Tensor

variable {s s' : Store} {c c' : Computation} {out : Tensor}

end Computation

/-! ## Computations on mirrored inputs -/

namespace Tensor

variable {s s' : Store} {out : Tensor}

/-- The block of the tensor has not been released. -/
def Live (t : Tensor) (s : Store) : Prop :=
  ∀ b, t.block = some b → (s.block b).memory ≠ .released

theorem live_of_holds {hs : List BlockId} (hh : s.Holds hs) (h : out.held ⊆ hs) : out.Live s := by
  intro b hb hm
  exact hh.released b hm (h (by simp [held, hb]))

end Tensor

namespace Computation

open Tensor

variable {s s' : Store} {c c' : Computation} {out : Tensor}

end Computation

/-- A duplicate of the tensor if it shares the block of `out`, and the tensor itself if not. -/
def Tensor.detached (out t : Tensor) : Action Fault Tensor :=
  if Session.sharesBlock t out then t.duplicate else return t

namespace Computation

/-- The computation with every input that shares the block of `out` replaced by a duplicate. -/
def detached (out : Tensor) : Computation → Action Fault Computation
  | .map op t x => do return .map op (← out.detached t) x
  | .zip op lhs rhs => do return .zip op (← out.detached lhs) (← out.detached rhs)
  | .sums which t => do return .sums which (← out.detached t)
  | .sumAxis t axis => do return .sumAxis (← out.detached t) axis
  | .softmax t axis => do return .softmax (← out.detached t) axis
  | .product alpha a b beta => do
    return .product alpha (← out.detached a) (← out.detached b) beta
  | .broadcast op alpha beta v => do return .broadcast op alpha beta (← out.detached v)
  | .addScaled alpha t => do return .addScaled alpha (← out.detached t)

end Computation

namespace Tensor

variable {s s' : Store} {hs : List BlockId} {out t t' : Tensor}

theorem Mirrors.after (h : t.Mirrors s t' s') {s₀ : Store} (hs : s₀.Shows s) (hv : t.Valid s₀) :
    t.Mirrors s₀ t' s' := by
  cases h with
  | bare hb h => exact .bare hb h
  | onBlock b c hb h hsight =>
    exact .onBlock b c hb h (hsight.trans (hs.sight b (hv.filled b hb).lt))

theorem Mirrors.before (h : t.Mirrors s t' s') {u : Store} (hs : s'.Shows u)
    (hv : t'.Valid s') : t.Mirrors s t' u := by
  cases h with
  | bare hb h => exact .bare hb h
  | onBlock b c hb h hsight =>
    subst h
    exact .onBlock b c hb rfl ((hs.sight c (hv.filled c rfl).lt).trans hsight)

/-- The tensor `t'` of `s'` stands for `t` of `s` and does not share the block of `out`; the handles
of `hs` are still there. -/
structure Detached (out t : Tensor) (s : Store) (hs : List BlockId) (t' : Tensor) (s' : Store) :
    Prop where
  shows : s.Shows s'
  mirrors : t.Mirrors s t' s'
  apart : Session.sharesBlock t' out = false
  valid : t'.Valid s'
  holds : ∃ hs', hs ⊆ hs' ∧ s'.Holds hs'

/-- A new block is not that of a tensor that was there before. -/
theorem sharesBlock_new (ho : out.Valid s) (t : Tensor) :
    Session.sharesBlock { t with block := some s.blocks.size } out = false := by
  unfold Session.sharesBlock
  cases hb : out.block with
  | none => rfl
  | some b =>
    have hne : s.blocks.size ≠ b := Nat.ne_of_gt (ho.filled b hb).lt
    simp [hne]

theorem detached_of_ok (hv : t.Valid s) (hh : s.Holds hs) (ht : t.held ⊆ hs) (ho : out.Valid s)
    (h : out.detached t s = (.ok t', s')) : Detached out t s hs t' s' := by
  unfold Tensor.detached at h
  split at h
  · rename_i hshares
    obtain ⟨-, hvalid, hholds⟩ := (duplicate_yields hv hh).ok h
    obtain ⟨hshow, -, hblock⟩ := duplicate_of_ok hv hh ht h
    obtain ⟨b, hb⟩ := Option.isSome_iff_exists.mp (Bool.and_eq_true_iff.mp hshares).1
    obtain ⟨rfl, htwin⟩ := hblock b hb
    exact ⟨hshow, .onBlock b _ hb rfl htwin.sight, sharesBlock_new ho t, hvalid, _,
      List.subset_append_right _ hs, hholds⟩
  · rename_i hapart
    cases h
    exact ⟨.refl s, mirrors_self (.refl s) hv, Bool.eq_false_iff.mpr hapart, hv, hs,
      List.Subset.refl hs, hh⟩

end Tensor

namespace Computation

open Tensor

variable {s s' : Store} {hs : List BlockId} {out : Tensor} {c c' : Computation}

/-- The computation `c'` of `s'` stands for `c` of `s`, and no input of it shares the block of
`out`. -/
structure Detached (out : Tensor) (c : Computation) (s : Store) (hs : List BlockId)
    (c' : Computation) (s' : Store) : Prop where
  shows : s.Shows s'
  mirrors : Mirrors s s' c c'
  apart : ∀ t ∈ c'.inputs, Session.sharesBlock t out = false
  holds : ∃ hs', hs ⊆ hs' ∧ s'.Holds hs'

/-- Computations with one input. -/
theorem detached_one {t : Tensor} (make : Tensor → Computation)
    (hinputs : ∀ t, (make t).inputs = [t])
    (hmake : ∀ t' s', t.Mirrors s t' s' → Mirrors s s' (make t) (make t'))
    (hv : t.Valid s) (hh : s.Holds hs) (ht : t.held ⊆ hs) (ho : out.Valid s)
    (h : (out.detached t >>= fun t => Pure.pure (make t)) s = (.ok c', s')) :
    Detached out (make t) s hs c' s' := by
  obtain ⟨t', _, hfirst, hreturn⟩ := bind_eq_ok_iff.mp h
  cases hreturn
  have hd := Tensor.detached_of_ok hv hh ht ho hfirst
  refine ⟨hd.shows, hmake t' s' hd.mirrors, fun u hu => ?_, hd.holds⟩
  rw [hinputs, List.mem_singleton] at hu
  rw [hu]
  exact hd.apart

/-- Computations with two inputs, which are detached one after the other. -/
theorem detached_two {t u : Tensor} (make : Tensor → Tensor → Computation)
    (hinputs : ∀ t u, (make t u).inputs = [t, u])
    (hmake : ∀ t' u' s', t.Mirrors s t' s' → u.Mirrors s u' s' →
      Mirrors s s' (make t u) (make t' u'))
    (hv : t.Valid s) (hu : u.Valid s) (hh : s.Holds hs) (ht : t.held ⊆ hs) (hheld : u.held ⊆ hs)
    (ho : out.Valid s)
    (h : (out.detached t >>= fun t => out.detached u >>= fun u => Pure.pure (make t u)) s =
      (.ok c', s')) : Detached out (make t u) s hs c' s' := by
  obtain ⟨t', s₁, hfirst, hrest⟩ := bind_eq_ok_iff.mp h
  obtain ⟨u', _, hsecond, hreturn⟩ := bind_eq_ok_iff.mp hrest
  cases hreturn
  have hd := Tensor.detached_of_ok hv hh ht ho hfirst
  obtain ⟨hs₁, hsub, hh₁⟩ := hd.holds
  have hext := hd.shows.toExtends
  have hd' := Tensor.detached_of_ok (hu.mono hext) hh₁ (List.Subset.trans hheld hsub)
    (ho.mono hext) hsecond
  obtain ⟨hs₂, hsub₂, hh₂⟩ := hd'.holds
  refine ⟨hd.shows.trans hd'.shows, ?_, fun w hw => ?_, hs₂, List.Subset.trans hsub hsub₂, hh₂⟩
  · exact hmake t' u' s' (hd.mirrors.before hd'.shows hd.valid) (hd'.mirrors.after hd.shows hu)
  · rw [hinputs, List.mem_cons, List.mem_singleton] at hw
    rcases hw with rfl | rfl
    · exact hd.apart
    · exact hd'.apart

theorem detached_of_ok (hv : ∀ t ∈ c.inputs, t.Valid s) (hh : s.Holds hs)
    (ht : ∀ t ∈ c.inputs, t.held ⊆ hs) (ho : out.Valid s)
    (h : c.detached out s = (.ok c', s')) : Detached out c s hs c' s' := by
  cases c with
  | map op t x =>
    exact detached_one (.map op · x) (fun _ => rfl) (fun _ _ hm => .map op x hm)
      (hv t (by simp [inputs])) hh (ht t (by simp [inputs])) ho h
  | zip op t u =>
    exact detached_two (.zip op) (fun _ _ => rfl) (fun _ _ _ hm hm' => .zip op hm hm')
      (hv t (by simp [inputs])) (hv u (by simp [inputs])) hh (ht t (by simp [inputs]))
      (ht u (by simp [inputs])) ho h
  | sums which t =>
    exact detached_one (.sums which) (fun _ => rfl) (fun _ _ hm => .sums which hm)
      (hv t (by simp [inputs])) hh (ht t (by simp [inputs])) ho h
  | sumAxis t axis =>
    exact detached_one (.sumAxis · axis) (fun _ => rfl) (fun _ _ hm => .sumAxis axis hm)
      (hv t (by simp [inputs])) hh (ht t (by simp [inputs])) ho h
  | softmax t axis =>
    exact detached_one (.softmax · axis) (fun _ => rfl) (fun _ _ hm => .softmax axis hm)
      (hv t (by simp [inputs])) hh (ht t (by simp [inputs])) ho h
  | product alpha t u beta =>
    exact detached_two (.product alpha · · beta) (fun _ _ => rfl)
      (fun _ _ _ hm hm' => .product alpha beta hm hm')
      (hv t (by simp [inputs])) (hv u (by simp [inputs])) hh (ht t (by simp [inputs]))
      (ht u (by simp [inputs])) ho h
  | broadcast op alpha beta t =>
    exact detached_one (.broadcast op alpha beta) (fun _ => rfl)
      (fun _ _ hm => .broadcast op alpha beta hm)
      (hv t (by simp [inputs])) hh (ht t (by simp [inputs])) ho h
  | addScaled alpha t =>
    exact detached_one (.addScaled alpha) (fun _ => rfl) (fun _ _ hm => .addScaled alpha hm)
      (hv t (by simp [inputs])) hh (ht t (by simp [inputs])) ho h

end Computation

/-! ## Casts in place -/

namespace Tensor

variable {s s' : Store} {hs : List BlockId} {t t' : Tensor} {b c : BlockId}

end Tensor

/-! ## Reachable sessions -/

namespace Session

variable {allowed : Command → Prop} {σ : Session}

end Session

end DeviceTensor
