import Mathlib.Data.List.Basic
import DeviceTensor.Kernel.Softmax
import DeviceTensor.Proofs.Action
set_option autoImplicit false

/-!
# Kernels that run to their end

`Outcome.done` is what a kernel leaves if nothing halts it, so that a kernel is a computation like
any other and can be followed step by step.  A sweep whose cells do not look at each other may visit
them in any order: `Outcome.done_sweep_perm`.
-/

namespace DeviceTensor

open DeviceTensor.Except

/-! ## Steps of kernels -/

/-- Lifting a computation into a kernel. -/
theorem Except.Follows.ofTrap {α α' : Type} {R : α → α' → Prop} {x : Except Trap α}
    {y : Except Trap α'} (h : Follows R x y) : Follows R (Halt.ofTrap x) (Halt.ofTrap y) := by
  intro a ha
  cases x with
  | error t => cases ha
  | ok b =>
    cases ha
    obtain ⟨a', rfl, hr⟩ := h _ rfl
    exact ⟨a', rfl, hr⟩

theorem Halt.ofTrap_eq_ok_iff {α : Type} {x : Except Trap α} {a : α} :
    Halt.ofTrap x = .ok a ↔ x = .ok a := by
  cases x with
  | ok b => exact ⟨fun h => congrArg _ (Except.ok.inj h), fun h => congrArg _ (Except.ok.inj h)⟩
  | error t => exact ⟨nofun, nofun⟩

/-- A store, and another one that is inside if the first one is. -/
theorem Except.Follows.store {α α' : Type} {R : Array α → Array α' → Prop} {xs : Array α}
    {ys : Array α'} {k l : Nat} {x : α} {y : α'}
    (h : k < xs.size → l < ys.size ∧ R (xs.setIfInBounds k x) (ys.setIfInBounds l y)) :
    Follows R (Buffer.store xs k x) (Buffer.store ys l y) := by
  intro xs' hxs
  obtain ⟨hk, rfl⟩ := Buffer.store_eq_ok_iff.mp hxs
  obtain ⟨hl, hr⟩ := h hk
  exact ⟨_, Buffer.store_of_lt hl y, hr⟩

/-- A step of a kernel that is lifted into it. -/
theorem Except.Follows.step {α α' β β' : Type} {R : α → α' → Prop} {S : β → β' → Prop}
    {x : Except Trap α} {y : Except Trap α'} {f : α → Except Halt β} {g : α' → Except Halt β'}
    (h : Follows R x y) (hf : ∀ a a', R a a' → Follows S (f a) (g a')) :
    Follows S (Halt.ofTrap x >>= f) (Halt.ofTrap y >>= g) :=
  h.ofTrap.bind hf

theorem Kernel.eq_of_requireEqual {left right : Nat} {u : Unit}
    (h : requireEqual left right = .ok u) : left = right := by
  unfold requireEqual at h
  split at h
  · assumption
  · cases h

namespace Outcome

variable {ι α β : Type}

/-- What the kernel leaves if it runs to its end. -/
def done (o : Outcome α) : Except Halt (Array α) :=
  match o with
  | (dst, .ok ()) => .ok dst
  | (_, .error h) => .error h

theorem done_eq_ok_iff {o : Outcome α} {dst : Array α} : o.done = .ok dst ↔ o = (dst, .ok ()) := by
  obtain ⟨dst', r⟩ := o
  cases r with
  | ok u =>
    constructor
    · intro h
      cases h
      rfl
    · intro h
      cases h
      rfl
  | error e =>
    constructor
    · intro h
      cases h
    · intro h
      cases h

theorem done_checked (check : Except Halt Unit) (dst : Array α) (run : Array α → Outcome α) :
    (checked check dst run).done = check >>= fun _ => (run dst).done := by
  cases check <;> rfl

theorem done_andThen (o : Outcome α) (next : Array α → Outcome α) :
    (Kernel.andThen o next).done = o.done >>= fun dst => (next dst).done := by
  obtain ⟨dst, r⟩ := o
  cases r <;> rfl

theorem done_withValue (x : Except Trap β) (dst : Array α) (next : β → Array α → Outcome α) :
    (Kernel.withValue x dst next).done = Halt.ofTrap x >>= fun b => (next b dst).done := by
  cases x <;> rfl

variable {place place' : ι → Array α → Except Halt (Nat × α)} {cs ds : List ι}

theorem visit_eq_ok_iff {c : ι} {dst dst' : Array α} :
    visit place c dst = .ok dst' ↔
      ∃ k x, place c dst = .ok (k, x) ∧ k < dst.size ∧ dst' = dst.setIfInBounds k x := by
  refine bind_eq_ok_iff.trans ⟨?_, ?_⟩
  · rintro ⟨⟨k, x⟩, hp, hs⟩
    exact ⟨k, x, hp, Buffer.store_eq_ok_iff.mp (Halt.ofTrap_eq_ok_iff.mp hs)⟩
  · rintro ⟨k, x, hp, hs⟩
    exact ⟨(k, x), hp, Halt.ofTrap_eq_ok_iff.mpr (Buffer.store_eq_ok_iff.mpr hs)⟩

theorem done_sweep_cons (place : ι → Array α → Except Halt (Nat × α)) (c : ι) (cs : List ι)
    (dst : Array α) :
    (sweep place (c :: cs) dst).done =
      visit place c dst >>= fun dst' => (sweep place cs dst').done := by
  cases h : visit place c dst with
  | ok p =>
    simp only [sweep, h]
    rfl
  | error e =>
    simp only [sweep, h]
    rfl

/-- A sweep over places that depend on cells is a sweep over the cells. -/
theorem sweep_map {κ : Type} (place : ι → Array α → Except Halt (Nat × α)) (f : κ → ι)
    (cs : List κ) (dst : Array α) :
    sweep place (cs.map f) dst = sweep (fun c => place (f c)) cs dst := by
  induction cs generalizing dst with
  | nil => rfl
  | cons c cs ih =>
    have hvisit : visit place (f c) dst = visit (fun c => place (f c)) c dst := rfl
    rw [List.map_cons]
    unfold sweep
    rw [hvisit]
    cases visit (fun c => place (f c)) c dst with
    | ok dst' => exact ih dst'
    | error h => rfl

/-- Sweeps whose steps preserve a relation of their destinations. -/
theorem done_sweep_follows {R : Array α → Array α → Prop}
    (hstep : ∀ c ∈ cs, ∀ dst dst', R dst dst' →
      Follows (fun p p' => p.1 < dst.size → p'.1 < dst'.size ∧
          R (dst.setIfInBounds p.1 p.2) (dst'.setIfInBounds p'.1 p'.2))
        (place c dst) (place' c dst'))
    {dst dst' : Array α} (h : R dst dst') :
    Follows R (sweep place cs dst).done (sweep place' cs dst').done := by
  induction cs generalizing dst dst' with
  | nil => exact .ok h
  | cons c cs ih =>
    rw [done_sweep_cons, done_sweep_cons]
    refine .bind ?_ fun _ _ hnext => ih (fun c' hc' => hstep c' (List.mem_cons_of_mem c hc')) hnext
    exact .bind (hstep c List.mem_cons_self dst dst' h) fun p p' hp => .ofTrap (.store hp)

/-! ## Orders of visit -/

/-- The step stores nothing elsewhere than at `k`. -/
def StoresAt (k : Nat) (x : Except Halt (Nat × α)) : Prop := ∀ p, x = .ok p → p.1 = k

theorem StoresAt.pure (k : Nat) (x : α) : StoresAt k (Pure.pure (k, x)) := by
  intro p hp
  cases hp
  rfl

theorem StoresAt.bind {k : Nat} {x : Except Halt β} {f : β → Except Halt (Nat × α)}
    (hf : ∀ b, StoresAt k (f b)) : StoresAt k (x >>= f) := by
  intro p hp
  obtain ⟨b, -, hp⟩ := bind_eq_ok_iff.mp hp
  exact hf b p hp

/-- Every cell writes a place of its own, and looks at no other place of the destination. -/
structure Separate (place : Nat → Array α → Except Halt (Nat × α)) : Prop where
  own : ∀ k dst, StoresAt k (place k dst)
  alone : ∀ k dst l x, l ≠ k → place k (dst.setIfInBounds l x) = place k dst

theorem done_sweep_swap {place : Nat → Array α → Except Halt (Nat × α)} (h : Separate place)
    (k l : Nat) (cs : List Nat) (dst : Array α) :
    Follows (· = ·) (sweep place (k :: l :: cs) dst).done
      (sweep place (l :: k :: cs) dst).done := by
  by_cases hkl : k = l
  · subst hkl
    exact .of_eq rfl
  · simp only [done_sweep_cons]
    intro r hsweep
    obtain ⟨dst₁, hfirst, hrest⟩ := bind_eq_ok_iff.mp hsweep
    obtain ⟨dst₂, hsecond, hr⟩ := bind_eq_ok_iff.mp hrest
    obtain ⟨k', x, hx, hk, rfl⟩ := visit_eq_ok_iff.mp hfirst
    obtain ⟨l', y, hy, hl, rfl⟩ := visit_eq_ok_iff.mp hsecond
    obtain rfl : k' = k := h.own k dst _ hx
    rw [h.alone l dst k' x hkl] at hy
    rw [Array.size_setIfInBounds] at hl
    obtain rfl : l' = l := h.own l dst _ hy
    have hx' : place k' (dst.setIfInBounds l' y) = .ok (k', x) := by
      rw [h.alone k' dst l' y (Ne.symm hkl), hx]
    have hfirst' : visit place l' dst = .ok (dst.setIfInBounds l' y) :=
      visit_eq_ok_iff.mpr ⟨l', y, hy, hl, rfl⟩
    have hsecond' : visit place k' (dst.setIfInBounds l' y) =
        .ok ((dst.setIfInBounds l' y).setIfInBounds k' x) :=
      visit_eq_ok_iff.mpr ⟨k', x, hx', by rwa [Array.size_setIfInBounds], rfl⟩
    refine ⟨r, bind_eq_ok_iff.mpr ⟨_, hfirst', bind_eq_ok_iff.mpr ⟨_, hsecond', ?_⟩⟩, rfl⟩
    rw [Array.setIfInBounds_comm _ _ (Ne.symm hkl)]
    exact hr

/-- The order of visit does not show in what a sweep leaves. -/
theorem done_sweep_perm {place : Nat → Array α → Except Halt (Nat × α)} (h : Separate place)
    {ks ls : List Nat} (hperm : ks.Perm ls) (dst : Array α) :
    Follows (· = ·) (sweep place ks dst).done (sweep place ls dst).done := by
  induction hperm generalizing dst with
  | nil => exact .of_eq rfl
  | cons k hperm ih =>
    rw [done_sweep_cons, done_sweep_cons]
    refine .bind (.of_eq rfl) fun p p' hp => ?_
    rw [hp]
    exact ih _
  | swap k l ks => exact done_sweep_swap h l k ks dst
  | trans h₁ h₂ ih₁ ih₂ =>
    intro r hr
    obtain ⟨_, hm, rfl⟩ := ih₁ dst r hr
    exact ih₂ dst _ hm

end Outcome

end DeviceTensor
