import DeviceTensor.Proofs.Routine.Failure
import DeviceTensor.Proofs.Tensor.Work
set_option autoImplicit false

/-!
# Confined actions

An action is confined to a block if it changes the bytes of no other block, however it ends, and
changes less the earlier it fails: nothing that shows if it fails late, and nothing at all if its
operands are denied.  This is so of views, writes, copies and launches.
-/

namespace DeviceTensor

open DeviceTensor.Action

/-! ## How far a failing action has gone -/

namespace Store

/-- How far an action that failed with `f` has gone.  It may have changed the bytes of `dst`; if `f`
is late nothing shows, and if `f` is one that `denies` names nothing has happened. -/
structure Aborts (denies : Fault → Prop) (dst : Option BlockId) (f : Fault) (s s' : Store) :
    Prop where
  leaves : s.Leaves dst s'
  late : s.registry.OnHost → f.Late → s.Shows s'
  denied : denies f → s.Spares s'

namespace Aborts

variable {denies : Fault → Prop} {dst : Option BlockId} {f : Fault} {s t u : Store}

theorem of_spares (h : s.Spares t) : s.Aborts denies dst f t :=
  ⟨.of_spares h, fun _ _ => h.shows, fun _ => h⟩

theorem refl (s : Store) : s.Aborts denies dst f s := of_spares (.refl s)

theorem of_binds (h : s.Binds t) (hf : denies f → t = s) : s.Aborts denies dst f t where
  leaves := .of_binds h
  late _ _ := shows_of_binds h
  denied hd := by
    rw [hf hd]
    exact .refl s

theorem mono {denies' : Fault → Prop} (h : s.Aborts denies dst f t) (hd : denies' f → denies f) :
    s.Aborts denies' dst f t :=
  ⟨h.leaves, h.late, fun hf => h.denied (hd hf)⟩

/-- The action failed after steps that show nothing. -/
theorem after (hs : s.Shows t) (hl : s.Leaves dst t) (hd : denies f → s.Spares t)
    (h : t.Aborts denies dst f u) : s.Aborts denies dst f u where
  leaves := hl.trans h.leaves
  late ho hf := hs.trans (h.late (hs.registry.symm ▸ ho) hf)
  denied hf := (hd hf).trans (h.denied hf)

/-- A new block that the action failed to write is let go of. -/
theorem discard {b : BlockId} (hs : s.Spares t) (hb : s.blocks.size ≤ b)
    (h : t.Aborts denies (some b) f u) : s.Aborts denies dst f (u.release b) where
  leaves := ((Leaves.of_spares hs).fresh h.leaves hb).trans (.release u b)
  late ho hf := (hs.shows.trans (h.late (hs.registry.symm ▸ ho) hf)).release hb
  denied hf := (hs.trans (h.denied hf)).release hb

end Aborts

end Store

namespace Action

variable {α β : Type} {denies : Fault → Prop} {dst : Option BlockId} {s : Store}

/-- The action changes the bytes of `dst` at most, and less if it fails early. -/
def Confined (denies : Fault → Prop) (dst : Option BlockId) (x : Action Fault α) (s : Store) :
    Prop :=
  x.Ends s (fun _ s' => s.Leaves dst s') (fun f s' => s.Aborts denies dst f s')

namespace Confined

/-- An action that leaves the store as it is. -/
theorem still {x : Action Fault α} (h : (x s).2 = s) : x.Confined denies dst s := by
  unfold Confined Ends
  cases hx : x s with
  | mk r s' =>
    rw [hx] at h
    obtain rfl : s' = s := h
    cases r with
    | ok a => exact .refl _
    | error f => exact .refl _

theorem pure (a : α) : Confined denies dst (Pure.pure a) s := .still rfl

theorem fail (f : Fault) : Confined denies dst (Action.fail f : Action Fault α) s := .still rfl

section Looks

variable {next : β → Action Fault α}

theorem inspect {f : Store → β} (h : (next (f s)).Confined denies dst s) :
    (Action.inspect f >>= next).Confined denies dst s := h

theorem examine {f : Store → Except Fault β}
    (h : ∀ b, f s = .ok b → (next b).Confined denies dst s) :
    (Action.examine f >>= next).Confined denies dst s := by
  refine ends_bind.mpr (ends_examine.mpr ⟨fun b hb => h b hb, fun e _ => .refl s⟩)

theorem ofExcept {x : Except Fault β} (h : ∀ b, x = .ok b → (next b).Confined denies dst s) :
    (Action.ofExcept x >>= next).Confined denies dst s := by
  refine ends_bind.mpr (ends_ofExcept.mpr ⟨fun b hb => h b hb, fun e _ => .refl s⟩)

end Looks

theorem ite {c : Prop} [Decidable c] {x y : Action Fault α} (hx : c → x.Confined denies dst s)
    (hy : ¬c → y.Confined denies dst s) : (if c then x else y).Confined denies dst s := by
  by_cases h : c
  · rw [if_pos h]
    exact hx h
  · rw [if_neg h]
    exact hy h

/-- An action that shows nothing, however it ends. -/
theorem of_shows {x : Action Fault α} (hs : s.registry.OnHost → x.Within s.StillShows)
    (h : x.Ends s (fun _ s' => s.Leaves dst s')
      fun f s' => s.Leaves dst s' ∧ (denies f → s.Spares s')) : x.Confined denies dst s := by
  unfold Confined
  unfold Ends at h ⊢
  cases hx : x s with
  | mk r s' =>
    rw [hx] at h
    cases r with
    | ok a => exact h
    | error f =>
      refine ⟨h.1, fun ho _ => ?_, h.2⟩
      have hshows := hs ho s (.refl s)
      rwa [hx] at hshows

end Confined

end Action

/-! ## Views, writes and copies -/

namespace Block

variable {s : Store}

/-- A view that fails has only bound memory, and nothing at all if it was denied. -/
theorem view_ends (b : BlockId) (d : ElemType) (count : Nat) (s : Store) :
    (view b d count).Ends s (fun _ s' => s.Binds s')
      (fun f s' => s.Binds s' ∧ (f.Denies → s' = s) ∧
        (count * d.width < Size.limit → ¬f.Denies)) := by
  unfold view
  rw [ends_bind, ends_examine]
  refine ⟨fun _ _ => ?_, fun f hf => ⟨.refl s, fun _ => rfl, fun hlt => ?_⟩⟩
  · rw [ends_bind]
    refine (bindMemory_ends b s).mono (fun _ _ h => h) fun f s' ⟨hs', hf⟩ => ?_
    have hnot := Fault.not_denies_of_refuses hf
    exact ⟨hs', fun hd => absurd hd hnot, fun _ => hnot⟩
  · unfold checkView at hf
    rw [Size.mul_of_lt hlt] at hf
    dsimp only at hf
    split at hf
    · cases hf
      exact False.elim
    · split at hf
      · cases hf
      · cases hf
        exact False.elim

theorem bindMemory_confined (b : BlockId) (s : Store) :
    (bindMemory b).Confined Fault.Denies none s := by
  refine (bindMemory_ends b s).mono (fun _ _ hs => .of_binds hs) fun f _ ⟨hs, hf⟩ => ?_
  exact .of_binds hs fun hd => absurd hd (Fault.not_denies_of_refuses hf)

theorem view_confined (b : BlockId) (d : ElemType) (count : Nat) (s : Store) :
    (view b d count).Confined Fault.Denies none s := by
  exact (view_ends b d count s).mono (fun _ _ hs => .of_binds hs)
    fun _ _ ⟨hs, hd, _⟩ => .of_binds hs hd

/-- A write that fails has only bound memory, and nothing at all if it was denied. -/
theorem write_ends {d : ElemType} (b : BlockId) (xs : Array (Elem d)) (s : Store) :
    (write b xs).Ends s (fun _ s' => ∃ t f, s.Binds t ∧ s' = modifyBytes b f t)
      (fun f s' => s.Binds s' ∧ (f.Denies → s' = s) ∧
        (xs.size * d.width < Size.limit → ¬f.Denies)) := by
  have hview := view_ends b d xs.size s
  unfold view at hview
  unfold write
  rw [ends_bind] at hview ⊢
  refine Ends.mono hview (fun _ s₁ h => ?_) fun _ _ h => h
  rw [ends_bind] at h ⊢
  exact Ends.mono h (fun _ t ht => ⟨t, _, ht, rfl⟩) fun _ _ h => h

theorem write_confined {d : ElemType} (b : BlockId) (xs : Array (Elem d)) (s : Store) :
    (write b xs).Confined Fault.Denies (some b) s := by
  refine Ends.mono (write_ends b xs s) ?_ fun _ _ ⟨hs, hd, _⟩ => .of_binds hs hd
  rintro _ _ ⟨t, f, ht, rfl⟩
  exact (Store.Leaves.of_binds ht).trans (.modifyBytes t b f)

/-- Bytes are moved, or not, but nothing is denied any more. -/
theorem moveBytes_ends (executor : DeviceId) (direction : Direction) (dst src : Range) (n : Nat)
    (s : Store) :
    (moveBytes executor direction dst src n).Ends s (fun _ s' => s.Leaves (some dst.block) s')
      (fun f s' => s.Aborts Fault.Denies (some dst.block) f s' ∧ ¬f.Denies) := by
  have hasked (t : Store) (r : Request) :
      t.Leaves (some dst.block) (t.modifyDevice executor (·.after r)) := .modifyDevice t executor _
  have hspliced (t : Store) :
      t.Leaves (some dst.block) (splice dst src n (t.modifyDevice executor Device.tallied)) :=
    (Store.Leaves.modifyDevice t executor _).trans (.modifyBytes _ dst.block _)
  have hmoved (r r' : Request) := (hasked s r).trans ((hspliced _).trans (hasked _ r'))
  -- a copy that failed is neither late nor denied
  unfold moveBytes
  rw [ends_bind]
  refine ends_request (fun _ => ?_) fun e _ => ⟨⟨hasked s _, nofun, nofun⟩, nofun⟩
  rw [ends_bind, ends_change]
  exact ends_request (fun _ => hmoved _ _) fun e _ => ⟨⟨hmoved _ _, nofun, nofun⟩, nofun⟩

/-- Once its ranges have been checked, a copy denies nothing. -/
theorem copy_ends {dst src : Range} {n : Nat} {s : Store} (h : checkCopy dst src n s = .ok ()) :
    (copy dst src n).Ends s (fun _ s' => s.Leaves (some dst.block) s')
      (fun f s' => s.Aborts Fault.Denies (some dst.block) f s' ∧ ¬f.Denies) := by
  unfold copy
  rw [ends_bind, ends_examine]
  refine ⟨fun _ _ => ?_, fun e he => ?_⟩
  · split
    · exact .refl s
    · rw [ends_bind, ends_inspect, ends_bind, ends_inspect, ends_bind]
      refine (bindMemory_ends dst.block s).mono (fun _ s₁ h₁ => ?_) ?_
      · rw [ends_bind]
        refine (bindMemory_ends src.block s₁).mono (fun _ s₂ h₂ => ?_) ?_
        · have hb := h₁.trans h₂
          refine (moveBytes_ends _ _ dst src n s₂).mono (fun _ _ hl => ?_) ?_
          · exact (Store.Leaves.of_binds hb).trans hl
          · rintro f u ⟨ha, hf⟩
            refine ⟨ha.after (Store.shows_of_binds hb) (.of_binds hb) fun hd => ?_, hf⟩
            exact absurd hd hf
        · rintro f u ⟨h₂, hf⟩
          have hnot := Fault.not_denies_of_refuses hf
          exact ⟨.of_binds (h₁.trans h₂) fun hd => absurd hd hnot, hnot⟩
      · rintro f u ⟨h₁, hf⟩
        have hnot := Fault.not_denies_of_refuses hf
        exact ⟨.of_binds h₁ fun hd => absurd hd hnot, hnot⟩
  · rw [h] at he
    cases he

theorem copy_confined (dst src : Range) (n : Nat) (s : Store) :
    (copy dst src n).Confined Fault.Denies (some dst.block) s := by
  cases h : checkCopy dst src n s with
  | ok u => exact (copy_ends h).mono (fun _ _ hl => hl) fun _ _ ha => ha.1
  | error e =>
    refine .examine fun u hu => ?_
    rw [h] at hu
    cases hu

end Block

/-! ## Launches -/

/-- A launch changes at most the bytes of its output.  Without a routine it changes nothing, and it
denies nothing else. -/
theorem launch_ends (op : Operation) (dtype : ElemType) (inv : Invocation) (s : Store) :
    (launch op dtype inv).Ends s (fun _ s' => s.Leaves (some inv.output) s')
      (fun f s' => s.Aborts Fault.Rejects (some inv.output) f s' ∧
        (f.Rejects → f = .launch (.missingRoutine (.onDevice dtype op inv.device s)))) := by
  unfold Ends
  rw [launch_eq]
  unfold Registry.lookup
  cases hget : s.registry.get? (.onDevice dtype op inv.device s) with
  | none => exact ⟨.refl s, fun _ => rfl⟩
  | some routine =>
    dsimp only
    have hrun := routine.run_ends inv s
    unfold Ends at hrun
    unfold Action.mapError
    cases hx : routine.run inv s with
    | mk r s' =>
      rw [hx] at hrun
      cases r with
      | ok u => exact hrun
      | error f =>
        obtain ⟨hleaves, hlate, hf⟩ := hrun
        have haccepts : ¬(f.toFault (.onDevice dtype op inv.device s)).Rejects :=
          fun h => hf ((RoutineFailure.rejects_toFault _ f).mp h)
        refine ⟨⟨hleaves, fun ho hl => ?_, fun h => absurd h haccepts⟩, fun h => absurd h haccepts⟩
        exact hlate _ (ho _ routine hget) ((RoutineFailure.late_toFault _ f).mp hl)

theorem launch_confined (op : Operation) (dtype : ElemType) (inv : Invocation) (s : Store) :
    (launch op dtype inv).Confined Fault.Rejects (some inv.output) s :=
  (launch_ends op dtype inv s).mono (fun _ _ hl => hl) fun _ _ ha => ha.1

/-! ## Actions that show nothing -/

/-- What a device was asked is not shown. -/
theorem Action.request_shows {s₀ : Store} (d : DeviceId) (r : Request)
    (fault : DeviceFailure → Fault) : (Action.request d r fault).Within s₀.StillShows :=
  fun s hs => hs.trans (s.shows_modifyDevice d (fun _ => rfl) fun _ => rfl)

namespace Block

variable {s₀ : Store}

theorem bindMemory_shows (b : BlockId) : (bindMemory b).Within s₀.StillShows :=
  fun s => Store.stillShows_of_binds (bindMemory_binds b s)

theorem view_shows (b : BlockId) (d : ElemType) (count : Nat) :
    (view b d count).Within s₀.StillShows :=
  fun s => Store.stillShows_of_binds ((view_reads (List.mem_singleton_self b) d count).binds s)

/-- A copy into a block that was not there before. -/
theorem copy_shows {dst : Range} (hdst : s₀.blocks.size ≤ dst.block) (src : Range) (n : Nat) :
    (copy dst src n).Within s₀.StillShows := by
  refine .bind (.examine _) fun _ => .ite (.pure ()) ?_
  refine .bind (.inspect _) fun _ => .bind (.inspect _) fun executor => ?_
  refine .bind (bindMemory_shows _) fun _ => .bind (bindMemory_shows _) fun _ => ?_
  refine .bind (request_shows executor _ _) fun _ => .bind (.change fun s hs => ?_) fun _ =>
    request_shows executor _ _
  have htallied : s₀.Shows (s.modifyDevice executor Device.tallied) :=
    hs.trans (s.shows_modifyDevice executor (fun _ => rfl) fun _ => rfl)
  exact Store.stillShows_modifyBytes hdst _ htallied

/-- A temporary block that was not there before. -/
theorem temporary_shows {α : Type} (d : DeviceId) (n : Nat) {body : BlockId → Action Fault α}
    (h : ∀ b, s₀.blocks.size ≤ b → (body b).Within s₀.StillShows) :
    (temporary d n body).Within s₀.StillShows := by
  intro s hs
  have hbody := h s.blocks.size hs.blocks_le (s.acquire d n).2 (hs.trans (s.shows_acquire d n))
  exact hbody.release hs.blocks_le

end Block

/-- A host routine that draws no samples shows nothing if its output was not there before. -/
theorem launch_shows {s₀ : Store} (ho : s₀.registry.OnHost) {op : Operation}
    (hop : op ∉ Operation.sampling) (dtype : ElemType) {inv : Invocation}
    (hinv : s₀.blocks.size ≤ inv.output) : (launch op dtype inv).Within s₀.StillShows := by
  intro s hs
  by_cases hn : inv.Stops (launch op dtype inv) s
  · exact hs.trans (Store.shows_of_binds hn.binds)
  cases hseen : launchSeen op dtype inv s with
  | error f =>
    obtain ⟨s', hs', hx⟩ := launch_of_error hn hseen
    rw [hx]
    exact hs.trans (Store.shows_of_binds hs')
  | ok e =>
    obtain ⟨s', hs', -, hx⟩ := launch_of_ok hn hseen
    have hstream : e.stream = none := by
      unfold launchSeen Registry.lookup at hseen
      cases hget : s.registry.get? (.onDevice dtype op inv.device s) with
      | none =>
        simp only [hget] at hseen
        cases hseen
      | some routine =>
        simp only [hget] at hseen
        have hserves := ho _ routine (hs.registry ▸ hget)
        exact hserves.stream hop (Except.mapError_eq_ok_iff.mp hseen)
    have hsame : s'.modifyDevice inv.device e.restream = s' := by
      have hid : e.restream = id := by
        unfold Effect.restream
        rw [hstream]
        rfl
      rw [hid]
      exact Store.modifyDevice_id inv.device
    rw [hx]
    unfold Effect.store
    rw [hsame]
    exact Store.stillShows_modifyBytes hinv _ (hs.trans (Store.shows_of_binds hs'))

end DeviceTensor
