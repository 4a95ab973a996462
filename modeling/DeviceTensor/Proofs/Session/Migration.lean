import DeviceTensor.Proofs.Session.Frame
import DeviceTensor.Proofs.Session.Reachable
import DeviceTensor.Proofs.Tensor.Migration
set_option autoImplicit false

/-!
# Tensors that move between devices

A program that moves its tensors from device to device never changes what they hold.  One move
switches the device and the block of one tensor together, or fails and leaves everything where it
was; whoever else holds the old block keeps it.  Over any sequence of moves, whether some of them
fail or not, every tensor is carried along with its form and its bytes.
-/

namespace DeviceTensor.Session

open DeviceTensor.Action

variable {σ σ' : Session} {P : Registry Routine → Prop} {allowed : Command → Prop}

/-! ## One move -/

/-- The tensor `t` in the slot `name` is on device `d` now.  On the way it got a block of its own,
unless it was there before; all other slots are as they were, and so is the memory that they hold. -/
structure Migrated (name : String) (t : Tensor) (d : DeviceId) (σ σ' : Session) : Prop where
  tensor : σ'.tensors.get? name = some { t with
    device := d
    block := if t.device = d then t.block else t.block.map fun _ => σ.store.blocks.size }
  carried : ∀ t', σ'.tensors.get? name = some t' → t.Carried σ.store t' σ'.store
  place : ∀ t' b, σ'.tensors.get? name = some t' → t'.block = some b →
    (σ'.store.block b).device = d
  tensors : ∀ other, other ≠ name → σ'.tensors.get? other = σ.tensors.get? other
  blocks : σ'.blocks = σ.blocks
  memory : ∀ b, b ∈ σ.handlesWithout name →
    (σ'.store.block b).memory = (σ.store.block b).memory ∧
      (σ'.store.block b).size = (σ.store.block b).size
  here : t.device = d → σ'.store = σ.store

/-- All slots, all blocks and what the devices hold are as before; a block that was made on the way
has neither handles nor memory. -/
structure Restored (σ σ' : Session) : Prop where
  tensors : σ'.tensors = σ.tensors
  blocks : σ'.blocks = σ.blocks
  store : σ.store.Restores σ'.store

theorem onDeviceNamed_some {device : String} {d : DeviceId}
    (h : σ.store.deviceNamed? device = some d) (next : DeviceId → Session → Reply × Session) :
    onDeviceNamed device next σ = next d σ := by
  unfold onDeviceNamed
  rw [h]

theorem onDeviceNamed_none {device : String} (h : σ.store.deviceNamed? device = none)
    (next : DeviceId → Session → Reply × Session) :
    onDeviceNamed device next σ = (.badRequest, σ) := by
  unfold onDeviceNamed
  rw [h]

/-- A move succeeds if the devices agree, and fails with their refusal otherwise. -/
theorem step_moveTo (h : σ.Sound P []) {name device : String} {t : Tensor} {d : DeviceId}
    (ht : σ.tensors.get? name = some t) (hd : σ.store.deviceNamed? device = some d) :
    (t.movable d σ.store = .ok () →
      (step (.moveTo name device) σ).1.failure? = none ∧
      Migrated name t d σ (step (.moveTo name device) σ).2) ∧
    ∀ f, t.movable d σ.store = .error f →
      (step (.moveTo name device) σ).1 = faulted f ∧
      Restored σ (step (.moveTo name device) σ).2 := by
  have hv : t.Valid σ.store := h.valid t (Slots.mem_of_get? ht)
  have hh : σ.store.Holds (t.held ++ σ.handlesWithout name) := h.holds.perm (handles_perm h ht)
  have hends := t.moveTo_ends hv hh d
  have hyields := t.moveTo_yields hv d hh
  have hrun : step (.moveTo name device) σ =
      perform (t.moveTo d) (fun t σ => reportTensor t { σ with tensors := σ.tensors.put name t })
        σ := (onDeviceNamed_some hd _).trans (withTensor_some ht σ.store _)
  rw [hrun]
  unfold perform
  cases hmove : t.moveTo d σ.store with
  | mk r s =>
    cases r with
    | ok t' =>
      obtain ⟨hok, hmoved⟩ := hends.ok hmove
      obtain ⟨-, hvalid, -⟩ := hyields.ok hmove
      have hself : (σ.tensors.put name t').get? name = some t' := Slots.get?_put_self _ name t'
      refine ⟨fun _ => ⟨rfl, ?_⟩, fun f hf => (nomatch hok.symm.trans hf)⟩
      refine ⟨?_, fun u hu => ?_, fun u b hu hb => ?_, fun other hne => ?_, rfl, hmoved.others,
        hmoved.here⟩
      · exact hself.trans (congrArg some hmoved.eq)
      · obtain rfl : t' = u := Option.some.inj (hself.symm.trans hu)
        exact hmoved.carried
      · obtain rfl : t' = u := Option.some.inj (hself.symm.trans hu)
        exact (hvalid.filled b hb).place.trans (congrArg Tensor.device hmoved.eq)
      · exact Slots.get?_put_of_ne hne.symm t'
    | error f =>
      obtain ⟨hf, hrestores⟩ := hends.error hmove
      refine ⟨fun hok => (nomatch hok.symm.trans hf), fun f' hf' => ?_⟩
      obtain rfl : f = f' := Except.error.inj (hf.symm.trans hf')
      exact ⟨rfl, rfl, rfl, hrestores⟩

/-! ## Sequences of moves -/

/-- Every tensor of `σ` is in its slot in `σ'` too, with the same form and the same bytes. -/
def Carries (σ σ' : Session) : Prop :=
  ∀ name t, σ.tensors.get? name = some t →
    ∃ t', σ'.tensors.get? name = some t' ∧ t.Carried σ.store t' σ'.store

theorem Carries.refl (σ : Session) : σ.Carries σ := fun _ t ht => ⟨t, ht, .refl t σ.store⟩

theorem Carries.trans {σ₁ σ₂ σ₃ : Session} (h : σ₁.Carries σ₂) (h' : σ₂.Carries σ₃) :
    σ₁.Carries σ₃ := by
  intro name t ht
  obtain ⟨t₂, ht₂, hcarried⟩ := h name t ht
  obtain ⟨t₃, ht₃, hcarried'⟩ := h' name t₂ ht₂
  exact ⟨t₃, ht₃, hcarried.trans hcarried'⟩

/-- The tensor that moves is carried over, and the others are not touched. -/
theorem Migrated.carries {name : String} {t : Tensor} {d : DeviceId}
    (h : Migrated name t d σ σ') (ht : σ.tensors.get? name = some t) : σ.Carries σ' := by
  intro other u hu
  by_cases hother : other = name
  · subst hother
    obtain rfl : t = u := Option.some.inj (ht.symm.trans hu)
    exact ⟨_, h.tensor, h.carried _ h.tensor⟩
  · refine ⟨u, (h.tensors other hother).trans hu, u.carried_of_memory fun b hb => ?_⟩
    exact h.memory b (mem_handlesWithout (Ne.symm hother) hu hb)

theorem Restored.carries (h : Restored σ σ') (hσ : σ.Sound P []) : σ.Carries σ' := by
  intro name t ht
  refine ⟨t, by rw [h.tensors]; exact ht, t.carried_of_memory fun b hb => ?_⟩
  have hlt : b < σ.store.blocks.size := ((hσ.valid t (Slots.mem_of_get? ht)).filled b hb).lt
  rw [h.store.block b hlt]
  exact ⟨rfl, rfl⟩

/-- One move, whether it succeeds, fails, or names nothing, carries all tensors along. -/
theorem step_moveTo_carries (h : σ.Sound P []) (name device : String) :
    σ.Carries (step (.moveTo name device) σ).2 := by
  cases hd : σ.store.deviceNamed? device with
  | none =>
    have hrun : step (.moveTo name device) σ = (.badRequest, σ) := onDeviceNamed_none hd _
    rw [hrun]
    exact .refl σ
  | some d =>
    cases ht : σ.tensors.get? name with
    | none =>
      have hrun : step (.moveTo name device) σ = (.badRequest, σ) :=
        (onDeviceNamed_some hd _).trans (withTensor_none ht _)
      rw [hrun]
      exact .refl σ
    | some t =>
      obtain ⟨hgranted, hrefused⟩ := step_moveTo h ht hd
      cases hanswer : t.movable d σ.store with
      | ok _ => exact (hgranted hanswer).2.carries ht
      | error f => exact (hrefused f hanswer).2.carries h

/-- The program that moves tensors, given by the names of a tensor and a device each. -/
def moving (moves : List (String × String)) : List Command :=
  moves.map fun move => .moveTo move.1 move.2

/-- A sequence of moves carries all tensors along, and the session stays sound. -/
theorem run_moving (moves : List (String × String)) (h : σ.Sound (fun _ => True) []) :
    σ.Carries (run (moving moves) σ).2 ∧ (run (moving moves) σ).2.Sound (fun _ => True) [] := by
  induction moves generalizing σ with
  | nil => exact ⟨.refl σ, h⟩
  | cons move moves ih =>
    have hfirst := step_moveTo_carries h move.1 move.2
    obtain ⟨hcarries, hsound⟩ := ih (step_sound h (.moveTo move.1 move.2) fun _ => trivial)
    exact ⟨hfirst.trans hcarries, hsound⟩

/-- After any sequence of moves, whether they succeeded or failed, every tensor has the form and the
bytes that it had at first.  The next move switches the device and the block of its tensor if the
devices agree, and spares whoever shares the old block; if a device refuses memory, refuses the copy
or cannot wait for it, the move fails with that refusal, everything is where it was, and the memory
of the new block has been given back. -/
theorem moves_carry_tensors_or_restore (h : Reachable allowed σ) (moves : List (String × String)) :
    let σ' := (run (moving moves) σ).2
    σ.Carries σ' ∧
    ∀ (name device : String) (t : Tensor) (d : DeviceId),
      σ'.tensors.get? name = some t → σ'.store.deviceNamed? device = some d →
      (t.movable d σ'.store = .ok () →
        (step (.moveTo name device) σ').1.failure? = none ∧
        Migrated name t d σ' (step (.moveTo name device) σ').2) ∧
      ∀ f, t.movable d σ'.store = .error f →
        (step (.moveTo name device) σ').1 = faulted f ∧
        Restored σ' (step (.moveTo name device) σ').2 := by
  obtain ⟨hcarries, hsound⟩ := run_moving moves h.sound
  exact ⟨hcarries, fun name device t d ht hd => step_moveTo hsound ht hd⟩

/-- A shared tensor is moved to a device and keeps its bytes there; a second device copies them but
cannot wait for its copy, so that the tensor stays where it is; then it is moved back. -/
theorem round_trip_with_refused_detour :
    ∃ (σ : Session) (there : Tensor), Reachable HostOnly σ ∧
      let σ' := (run (moving [("a", "gpu"), ("c", "gpu")]) σ).2
      σ.Carries σ' ∧ σ'.tensors.get? "a" = some there ∧ there.device = 1 ∧
      there.contents? σ'.store = some #[2, 0, 0, 0, 5, 0, 0, 0] ∧
      (step (.moveTo "a" "stuck") σ').1 =
        faulted (.copyFailed 8 .deviceToDevice (.other "sim sync refused")) ∧
      Restored σ' (step (.moveTo "a" "stuck") σ').2 ∧
      Migrated "a" there 0 σ' (step (.moveTo "a" "default") σ').2 := by
  let specs := [DeviceSpec.simulated "gpu" none { backend := .cuda, addressable := false },
    .simulated "stuck" none { backend := .opencl, addressable := false, refusesToWait := true }]
  let program := [Command.ofElements "a" [2] .int32 #[2, 5], .share "a" "b",
    .create "c" [3] "default" .int32]
  let σ := (run program (start specs)).2
  let moves := [("a", "gpu"), ("c", "gpu")]
  let σ' := (run (moving moves) σ).2
  let there : Tensor := ⟨[2], .int32, false, 1, some 2⟩
  let refusal := Fault.copyFailed 8 .deviceToDevice (.other "sim sync refused")
  have hprogram : ∀ c ∈ program, HostOnly c := by
    intro c hc
    simp only [program, List.mem_cons, List.not_mem_nil, or_false] at hc
    rcases hc with rfl | rfl | rfl <;> trivial
  have hσ : Reachable HostOnly σ := (reachable_start specs).run hprogram
  obtain ⟨ht, hbytes, hstuck, hdefault, hrefused, hgranted⟩ :
      σ'.tensors.get? "a" = some there ∧
      there.contents? σ'.store = some #[2, 0, 0, 0, 5, 0, 0, 0] ∧
      σ'.store.deviceNamed? "stuck" = some 2 ∧ σ'.store.deviceNamed? "default" = some 0 ∧
      (step (.moveTo "a" "stuck") σ').1.failure? = some (.fault refusal) ∧
      (there.movable 0 σ'.store).isOk = true := by decide +kernel
  obtain ⟨hcarries, hnext⟩ := moves_carry_tensors_or_restore hσ moves
  have hreply := Reply.failure?_eq_some_iff.mp hrefused
  obtain ⟨hmoved, hkept⟩ := hnext "a" "stuck" there 2 ht hstuck
  have hrestored : Restored σ' (step (.moveTo "a" "stuck") σ').2 := by
    cases hanswer : there.movable 2 σ'.store with
    | error f => exact (hkept f hanswer).2
    | ok _ =>
      have hsucceeds := (hmoved hanswer).1
      rw [hrefused] at hsucceeds
      cases hsucceeds
  have hback : Migrated "a" there 0 σ' (step (.moveTo "a" "default") σ').2 := by
    cases hanswer : there.movable 0 σ'.store with
    | ok _ => exact ((hnext "a" "default" there 0 ht hdefault).1 hanswer).2
    | error f =>
      rw [hanswer] at hgranted
      cases hgranted
  exact ⟨σ, there, hσ, hcarries, ht, rfl, hbytes, hreply, hrestored, hback⟩

end DeviceTensor.Session
