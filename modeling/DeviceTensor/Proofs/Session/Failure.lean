import DeviceTensor.Proofs.Session.Ownership
import DeviceTensor.Proofs.Tensor.Denial
set_option autoImplicit false

/-!
# What failing commands leave behind

A command that fails late shows nothing of it: `Session.late_failure_loses_nothing`.  A command that
rejects its operands, or finds no routine for its first launch, has done nothing at all:
`Session.rejected_command_changes_nothing`.  A chained assignment is two commands here, of which the
second may fail after the first: `Session.step_assign_repeats`.
-/

namespace DeviceTensor

/-! ## Memory that is refused -/

namespace Block

/-- A block without memory is given zeros when its device grants them. -/
theorem bindMemory_of_granted {b : BlockId} {s : Store} (hb : b < s.blocks.size)
    (hu : (s.block b).memory = .unbound)
    (hg : (s.owner b).answer (.allocate (s.block b).size) = .ok ()) :
    (bindMemory b s).1 = .ok () ∧
      ((bindMemory b s).2.block b).memory = .bound (Array.replicate (s.block b).size 0) := by
  rcases bindMemory_cases b s with ⟨hm, -⟩ | ⟨-, ⟨-, hrun⟩ | ⟨e, he, -⟩⟩
  · exact absurd hu hm
  · rw [hrun]
    refine ⟨rfl, ?_⟩
    rw [Store.block_modifyBlock_self _ (by simpa using hb)]
  · cases hg.symm.trans he

end Block

namespace Store

/-- Block `b` of device `d` and size `n` has no memory, and whatever becomes of the devices, it is
given zeros as soon as its device grants them. -/
structure AwaitsMemory (s : Store) (b : BlockId) (d : DeviceId) (n : Nat) : Prop where
  lacks : s.Lacks b d n
  given : ∀ s' : Store, s'.blocks = s.blocks → (s'.device d).answer (.allocate n) = .ok () →
    (Block.bindMemory b s').1 = .ok () ∧
      ((Block.bindMemory b s').2.block b).memory = .bound (Array.replicate n 0)

theorem Lacks.awaitsMemory {s : Store} {b : BlockId} {d : DeviceId} {n : Nat}
    (h : s.Lacks b d n) : s.AwaitsMemory b d n := by
  refine ⟨h, fun s' hs hgranted => ?_⟩
  obtain ⟨hlt, rfl, rfl, hu⟩ := h
  have hblock : s'.block b = s.block b := by
    unfold block
    rw [hs]
  rw [← hblock] at hu hgranted ⊢
  exact Block.bindMemory_of_granted (hs ▸ hlt) hu hgranted

end Store

namespace Session

variable {allowed : Command → Prop} {σ : Session}

/-! ## Late failures -/

/-- With host routines only, a command that fails because a device refuses memory, because memory
cannot be reached or viewed, because a scalar or a finished sum is not representable, or because a
distribution is not valid, leaves every block with the bytes it had, every slot, and every stream.
On its way it has dealt with the devices.  A block that was refused memory then, and not granted it,
is still without and awaits it; among them is the block for which a device was last asked, if it
refused. -/
theorem late_failure_loses_nothing (h : Reachable HostOnly σ) (c : Command) (hc : c.Single)
    {e : Failure} (hfailed : (step c σ).1 = .failed e) (hlate : e.Late c.launched?) :
    let after := (step c σ).2
    (∀ b, b < σ.store.blocks.size →
      (after.store.block b).contents = (σ.store.block b).contents ∧
      (after.store.block b).size = (σ.store.block b).size ∧
      (after.store.block b).handles = (σ.store.block b).handles) ∧
    after.tensors = σ.tensors ∧ after.blocks = σ.blocks ∧
    (∀ d, (after.store.device d).stream = (σ.store.device d).stream) ∧
    (∃ log, Store.Path ⟨σ.store, σ.handles⟩ log ⟨after.store, after.handles⟩) ∧
    ∀ log, Store.Path ⟨σ.store, σ.handles⟩ log ⟨after.store, after.handles⟩ →
      (∀ b d n, .refused b d n ∈ log → .granted b d n ∉ log → after.store.AwaitsMemory b d n) ∧
      ∀ d n, Store.LastRefused (after.store.device d) (σ.store.device d).asked.length n →
        ∃ b, .refused b d n ∈ log ∧ after.store.AwaitsMemory b d n := by
  intro after
  have haborted := (step_conduct h.onHost c hc).failed e hfailed
  have hshows := haborted.late h.onHost.registry hlate
  have hsound := step_sound h.sound c fun _ => trivial
  have hhandles : after.handles = σ.handles := by
    unfold handles
    rw [haborted.tensors, haborted.blocks]
  obtain ⟨log, hp, -⟩ := step_leads h.sound c
  refine ⟨fun b hb => ⟨?_, hshows.size b hb, ?_⟩, haborted.tensors, haborted.blocks,
    hshows.stream, ⟨log, hp⟩, fun log hp => ⟨fun b d n hr hg => ?_, fun d n hr => ?_⟩⟩
  · exact congrArg Sight.contents (hshows.sight b hb)
  · have hafter := hsound.holds.handles b (hshows.lt hb)
    rw [List.nil_append] at hafter
    exact hafter.trans ((congrArg (List.count b) hhandles).trans (h.sound.holds.handles b hb).symm)
  · exact (hp.lacks_of_refused h.sound.holds hr hg).awaitsMemory
  · obtain ⟨b, hb, hlacks⟩ := hp.lacks_of_lastRefused h.sound.holds hr
    exact ⟨b, hb, hlacks.awaitsMemory⟩

/-- A device grants the memory of an operand, and refuses the same size for the result.  The operand
keeps the zeros that it was given. -/
theorem refused_result_loses_nothing :
    ∃ (σ : Session) (c : Command) (e : Failure), Reachable HostOnly σ ∧ c.Single ∧
      (step c σ).1 = .failed e ∧ e.Late c.launched? ∧
      (σ.store.block 0).memory = .unbound ∧
      ((step c σ).2.store.block 0).memory = .bound (Array.replicate 8 0) ∧
      ((step c σ).2.store.block 0).contents = (σ.store.block 0).contents ∧
      (∃ b, (step c σ).2.store.AwaitsMemory b 1 8) ∧ (step c σ).2.tensors = σ.tensors := by
  let σ := (step (.create "a" [2] "small" .int32) (besideHost grantingOnce)).2
  let c := Command.zip .add "a" "a" ⟨"sum", false⟩
  let after := (step c σ).2
  have hσ : Reachable HostOnly σ := (reachable_besideHost grantingOnce).step _ trivial
  obtain ⟨hreply, hsize, hunbound, hbound⟩ :
      (step c σ).1.failure? = some (.fault (.allocationFailed 8 .cpp "small" (.outOfMemory 8))) ∧
      σ.store.blocks.size = 1 ∧ (σ.store.block 0).memory = .unbound ∧
      (after.store.block 0).memory = .bound (Array.replicate 8 0) := by decide +kernel
  have hasked : (σ.store.device 1).asked = [] ∧
      (after.store.device 1).asked = [.allocate 8, .allocate 8] := by decide +kernel
  have hfailed := Reply.failure?_eq_some_iff.mp hreply
  obtain ⟨hblocks, htensors, -, -, ⟨log, hp⟩, hlogs⟩ :=
    late_failure_loses_nothing hσ c trivial hfailed trivial
  have hlast : Store.LastRefused (after.store.device 1) (σ.store.device 1).asked.length 8 := by
    refine ⟨[], [.allocate 8], hasked.2, fun _ => List.not_mem_nil, ?_, ?_⟩
    · rw [hasked.1]
      exact Nat.zero_le _
    · decide +kernel
  obtain ⟨b, -, hawaits⟩ := (hlogs log hp).2 1 8 hlast
  exact ⟨σ, c, _, hσ, trivial, hfailed, trivial, hunbound, hbound, (hblocks 0 (by omega)).1,
    ⟨b, hawaits⟩, htensors⟩

/-! ## Rejected commands -/

/-- Nothing has happened: slots, devices, streams, routines, and every block with its bytes, its
memory and its handles are as before; a block that was made on the way has neither memory nor
handles. -/
structure Unchanged (σ σ' : Session) : Prop where
  tensors : σ'.tensors = σ.tensors
  blocks : σ'.blocks = σ.blocks
  devices : σ'.store.devices = σ.store.devices
  registry : σ'.store.registry = σ.store.registry
  block : ∀ b, b < σ.store.blocks.size → σ'.store.block b = σ.store.block b
  fresh : ∀ b, σ.store.blocks.size ≤ b →
    (σ'.store.block b).memory = .unbound ∧ (σ'.store.block b).handles = 0

/-- The reply says that the command rejected its operands, or found no routine for its first
launch, and nothing has happened. -/
theorem step_of_rejected (h : Reachable allowed σ) (c : Command) (hc : c.Single)
    {e : Failure} (hfailed : (step c σ).1 = .failed e) (hrejected : e.Among c.Denies) :
    σ.Unchanged (step c σ).2 := by
  have haborted := (step_conduct h.sound c hc).failed e hfailed
  have hspares := haborted.denied hrejected
  have hsound := step_sound h.sound c fun _ => trivial
  have hhandles : (step c σ).2.handles = σ.handles := by
    unfold handles
    rw [haborted.tensors, haborted.blocks]
  refine ⟨haborted.tensors, haborted.blocks, hspares.devices, hspares.registry, hspares.block, ?_⟩
  intro b hb
  refine ⟨hspares.fresh b hb, ?_⟩
  rcases Nat.lt_or_ge b (step c σ).2.store.blocks.size with hlt | hge
  · rw [hsound.holds.handles b hlt, List.nil_append, hhandles]
    refine List.count_eq_zero.mpr fun hmem => ?_
    exact absurd (h.sound.holds.lt b hmem) (Nat.not_lt_of_le hb)
  · rw [Store.block_of_le hge]
    rfl

/-- A command that rejects its operands, or finds no routine for its first launch, has done nothing:
so it is for every fault that names a rejection, and, whatever the fault, for every operation whose
checks fail. -/
theorem rejected_command_changes_nothing (h : Reachable allowed σ) :
    (∀ (c : Command) (e : Failure), c.Single → (step c σ).1 = .failed e → e.Among c.Denies →
      σ.Unchanged (step c σ).2) ∧
    ∀ (op : Evaluation) (f : Fault), (op.check σ.store).1 = .error f →
      (op.run σ.store).1 = .error f ∧ σ.store.Spares (op.run σ.store).2 :=
  ⟨fun c _ hc hfailed hrejected => step_of_rejected h c hc hfailed hrejected,
    fun op f hf => op.run_failsWith σ.store f hf⟩

/-- Tensors of different shapes are not added, and no memory is bound for it. -/
theorem rejected_sum_changes_nothing :
    ∃ (σ : Session) (c : Command) (e : Failure), Reachable HostOnly σ ∧
      (step c σ).1 = .failed e ∧ σ.Unchanged (step c σ).2 ∧
      ((step c σ).2.store.block 0).memory = .unbound := by
  let program := [Command.create "a" [2] "default" .int32, .create "b" [3] "default" .int32]
  let c := Command.zip .add "a" "b" ⟨"sum", false⟩
  let σ := (run program (start [])).2
  let e := Failure.fault (.shapesDiffer [2] [3])
  have hprogram : ∀ c ∈ program, HostOnly c := by
    intro c hc
    simp only [program, List.mem_cons, List.not_mem_nil, or_false] at hc
    rcases hc with rfl | rfl <;> trivial
  have hσ : Reachable HostOnly σ := (reachable_start []).run hprogram
  obtain ⟨hreply, hsize, hunbound⟩ : (step c σ).1.failure? = some e ∧
      σ.store.blocks.size = 2 ∧ (σ.store.block 0).memory = .unbound := by decide +kernel
  have hfailed := Reply.failure?_eq_some_iff.mp hreply
  have hsame := (rejected_command_changes_nothing hσ).1 c e trivial hfailed trivial
  refine ⟨σ, c, e, hσ, hfailed, hsame, ?_⟩
  rw [hsame.block 0 (by omega)]
  exact hunbound

end Session

end DeviceTensor
