import DeviceTensor.Proofs.Store.Preservation
set_option autoImplicit false

/-!
# One more block

A block that is made, bound and written changes nothing besides itself, and its device holds its
bytes on top of what it held.  `Store.Adds` says so.  It is what makes a failure on the way
harmless: when the only handle of the new block goes, its memory goes back to the device, and the
store is where it was.
-/

namespace DeviceTensor

namespace Store

/-! ## The new block -/

/-- `s'` is `s` with a block of `n` bytes more, on device `d` and with one handle. -/
structure Adds (d : DeviceId) (n : Nat) (s s' : Store) : Prop where
  devices : s'.devices.size = s.devices.size
  blocks : s'.blocks.size = s.blocks.size + 1
  old : ∀ b, b < s.blocks.size → s'.block b = s.block b
  fresh : s'.block s.blocks.size = ⟨d, n, 1, (s'.block s.blocks.size).memory⟩
  live : (s'.block s.blocks.size).memory ≠ .released
  /-- Only the device of the block holds more than before, and only for memory that is bound. -/
  held : ∀ e, (s'.device e).held = (s.device e).held +
    if e = d ∧ e < s.devices.size ∧ (s'.block s.blocks.size).memory.isBound then n else 0

namespace Adds

variable {d : DeviceId} {n : Nat} {s s' : Store}

theorem acquire (s : Store) (d : DeviceId) (n : Nat) : s.Adds d n (s.acquire d n).2 where
  devices := rfl
  blocks := s.size_blocks_acquire d n
  old _ hb := block_acquire_of_lt hb
  fresh := by rw [block_acquire_self]
  live := by
    rw [block_acquire_self]
    exact Memory.noConfusion
  held e := by
    rw [block_acquire_self]
    simp [Memory.isBound]

theorem lt (h : s.Adds d n s') : s.blocks.size < s'.blocks.size := by
  rw [h.blocks]
  omega

/-- A change of a device that leaves the number of bytes it holds. -/
theorem modifyDevice (h : s.Adds d n s') (e : DeviceId) {f : Device → Device}
    (hf : ∀ k, (f k).held = k.held) : s.Adds d n (s'.modifyDevice e f) where
  devices := (Array.size_modify).trans h.devices
  blocks := h.blocks
  old := h.old
  fresh := h.fresh
  live := h.live
  held k := by
    rw [modifyDevice_keeps Device.held (hf _), block_modifyDevice]
    exact h.held k

/-- Other bytes in the new block. -/
theorem modifyBytes (h : s.Adds d n s') (f : Array UInt8 → Array UInt8) :
    s.Adds d n (Block.modifyBytes s.blocks.size f s') := by
  have hself : ((Block.modifyBytes s.blocks.size f s').block s.blocks.size) =
      ⟨d, n, 1, (s'.block s.blocks.size).memory.map f⟩ := by
    rw [Block.modifyBytes_eq, block_modifyBlock_self _ h.lt, h.fresh]
  have hbound : ((s'.block s.blocks.size).memory.map f).isBound =
      (s'.block s.blocks.size).memory.isBound := by
    cases (s'.block s.blocks.size).memory <;> rfl
  constructor
  · exact h.devices
  · rw [Block.modifyBytes_eq, size_blocks_modifyBlock]
    exact h.blocks
  · intro b hb
    rw [Block.block_modifyBytes_of_ne _ (Nat.ne_of_gt hb)]
    exact h.old b hb
  · rw [hself]
  · rw [hself]
    cases hm : (s'.block s.blocks.size).memory with
    | released => exact absurd hm h.live
    | unbound => exact Memory.noConfusion
    | bound _ => exact Memory.noConfusion
  · intro e
    rw [hself, hbound, Block.modifyBytes_eq, device_modifyBlock]
    exact h.held e

/-- Memory for the new block, if its device grants it. -/
theorem bindMemory (h : s.Adds d n s') :
    s.Adds d n (Block.bindMemory s.blocks.size s').2 := by
  have hplace : (s'.block s.blocks.size).device = d := congrArg Block.device h.fresh
  have hsize : (s'.block s.blocks.size).size = n := congrArg Block.size h.fresh
  rcases Block.bindMemory_cases s.blocks.size s' with ⟨-, hrun⟩ | ⟨hm, ⟨-, hrun⟩ | ⟨e, -, hrun⟩⟩
  · rw [hrun]
    exact h
  · rw [hrun, hplace, hsize]
    have hself := block_modifyBlock_self
      (s := s'.modifyDevice d fun _ => { (s'.owner s.blocks.size).after (.allocate n) with
        held := (s'.owner s.blocks.size).held + n })
      (fun b => { b with memory := .bound (Array.replicate n 0) }) h.lt
    constructor
    · exact Array.size_modify.trans h.devices
    · rw [size_blocks_modifyBlock, blocks_modifyDevice]
      exact h.blocks
    · intro b hb
      rw [block_modifyBlock_of_ne _ (Nat.ne_of_gt hb), block_modifyDevice]
      exact h.old b hb
    · rw [hself, block_modifyDevice, h.fresh]
    · rw [hself]
      exact Memory.noConfusion
    · intro e
      have hbefore := h.held e
      have howner : s'.owner s.blocks.size = s'.device d := congrArg s'.device hplace
      rw [hself, device_modifyBlock, device_modifyDevice, h.devices, howner]
      rw [hm] at hbefore
      by_cases he : d = e ∧ e < s.devices.size
      · obtain ⟨rfl, hlt⟩ := he
        simpa [hlt, Memory.isBound] using hbefore
      · rw [if_neg he, if_neg fun h => he ⟨h.1.symm, h.2.1⟩]
        simpa [Memory.isBound] using hbefore
  · rw [hrun]
    exact h.modifyDevice _ fun _ => rfl

end Adds

/-- If `s` is `s₀` with a new block, then so is `s'`. -/
def StillAdds (s₀ : Store) (d : DeviceId) (n : Nat) (s s' : Store) : Prop :=
  s₀.Adds d n s → s₀.Adds d n s'

instance (s₀ : Store) (d : DeviceId) (n : Nat) : Action.Frame (s₀.StillAdds d n) where
  refl _ h := h
  trans h h' hs := h' (h hs)

/-! ## The new block goes -/

/-- What was there is as it was, devices hold as many bytes as before, and what was made since has
neither handles nor memory. -/
structure Restores (s s' : Store) : Prop where
  block : ∀ b, b < s.blocks.size → s'.block b = s.block b
  fresh : ∀ b, s.blocks.size ≤ b → (s'.block b).handles = 0 ∧ (s'.block b).memory.isBound = false
  held : ∀ e, (s'.device e).held = (s.device e).held

/-- The last handle of a block with memory gives the memory back. -/
theorem release_of_bound {s : Store} {b : BlockId} {bytes : Array UInt8} (hb : b < s.blocks.size)
    (hone : (s.block b).handles = 1) (hm : (s.block b).memory = .bound bytes) :
    ((s.release b).block b).handles = 0 ∧ ((s.release b).block b).memory = .released ∧
      ∀ e, ((s.release b).device e).held = (s.device e).held -
        if e = (s.block b).device ∧ e < s.devices.size then (s.block b).size else 0 := by
  have hdropped : (s.modifyBlock b fun k => { k with handles := k.handles - 1 }).block b =
      { s.block b with handles := 0 } := by
    rw [block_modifyBlock_self _ hb, hone]
  have hrun : s.release b =
      ((s.modifyBlock b fun k => { k with handles := k.handles - 1 }).modifyDevice
        (s.block b).device (·.reclaim (s.block b).size)).modifyBlock b fun k =>
          { k with memory := .released } := by
    unfold release giveBack
    dsimp only
    rw [if_pos hone, hdropped, hm]
  have hlt : b < ((s.modifyBlock b fun k => { k with handles := k.handles - 1 }).modifyDevice
      (s.block b).device (·.reclaim (s.block b).size)).blocks.size := by
    rw [blocks_modifyDevice, size_blocks_modifyBlock]
    exact hb
  rw [hrun, block_modifyBlock_self _ hlt, block_modifyDevice, hdropped]
  refine ⟨rfl, rfl, fun e => ?_⟩
  have hdevices : (s.modifyBlock b fun k =>
      { k with handles := k.handles - 1 }).devices.size = s.devices.size := rfl
  rw [device_modifyBlock, device_modifyDevice, hdevices, device_modifyBlock]
  by_cases he : (s.block b).device = e ∧ e < s.devices.size
  · rw [if_pos he, if_pos ⟨he.1.symm, he.2⟩]
    rfl
  · rw [if_neg he, if_neg fun h => he ⟨h.1.symm, h.2⟩]
    rfl

/-- When the only handle of the new block goes, nothing is left of it. -/
theorem Adds.discard {d : DeviceId} {n : Nat} {s s' : Store} (h : s.Adds d n s') :
    s.Restores (s'.release s.blocks.size) := by
  have hdevice : (s'.block s.blocks.size).device = d := congrArg Block.device h.fresh
  have hsize : (s'.block s.blocks.size).size = n := congrArg Block.size h.fresh
  have hone : (s'.block s.blocks.size).handles = 1 := congrArg Block.handles h.fresh
  have hnew : ((s'.release s.blocks.size).block s.blocks.size).handles = 0 ∧
      ((s'.release s.blocks.size).block s.blocks.size).memory.isBound = false ∧
      ∀ e, ((s'.release s.blocks.size).device e).held = (s.device e).held := by
    cases hmem : (s'.block s.blocks.size).memory with
    | unbound =>
      rw [release_of_unbound hmem, block_modifyBlock_self _ h.lt, hone, hmem]
      refine ⟨rfl, rfl, fun e => ?_⟩
      have hheld := h.held e
      rw [hmem] at hheld
      simpa [Memory.isBound] using hheld
    | bound bytes =>
      obtain ⟨hhandles, hreleased, hheld⟩ := release_of_bound h.lt hone hmem
      refine ⟨hhandles, by rw [hreleased]; rfl, fun e => ?_⟩
      have hbefore := h.held e
      rw [hmem] at hbefore
      rw [hheld e, hbefore, hdevice, hsize, h.devices]
      have hbound : (Memory.bound bytes).isBound = true := rfl
      simp only [hbound, and_true]
      omega
    | released => exact absurd hmem h.live
  refine ⟨fun b hb => ?_, fun b hb => ?_, hnew.2.2⟩
  · rw [block_release_of_ne (Nat.ne_of_gt hb)]
    exact h.old b hb
  · rcases Nat.eq_or_lt_of_le hb with rfl | hlt
    · exact ⟨hnew.1, hnew.2.1⟩
    · have hnone : (s'.release s.blocks.size).block b = default := by
        refine block_of_le ?_
        rw [size_blocks_release, h.blocks]
        exact hlt
      rw [hnone]
      exact ⟨rfl, rfl⟩

end Store

end DeviceTensor
