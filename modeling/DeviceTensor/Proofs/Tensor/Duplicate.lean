import DeviceTensor.Proofs.Store.Sight
import DeviceTensor.Proofs.Tensor.Change
set_option autoImplicit false

/-!
# Duplicates

A duplicate has a new block that shows what the block of the original shows, and making it leaves
the sight of every block as it was.
-/

namespace DeviceTensor

open DeviceTensor.Action

/-! ## Copies -/

/-- The device after a copy that it has made and that has been waited for. -/
def Device.afterCopy (n : Nat) (direction : Direction) (d : Device) : Device :=
  (d.after (.copy n direction)).tallied.after .wait

namespace Block

theorem request_eq_ok {d : DeviceId} {r : Request} {fault : DeviceFailure → Fault} {s s' : Store}
    {u : Unit} (h : request d r fault s = (.ok u, s')) : s' = s.modifyDevice d (·.after r) :=
  (congrArg Prod.snd h).symm

theorem moveBytes_of_ok {executor : DeviceId} {direction : Direction} {dst src : Range} {n : Nat}
    {s s' : Store} (h : moveBytes executor direction dst src n s = (.ok (), s')) :
    s' = modifyBytes dst.block (spliced · (s.block src.block).contents dst.offset src.offset n)
      (s.modifyDevice executor (Device.afterCopy n direction)) := by
  obtain ⟨_, s₁, hcopy, h⟩ := bind_eq_ok_iff.mp h
  obtain ⟨_, s₂, hsplice, hwait⟩ := bind_eq_ok_iff.mp h
  obtain rfl := request_eq_ok hcopy
  cases hsplice
  rw [request_eq_ok hwait]
  have hdevice : ((s.modifyDevice executor (·.after (.copy n direction))).modifyDevice executor
      Device.tallied).modifyDevice executor (·.after .wait) =
        s.modifyDevice executor (Device.afterCopy n direction) := by
    rw [Store.modifyDevice_modifyDevice, Store.modifyDevice_modifyDevice]
    rfl
  rw [← hdevice]
  rfl

/-- A copy that succeeds moves nothing, or binds memory and then overwrites the destination. -/
theorem copy_of_ok {dst src : Range} {n : Nat} {s s' : Store}
    (h : copy dst src n s = (.ok (), s')) :
    n = 0 ∧ s' = s ∨ ∃ s₁ executor direction, s.Binds s₁ ∧
      (dst.block < s.blocks.size → (s₁.block dst.block).memory ≠ .unbound) ∧
      s' = modifyBytes dst.block
        (spliced · (s.block src.block).contents dst.offset src.offset n)
        (s₁.modifyDevice executor (Device.afterCopy n direction)) := by
  obtain ⟨_, _, hcheck, hrest⟩ := bind_eq_ok_iff.mp h
  obtain ⟨-, rfl⟩ := examine_eq_ok_iff.mp hcheck
  split at hrest
  · rename_i hn
    cases hrest
    exact .inl ⟨hn, rfl⟩
  · right
    obtain ⟨direction, _, hdirection, h⟩ := bind_eq_ok_iff.mp hrest
    cases hdirection
    obtain ⟨executor, _, hexecutor, h⟩ := bind_eq_ok_iff.mp h
    cases hexecutor
    obtain ⟨_, s₁, hdst, h⟩ := bind_eq_ok_iff.mp h
    obtain ⟨_, s₂, hsrc, h⟩ := bind_eq_ok_iff.mp h
    have hb₁ := bindMemory_binds dst.block s
    have hb₂ := bindMemory_binds src.block s₁
    rw [hdst] at hb₁
    rw [hsrc] at hb₂
    have hb := hb₁.trans hb₂
    refine ⟨s₂, copyExecutor dst.block src.block s, directionOf dst.block src.block s, hb,
      fun hlt => ?_, ?_⟩
    · have hm := bindMemory_memory hlt hdst
      rw [hb₂.memory_of_ne hm]
      exact hm
    · rw [← hb.contents src.block]
      exact moveBytes_of_ok h

/-- Splicing all bytes replaces them all. -/
theorem spliced_all {dst src : Array UInt8} (h : dst.size = src.size) :
    spliced dst src 0 0 src.size = src := by
  apply Array.ext
  · rw [size_spliced, h]
  · intro i h₁ h₂
    simp [spliced, h₂, Array.getD_eq_getD_getElem?]

end Block

/-! ## Duplicates -/

namespace Store

variable {s : Store} {hs : List BlockId}

/-- A new block that has been bound holds zeros. -/
theorem memory_of_binds_acquire {d : DeviceId} {n : Nat} {s' : Store}
    (h : (s.acquire d n).2.Binds s') (hm : (s'.block s.blocks.size).memory ≠ .unbound) :
    (s'.block s.blocks.size).memory = .bound (Array.replicate n 0) := by
  rcases h.memory s.blocks.size with hold | ⟨-, hz⟩
  · rw [block_acquire_self] at hold
    exact absurd hold hm
  · rw [hz, block_acquire_self]

/-- A new block shows what an unbound block of the same size on the same device shows. -/
theorem sight_acquire_of_unbound {b : BlockId} (hb : (s.block b).memory = .unbound) :
    Block.sight s.blocks.size (s.acquire (s.block b).device (s.block b).size).2 =
      Block.sight b s := by
  unfold Block.sight Block.contents
  rw [owner_acquire_self, block_acquire_self, hb]
  rfl

/-- A new block shows what a block of the same size on the same device shows, once it has its
bytes. -/
theorem sight_of_copied {b c : BlockId} {s' : Store} {bytes : Array UInt8}
    (hb : (s.block b).memory = .bound bytes)
    (hsize : (s'.block c).size = (s.block b).size)
    (howner : (s'.owner c).description = (s.owner b).description)
    (hcontents : (s'.block c).contents = bytes) :
    Block.sight c s' = Block.sight b s := by
  unfold Block.sight
  rw [hsize, howner, hcontents]
  unfold Block.contents
  rw [hb]

end Store

namespace Tensor

variable {s s' : Store} {hs : List BlockId}

/-- The tensor `t'` is `t` but for its block, which shows in `s'` what that of `t` shows in `s`. -/
inductive Mirrors (t : Tensor) (s : Store) (t' : Tensor) (s' : Store) : Prop where
  | bare (hb : t.block = none) (h : t' = t)
  | onBlock (b c : BlockId) (hb : t.block = some b) (h : t' = { t with block := some c })
      (hsight : Block.sight c s' = Block.sight b s)

/-- The block `c` of `s'` shows what the block `b` of `s` shows, and nothing else happened to the
blocks of `s` that could be seen. -/
structure Twin (b c : BlockId) (s s' : Store) : Prop where
  shows : s.Shows s'
  lt : c < s'.blocks.size
  sight : Block.sight c s' = Block.sight b s
  memory : (s'.block b).memory = (s.block b).memory

/-- A new block whose zeros have been overwritten by the bytes of a bound block. -/
theorem twin_of_spliced {b : BlockId} (hlt : b < s.blocks.size) (hh : s.Holds hs)
    {bytes : Array UInt8} (hb : (s.block b).memory = .bound bytes) {s₁ : Store}
    (hbinds : (s.acquire (s.block b).device (s.block b).size).2.Binds s₁)
    (hready : (s₁.block s.blocks.size).memory ≠ .unbound) (executor : DeviceId) (n : Nat)
    (direction : Direction) : Twin b s.blocks.size s
      (Block.modifyBytes s.blocks.size (Block.spliced · bytes 0 0 (s.block b).size)
        (s₁.modifyDevice executor (Device.afterCopy n direction))) := by
  have hnew : s.blocks.size < s₁.blocks.size := by
    rw [hbinds.blocks]
    simp
  have hplace : (s₁.block s.blocks.size).device = (s.block b).device := by
    rw [hbinds.place, Store.block_acquire_self]
  have hshow := ((s.shows_acquire _ _).trans (Store.shows_of_binds hbinds)).trans
    (s₁.shows_modifyDevice executor (f := Device.afterCopy n direction) (fun _ => rfl)
      fun _ => rfl)
  have hspliced : Block.spliced (Array.replicate (s.block b).size 0) bytes 0 0
      (s.block b).size = bytes := by
    rw [← hh.bound b bytes hb]
    exact Block.spliced_all (by simp)
  constructor
  · rw [Block.modifyBytes_eq]
    exact hshow.modifyBlock (Nat.le_refl _) _
  · rw [Block.modifyBytes_eq, Store.size_blocks_modifyBlock]
    exact hnew
  · refine Store.sight_of_copied hb ?_ ?_ ?_
    · rw [Block.modifyBytes_eq, Store.modifyBlock_keeps Block.size rfl, Store.block_modifyDevice,
        hbinds.size, Store.block_acquire_self]
    · rw [Block.modifyBytes_eq]
      unfold Store.owner
      rw [Store.modifyBlock_keeps Block.device rfl, Store.block_modifyDevice, hplace]
      exact hshow.device _
    · unfold Block.contents
      rw [Block.memory_modifyBytes_self
          (s := s₁.modifyDevice executor (Device.afterCopy n direction)) _ hnew,
        Store.block_modifyDevice, Store.memory_of_binds_acquire hbinds hready]
      exact hspliced
  · have hold : ((s.acquire (s.block b).device (s.block b).size).2.block b).memory ≠ .unbound := by
      rw [Store.block_acquire_of_lt hlt, hb]
      exact Memory.noConfusion
    rw [Block.block_modifyBytes_of_ne _ (Nat.ne_of_gt hlt), Store.block_modifyDevice,
      hbinds.memory_of_ne hold, Store.block_acquire_of_lt hlt]

/-- Copying all bytes of a bound block into a new one. -/
theorem twin_of_copy {b : BlockId} (hlt : b < s.blocks.size) (hh : s.Holds hs)
    {bytes : Array UInt8} (hb : (s.block b).memory = .bound bytes)
    (h : Block.copy ⟨s.blocks.size, 0⟩ ⟨b, 0⟩ (s.block b).size
      (s.acquire (s.block b).device (s.block b).size).2 = (.ok (), s')) :
    Twin b s.blocks.size s s' := by
  have hnew : s.blocks.size < (s.acquire (s.block b).device (s.block b).size).2.blocks.size := by
    simp
  rcases Block.copy_of_ok h with ⟨hzero, rfl⟩ | ⟨s₁, executor, direction, hbinds, hready, rfl⟩
  · refine ⟨s.shows_acquire _ _, hnew, Store.sight_of_copied hb ?_ ?_ ?_, ?_⟩
    · rw [Store.block_acquire_self]
    · rw [Store.owner_acquire_self]
      rfl
    · rw [Store.block_acquire_self, hzero]
      exact (Array.size_eq_zero_iff.mp ((hh.bound b bytes hb).trans hzero)).symm
    · rw [Store.block_acquire_of_lt hlt]
  · have hsource : ((s.acquire (s.block b).device (s.block b).size).2.block b).contents =
        bytes := by
      rw [Store.block_acquire_of_lt hlt]
      unfold Block.contents
      rw [hb]
    rw [hsource]
    exact twin_of_spliced hlt hh hb hbinds (hready hnew) executor _ direction

/-- A blank tensor that has been given the bytes of another, if it has any. -/
theorem twin_of_duplicated {t : Tensor} {b : BlockId} (hb : t.block = some b) (hf : t.Fills b s)
    (hh : s.Holds hs) (hmem : b ∈ hs)
    (h : (if t.isBound (s.acquire t.device (s.block b).size).2 then
        ({ t with block := some s.blocks.size } : Tensor).copyFrom t else Pure.pure ())
      (s.acquire t.device (s.block b).size).2 = (.ok (), s')) : Twin b s.blocks.size s s' := by
  rw [← hf.place] at h
  have hsame := Store.block_acquire_of_lt (d := (s.block b).device) (n := (s.block b).size) hf.lt
  have hbound : t.isBound (s.acquire (s.block b).device (s.block b).size).2 =
      (s.block b).memory.isBound := by
    unfold isBound
    rw [hb]
    dsimp only
    rw [hsame]
  rw [hbound] at h
  cases hm : (s.block b).memory with
  | unbound =>
    rw [hm] at h
    cases h
    refine ⟨s.shows_acquire _ _, by simp, Store.sight_acquire_of_unbound hm, ?_⟩
    rw [hsame]
  | released => exact absurd hmem (hh.released b hm)
  | bound bytes =>
    rw [hm, if_pos (show (Memory.bound bytes).isBound = true from rfl)] at h
    unfold copyFrom at h
    rw [hb] at h
    obtain ⟨n, _, hn, h⟩ := bind_eq_ok_iff.mp h
    cases hn
    dsimp only at h
    rw [Store.block_acquire_self, hsame, Nat.min_self] at h
    exact twin_of_copy hf.lt hh hm h

/-- A duplicate that was made mirrors its original, on a block of its own that shows the same. -/
theorem duplicate_of_ok {t t' : Tensor} (hv : t.Valid s) (hh : s.Holds hs) (ht : t.held ⊆ hs)
    (h : t.duplicate s = (.ok t', s')) :
    s.Shows s' ∧ (t.block = none → t' = t) ∧
      ∀ b, t.block = some b →
        t' = { t with block := some s.blocks.size } ∧ Twin b s.blocks.size s s' := by
  obtain ⟨out, s₁, hblank, hrest⟩ := bind_eq_ok_iff.mp h
  rw [blankLike_eq] at hblank
  cases hn : t.shape.byteSize t.dtype with
  | error e =>
    rw [hn] at hblank
    cases hblank
  | ok n =>
    rw [hn] at hblank
    cases hblank
    cases hb : t.block with
    | none =>
      rw [hb] at hrest
      cases hrest
      refine ⟨(s.shows_acquire t.device n).release (Nat.le_refl _), fun _ => ?_, fun b hb => ?_⟩
      · obtain ⟨hshape, -⟩ := hv.bare hb
        obtain ⟨shape, dtype, transposed, device, block⟩ := t
        cases hshape
        cases hb
        rfl
      · cases hb
    | some b =>
      rw [hb] at hrest
      have hf := hv.filled b hb
      have hsize : n = (s.block b).size := (Shape.of_byteSize hn).2.1.trans hf.size.symm
      rw [hsize] at hrest
      obtain ⟨_, _, hbound, hrest⟩ := bind_eq_ok_iff.mp hrest
      cases hbound
      obtain ⟨_, _, hcopy, hrest⟩ := bind_eq_ok_iff.mp hrest
      cases hrest
      have hmem : b ∈ hs := ht (by simp [held, hb])
      have htwin := twin_of_duplicated hb hf hh hmem (onFailure_eq_ok_iff.mp hcopy)
      refine ⟨htwin.shows, fun hnone => ?_, fun c hc => ?_⟩
      · cases hnone
      · cases hc
        exact ⟨rfl, htwin⟩

end Tensor

end DeviceTensor
