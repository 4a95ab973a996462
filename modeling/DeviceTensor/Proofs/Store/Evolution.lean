import DeviceTensor.Proofs.Action
import DeviceTensor.Proofs.Store.Update
set_option autoImplicit false

/-!
# How a store evolves

No action changes where a block lies, how long it is, or what a device is like: `Store.Extends`.
`Store.Holds s hs` says that the handles on the blocks of `s` are those of the list `hs`, one entry
for each handle, and that the memory behind every block is in order.  Work on blocks that makes and
drops no handle of its own preserves it for every list: `Store.Keeps`.
-/

namespace DeviceTensor

namespace Device

/-- What a device is, apart from its state. -/
def description (d : Device) : Device :=
  { d with asked := [], held := 0, copies := none, stream := { seed := 0 } }

/-- The device grants blocks of `n` bytes, whatever it was asked for before. -/
def Supplies (d : Device) (n : Nat) : Prop := ∀ earlier, d.answers earlier (.allocate n) = .ok ()

section

variable {d d' : Device} (h : d'.description = d.description)
include h

theorem name_of_description : d'.name = d.name := (Device.mk.inj h).1

theorem backend_of_description : d'.backend = d.backend := (Device.mk.inj h).2.1

theorem addressable_of_description : d'.addressable = d.addressable := (Device.mk.inj h).2.2.1

theorem answers_of_description : d'.answers = d.answers := (Device.mk.inj h).2.2.2.1

theorem draws_of_description : d'.draws = d.draws := (Device.mk.inj h).2.2.2.2.1

theorem supplies_of_description {n : Nat} : d'.Supplies n ↔ d.Supplies n := by
  unfold Supplies
  rw [answers_of_description h]

end

/-! ## What host memory supplies -/

theorem checkHostSize_of_lt {n : Nat} (h : n < hostCapacity) : checkHostSize n = .ok () := by
  refine if_pos ?_
  unfold hostCapacity at h
  unfold hostAlignment
  omega

theorem hostGrants_of_lt {n : Nat} (h : n < hostCapacity) : hostGrants n = .ok () := by
  unfold hostGrants
  rw [checkHostSize_of_lt h]
  exact if_neg (Nat.not_le.mpr h)

theorem limitedGrants_of_lt {n : Nat} (h : n < hostCapacity) : limitedGrants none n = .ok () := by
  unfold limitedGrants
  rw [checkHostSize_of_lt h]
  exact hostGrants_of_lt h

/-- Host memory without a limit supplies every block below its capacity. -/
theorem supplies_of_host {d : Device} (h : d.answers = hostAnswers none) {n : Nat}
    (hn : n < hostCapacity) : d.Supplies n := by
  intro earlier
  rw [h]
  exact limitedGrants_of_lt hn

end Device

namespace Store

/-! ## Descriptions stay -/

/-- Devices, registry and library are described as before, and every block is where it was. -/
structure Extends (s s' : Store) : Prop where
  device : ∀ d, (s'.device d).description = (s.device d).description
  registry : s'.registry = s.registry
  library : s'.library = s.library
  blocks_le : s.blocks.size ≤ s'.blocks.size
  place : ∀ b, b < s.blocks.size → (s'.block b).device = (s.block b).device
  size : ∀ b, b < s.blocks.size → (s'.block b).size = (s.block b).size

namespace Extends

theorem refl (s : Store) : s.Extends s :=
  ⟨fun _ => rfl, rfl, rfl, Nat.le_refl _, fun _ _ => rfl, fun _ _ => rfl⟩

theorem trans {s t u : Store} (h : s.Extends t) (h' : t.Extends u) : s.Extends u where
  device d := (h'.device d).trans (h.device d)
  registry := h'.registry.trans h.registry
  library := h'.library.trans h.library
  blocks_le := Nat.le_trans h.blocks_le h'.blocks_le
  place b hb := (h'.place b (Nat.lt_of_lt_of_le hb h.blocks_le)).trans (h.place b hb)
  size b hb := (h'.size b (Nat.lt_of_lt_of_le hb h.blocks_le)).trans (h.size b hb)

variable {s s' : Store}

theorem backend (h : s.Extends s') (d : DeviceId) : s'.backend d = s.backend d :=
  Device.backend_of_description (h.device d)

theorem addressable (h : s.Extends s') (d : DeviceId) :
    (s'.device d).addressable = (s.device d).addressable :=
  Device.addressable_of_description (h.device d)

theorem lt {b : BlockId} (h : s.Extends s') (hb : b < s.blocks.size) : b < s'.blocks.size :=
  Nat.lt_of_lt_of_le hb h.blocks_le

/-- The device that owns a block is described as before. -/
theorem owner {b : BlockId} (h : s.Extends s') (hb : b < s.blocks.size) :
    (s'.owner b).description = (s.owner b).description := by
  unfold Store.owner
  rw [h.place b hb, h.device]

end Extends

/-! ## Handles and memory -/

/-- The handles on the blocks of the store are those of `hs`, and bound memory has the size of its
block. -/
structure Holds (s : Store) (hs : List BlockId) : Prop where
  lt : ∀ b, b ∈ hs → b < s.blocks.size
  handles : ∀ b, b < s.blocks.size → (s.block b).handles = hs.count b
  bound : ∀ b bytes, (s.block b).memory = .bound bytes →
    bytes.size = (s.block b).size
  released : ∀ b, (s.block b).memory = .released → b ∉ hs

theorem device_of_le {s : Store} {d : DeviceId} (h : s.devices.size ≤ d) :
    s.device d = default := by
  simp [device, Array.getD_eq_getD_getElem?, h]

theorem block_of_le {s : Store} {b : BlockId} (h : s.blocks.size ≤ b) : s.block b = default := by
  simp [block, Array.getD_eq_getD_getElem?, h]

/-- A block has a holder only if it is there. -/
theorem lt_of_handles {s : Store} {b : BlockId} (h : 0 < (s.block b).handles) :
    b < s.blocks.size := by
  refine Nat.lt_of_not_le fun hle => ?_
  rw [block_of_le hle] at h
  exact Nat.lt_irrefl 0 h

theorem memory_of_le {s : Store} {b : BlockId} (h : s.blocks.size ≤ b) :
    (s.block b).memory = .unbound := by
  rw [block_of_le h]
  rfl

namespace Holds

variable {s : Store} {hs hs' : List BlockId}

/-- A block that is held has a handle. -/
theorem handles_pos (h : s.Holds hs) {b : BlockId} (hb : b ∈ hs) : 0 < (s.block b).handles := by
  rw [h.handles b (h.lt b hb)]
  exact List.count_pos_iff.mpr hb

theorem perm (h : s.Holds hs) (p : hs.Perm hs') : s.Holds hs' where
  lt b hb := h.lt b (p.mem_iff.mpr hb)
  handles b hb := (h.handles b hb).trans (p.count_eq b)
  bound := h.bound
  released b hm hb := h.released b hm (p.mem_iff.mpr hb)

/-- A new block has one handle. -/
theorem acquire (h : s.Holds hs) (d : DeviceId) (n : Nat) :
    (s.acquire d n).2.Holds (s.blocks.size :: hs) where
  lt b hb := by
    rw [size_blocks_acquire]
    cases hb with
    | head => exact Nat.lt_succ_self _
    | tail _ hb => exact Nat.lt_succ_of_lt (h.lt b hb)
  handles b hb := by
    rw [size_blocks_acquire] at hb
    rw [block_acquire]
    split
    · rename_i heq
      subst heq
      have hnew : s.blocks.size ∉ hs := fun hm => Nat.lt_irrefl _ (h.lt _ hm)
      simp [List.count_eq_zero_of_not_mem hnew]
    · rename_i hne
      have hlt : b < s.blocks.size := Nat.lt_of_le_of_ne (Nat.le_of_lt_succ hb) hne
      simp [h.handles b hlt, Ne.symm hne]
  bound b bytes hm := by
    rw [block_acquire] at hm ⊢
    split
    · rename_i heq
      simp [heq] at hm
    · rename_i hne
      simp only [if_neg hne] at hm
      exact h.bound b bytes hm
  released b hm := by
    rw [block_acquire] at hm
    split at hm
    · cases hm
    · rename_i hne
      simp only [List.mem_cons, not_or]
      exact ⟨hne, h.released b hm⟩

/-- One more holder of a block that has one. -/
theorem retain {b : BlockId} (h : s.Holds hs) (hb : b ∈ hs) : (s.retain b).Holds (b :: hs) where
  lt c hc := by
    rw [size_blocks_retain]
    cases hc with
    | head => exact h.lt b hb
    | tail _ hc => exact h.lt c hc
  handles c hc := by
    rw [size_blocks_retain] at hc
    unfold Store.retain
    by_cases hbc : b = c
    · subst hbc
      rw [block_modifyBlock_self _ hc]
      simp [h.handles b hc]
    · rw [block_modifyBlock_of_ne _ hbc, h.handles c hc]
      simp [hbc]
  bound c bytes hm := by
    unfold Store.retain at *
    rw [modifyBlock_keeps Block.memory rfl] at hm
    rw [modifyBlock_keeps Block.size rfl]
    exact h.bound c bytes hm
  released c hm := by
    unfold Store.retain at hm
    rw [modifyBlock_keeps Block.memory rfl] at hm
    simp only [List.mem_cons, not_or]
    exact ⟨fun heq => h.released c hm (heq ▸ hb), h.released c hm⟩

end Holds

/-- One handle less on `b`, its memory being as it was. -/
theorem Holds.drop {s : Store} {hs : List BlockId} {b : BlockId} (h : s.Holds (b :: hs)) :
    (s.modifyBlock b fun k => { k with handles := k.handles - 1 }).Holds hs where
  lt c hc := by
    rw [size_blocks_modifyBlock]
    exact h.lt c (List.mem_cons_of_mem _ hc)
  handles c hc := by
    rw [size_blocks_modifyBlock] at hc
    by_cases hbc : b = c
    · subst hbc
      rw [block_modifyBlock_self _ hc]
      simp [h.handles b hc]
    · rw [block_modifyBlock_of_ne _ hbc, h.handles c hc]
      simp [hbc]
  bound c bytes hm := by
    rw [modifyBlock_keeps Block.memory rfl] at hm
    rw [modifyBlock_keeps Block.size rfl]
    exact h.bound c bytes hm
  released c hm hc := by
    rw [modifyBlock_keeps Block.memory rfl] at hm
    exact h.released c hm (List.mem_cons_of_mem _ hc)

/-- The memory of a block without a handle can be given back. -/
theorem Holds.giveBack {s : Store} {hs : List BlockId} {b : BlockId} (h : s.Holds hs)
    (hb : b ∉ hs) : (s.giveBack b).Holds hs := by
  have hmemory (c : BlockId) : ((s.giveBack b).block c).memory = (s.block c).memory ∨
      c = b ∧ ((s.giveBack b).block c).memory = .released := by
    unfold Store.giveBack
    split
    · rw [block_modifyBlock]
      split
      · rename_i heq
        exact .inr ⟨heq.1.symm, rfl⟩
      · exact .inl rfl
    · exact .inl rfl
    · exact .inl rfl
  constructor
  · intro c hc
    rw [size_blocks_giveBack]
    exact h.lt c hc
  · intro c hc
    rw [size_blocks_giveBack] at hc
    rw [giveBack_keeps Block.handles fun _ => rfl]
    exact h.handles c hc
  · intro c bytes hm
    rw [giveBack_keeps Block.size fun _ => rfl]
    obtain hc | ⟨-, hc⟩ := hmemory c
    · exact h.bound c bytes (hc ▸ hm)
    · rw [hc] at hm
      cases hm
  · intro c hm
    obtain hc | ⟨rfl, -⟩ := hmemory c
    · exact h.released c (hc ▸ hm)
    · exact hb

/-- One holder less of a block. -/
theorem Holds.release {s : Store} {hs : List BlockId} {b : BlockId} (h : s.Holds (b :: hs)) :
    (s.release b).Holds hs := by
  have hcount : (s.block b).handles = hs.count b + 1 := by
    rw [h.handles b (h.lt b List.mem_cons_self), List.count_cons_self]
  unfold Store.release
  dsimp only
  split
  · rename_i hone
    have hlast : b ∉ hs := by
      rw [← List.count_eq_zero]
      omega
    exact h.drop.giveBack hlast
  · exact h.drop

theorem extends_acquire (s : Store) (d : DeviceId) (n : Nat) : s.Extends (s.acquire d n).2 where
  device _ := rfl
  registry := rfl
  library := rfl
  blocks_le := by simp
  place b hb := by rw [block_acquire_of_lt hb]
  size b hb := by rw [block_acquire_of_lt hb]

theorem extends_release (s : Store) (b : BlockId) : s.Extends (s.release b) where
  device d := release_keeps_device Device.description (fun _ _ => rfl) b d
  registry := registry_release b
  library := library_release b
  blocks_le := by simp
  place c _ := release_keeps Block.device (fun _ => rfl) (fun _ => rfl) b c
  size c _ := release_keeps Block.size (fun _ => rfl) (fun _ => rfl) b c

theorem extends_retain (s : Store) (b : BlockId) : s.Extends (s.retain b) where
  device _ := rfl
  registry := rfl
  library := rfl
  blocks_le := by simp
  place c _ := modifyBlock_keeps Block.device rfl c
  size c _ := modifyBlock_keeps Block.size rfl c

/-! ## Work on blocks -/

/-- The store evolves, and whoever held a handle before holds it still. -/
structure Keeps (s s' : Store) : Prop where
  extend : s.Extends s'
  holds : ∀ hs, s.Holds hs → s'.Holds hs

instance : Action.Frame Keeps where
  refl s := ⟨.refl s, fun _ h => h⟩
  trans h h' := ⟨h.extend.trans h'.extend, fun hs hh => h'.holds hs (h.holds hs hh)⟩

/-- A change of a device that leaves its description alone. -/
theorem keeps_modifyDevice (s : Store) (d : DeviceId) {f : Device → Device}
    (hf : (f (s.device d)).description = (s.device d).description) :
    s.Keeps (s.modifyDevice d f) where
  extend := ⟨modifyDevice_keeps Device.description hf, rfl, rfl, Nat.le_refl _, fun _ _ => rfl,
    fun _ _ => rfl⟩
  holds _ h := ⟨h.lt, h.handles, h.bound, h.released⟩

/-- A change of the memory of a block that leaves it in order. -/
theorem keeps_modifyMemory (s : Store) (b : BlockId) {m : Memory}
    (hbound : ∀ bytes, m = .bound bytes → (∃ old, (s.block b).memory = .bound old ∧
      bytes.size = old.size) ∨ bytes.size = (s.block b).size)
    (hreleased : m = .released → (s.block b).memory = .released) :
    s.Keeps (s.modifyBlock b fun k => { k with memory := m }) where
  extend := ⟨fun _ => rfl, rfl, rfl, by simp, fun c _ => modifyBlock_keeps Block.device rfl c,
    fun c _ => modifyBlock_keeps Block.size rfl c⟩
  holds hs h := by
    constructor
    · intro c hc
      rw [size_blocks_modifyBlock]
      exact h.lt c hc
    · intro c hc
      rw [size_blocks_modifyBlock] at hc
      rw [modifyBlock_keeps Block.handles rfl]
      exact h.handles c hc
    · intro c bytes hm
      rw [modifyBlock_keeps Block.size rfl]
      rw [block_modifyBlock] at hm
      split at hm
      · rename_i hc
        obtain ⟨rfl, -⟩ := hc
        obtain ⟨old, hold, hsize⟩ | hnew := hbound bytes hm
        · rw [hsize]
          exact h.bound b old hold
        · exact hnew
      · exact h.bound c bytes hm
    · intro c hm
      rw [block_modifyBlock] at hm
      split at hm
      · rename_i hc
        obtain ⟨rfl, -⟩ := hc
        exact h.released b (hreleased hm)
      · exact h.released c hm

end Store

end DeviceTensor
