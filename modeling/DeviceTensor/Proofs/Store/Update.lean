import DeviceTensor.Store.Copy
set_option autoImplicit false

/-!
# Looking up after an update

What a device and a block of a store are after each of the updates that actions are made of.
-/

namespace DeviceTensor.Store

variable {s : Store}

/-! ## Single updates -/

@[simp] theorem block_modifyDevice (d : DeviceId) (f : Device → Device) (b : BlockId) :
    (s.modifyDevice d f).block b = s.block b := rfl

@[simp] theorem device_modifyBlock (b : BlockId) (f : Block → Block) (d : DeviceId) :
    (s.modifyBlock b f).device d = s.device d := rfl

@[simp] theorem registry_modifyDevice (d : DeviceId) (f : Device → Device) :
    (s.modifyDevice d f).registry = s.registry := rfl

@[simp] theorem registry_modifyBlock (b : BlockId) (f : Block → Block) :
    (s.modifyBlock b f).registry = s.registry := rfl

@[simp] theorem library_modifyDevice (d : DeviceId) (f : Device → Device) :
    (s.modifyDevice d f).library = s.library := rfl

@[simp] theorem library_modifyBlock (b : BlockId) (f : Block → Block) :
    (s.modifyBlock b f).library = s.library := rfl

@[simp] theorem size_blocks_modifyBlock (b : BlockId) (f : Block → Block) :
    (s.modifyBlock b f).blocks.size = s.blocks.size := Array.size_modify

@[simp] theorem blocks_modifyDevice (d : DeviceId) (f : Device → Device) :
    (s.modifyDevice d f).blocks = s.blocks := rfl

theorem block_modifyBlock (b c : BlockId) (f : Block → Block) :
    (s.modifyBlock b f).block c =
      if b = c ∧ c < s.blocks.size then f (s.block c) else s.block c := by
  simp only [block, modifyBlock, Array.getD_eq_getD_getElem?, Array.getElem?_modify]
  by_cases hb : b = c
  · by_cases hc : c < s.blocks.size <;> simp [hb, hc]
  · simp [hb]

theorem block_modifyBlock_self {b : BlockId} (f : Block → Block) (hb : b < s.blocks.size) :
    (s.modifyBlock b f).block b = f (s.block b) := by
  simp [block_modifyBlock, hb]

theorem block_modifyBlock_of_ne {b c : BlockId} (f : Block → Block) (h : b ≠ c) :
    (s.modifyBlock b f).block c = s.block c := by
  simp [block_modifyBlock, h]

theorem device_modifyDevice (d e : DeviceId) (f : Device → Device) :
    (s.modifyDevice d f).device e =
      if d = e ∧ e < s.devices.size then f (s.device e) else s.device e := by
  simp only [device, modifyDevice, Array.getD_eq_getD_getElem?, Array.getElem?_modify]
  by_cases hd : d = e
  · by_cases he : e < s.devices.size <;> simp [hd, he]
  · simp [hd]

theorem modifyDevice_id (d : DeviceId) : s.modifyDevice d id = s := by
  have h : s.devices.modify d id = s.devices := by
    apply Array.ext
    · exact Array.size_modify
    · intro i h₁ h₂
      rw [Array.getElem_modify]
      split <;> rfl
  unfold modifyDevice
  rw [h]

/-- A device that is updated twice. -/
theorem modifyDevice_modifyDevice (d : DeviceId) (f g : Device → Device) :
    (s.modifyDevice d f).modifyDevice d g = s.modifyDevice d fun k => g (f k) := by
  have h : (s.devices.modify d f).modify d g = s.devices.modify d fun k => g (f k) := by
    apply Array.ext
    · simp only [Array.size_modify]
    · intro i h₁ h₂
      simp only [Array.getElem_modify]
      split <;> rfl
  unfold modifyDevice
  dsimp only
  rw [h]

theorem modifyBlock_id (b : BlockId) : s.modifyBlock b id = s := by
  have h : s.blocks.modify b id = s.blocks := by
    apply Array.ext
    · exact Array.size_modify
    · intro i h₁ h₂
      rw [Array.getElem_modify]
      split <;> rfl
  unfold modifyBlock
  rw [h]

/-- An update is what it makes of the block. -/
theorem modifyBlock_congr {b : BlockId} {f g : Block → Block} (h : f (s.block b) = g (s.block b)) :
    s.modifyBlock b f = s.modifyBlock b g := by
  have hblocks : s.blocks.modify b f = s.blocks.modify b g := by
    apply Array.ext
    · simp
    · intro i h₁ h₂
      have hi : i < s.blocks.size := by simpa using h₁
      rw [Array.getElem_modify, Array.getElem_modify]
      split
      · rename_i hb
        subst hb
        simpa [block, Array.getD_eq_getD_getElem?, hi] using h
      · rfl
  unfold modifyBlock
  rw [hblocks]

/-- What an update keeps of the block it changes, it keeps of every block. -/
theorem modifyBlock_keeps {γ : Type} (g : Block → γ) {b : BlockId} {f : Block → Block}
    (h : g (f (s.block b)) = g (s.block b)) (c : BlockId) :
    g ((s.modifyBlock b f).block c) = g (s.block c) := by
  rw [block_modifyBlock]
  split
  · rename_i hc
    rw [← hc.1, h]
  · rfl

/-- What an update keeps of the device it changes, it keeps of every device. -/
theorem modifyDevice_keeps {γ : Type} (g : Device → γ) {d : DeviceId} {f : Device → Device}
    (h : g (f (s.device d)) = g (s.device d)) (e : DeviceId) :
    g ((s.modifyDevice d f).device e) = g (s.device e) := by
  rw [device_modifyDevice]
  split
  · rename_i hd
    rw [← hd.1, h]
  · rfl

/-! ## New blocks -/

@[simp] theorem acquire_fst (d : DeviceId) (n : Nat) : (s.acquire d n).1 = s.blocks.size := rfl

@[simp] theorem size_blocks_acquire (d : DeviceId) (n : Nat) :
    (s.acquire d n).2.blocks.size = s.blocks.size + 1 := Array.size_push _

@[simp] theorem device_acquire (d : DeviceId) (n : Nat) (e : DeviceId) :
    (s.acquire d n).2.device e = s.device e := rfl

@[simp] theorem registry_acquire (d : DeviceId) (n : Nat) :
    (s.acquire d n).2.registry = s.registry := rfl

@[simp] theorem library_acquire (d : DeviceId) (n : Nat) :
    (s.acquire d n).2.library = s.library := rfl

theorem block_acquire (d : DeviceId) (n : Nat) (b : BlockId) :
    (s.acquire d n).2.block b =
      if b = s.blocks.size then ⟨d, n, 1, .unbound⟩ else s.block b := by
  simp only [block, acquire, Array.getD_eq_getD_getElem?, Array.getElem?_push]
  split <;> rfl

theorem block_acquire_self (d : DeviceId) (n : Nat) :
    (s.acquire d n).2.block s.blocks.size = ⟨d, n, 1, .unbound⟩ := by
  simp [block_acquire]

theorem block_acquire_of_lt {d : DeviceId} {n : Nat} {b : BlockId} (hb : b < s.blocks.size) :
    (s.acquire d n).2.block b = s.block b := by
  simp [block_acquire, Nat.ne_of_lt hb]

/-! ## Handles -/

@[simp] theorem device_retain (b : BlockId) (d : DeviceId) : (s.retain b).device d = s.device d :=
  rfl

@[simp] theorem registry_retain (b : BlockId) : (s.retain b).registry = s.registry := rfl

@[simp] theorem library_retain (b : BlockId) : (s.retain b).library = s.library := rfl

@[simp] theorem size_blocks_retain (b : BlockId) :
    (s.retain b).blocks.size = s.blocks.size := size_blocks_modifyBlock _ _

/-- Giving memory back keeps what a block is besides its memory. -/
theorem giveBack_keeps {γ : Type} (g : Block → γ)
    (h : ∀ k, g { k with memory := .released } = g k) (b c : BlockId) :
    g ((s.giveBack b).block c) = g (s.block c) := by
  unfold giveBack
  split
  · exact modifyBlock_keeps g (h _) c
  · rfl
  · rfl

/-- Letting go of a block keeps what it is besides its memory and the number of its handles. -/
theorem release_keeps {γ : Type} (g : Block → γ)
    (hm : ∀ k, g { k with memory := .released } = g k)
    (hh : ∀ k : Block, g { k with handles := k.handles - 1 } = g k) (b c : BlockId) :
    g ((s.release b).block c) = g (s.block c) := by
  unfold release
  dsimp only
  split
  · rw [giveBack_keeps g hm, modifyBlock_keeps g (hh _)]
  · rw [modifyBlock_keeps g (hh _)]

@[simp] theorem size_blocks_giveBack (b : BlockId) :
    (s.giveBack b).blocks.size = s.blocks.size := by
  unfold giveBack
  split <;> simp

@[simp] theorem size_blocks_release (b : BlockId) :
    (s.release b).blocks.size = s.blocks.size := by
  unfold release
  dsimp only
  split <;> simp

@[simp] theorem registry_release (b : BlockId) : (s.release b).registry = s.registry := by
  unfold release giveBack
  dsimp only
  split
  · split <;> rfl
  · rfl

@[simp] theorem library_release (b : BlockId) : (s.release b).library = s.library := by
  unfold release giveBack
  dsimp only
  split
  · split <;> rfl
  · rfl

/-- Letting go of a block keeps what memory that is taken back does not change about a device. -/
theorem release_keeps_device {γ : Type} (g : Device → γ)
    (h : ∀ (d : Device) n, g (d.reclaim n) = g d) (b : BlockId) (d : DeviceId) :
    g ((s.release b).device d) = g (s.device d) := by
  unfold release giveBack
  dsimp only
  split
  · split
    · exact modifyDevice_keeps g (h _ _) d
    · rfl
    · rfl
  · rfl

/-- Letting go of a block tells a device at most that memory is taken back. -/
theorem asked_release (b : BlockId) (d : DeviceId) :
    ((s.release b).device d).asked = (s.device d).asked ∨
      ∃ n, ((s.release b).device d).asked = .release n :: (s.device d).asked := by
  unfold release giveBack
  dsimp only
  split
  · split
    · rw [device_modifyBlock, device_modifyDevice]
      split
      · exact .inr ⟨_, rfl⟩
      · exact .inl rfl
    · exact .inl rfl
    · exact .inl rfl
  · exact .inl rfl

theorem block_release_of_ne {b c : BlockId} (h : b ≠ c) :
    (s.release b).block c = s.block c := by
  unfold release giveBack
  dsimp only
  split
  · split
    · rw [block_modifyBlock_of_ne _ h, block_modifyDevice, block_modifyBlock_of_ne _ h]
    · rw [block_modifyBlock_of_ne _ h]
    · rw [block_modifyBlock_of_ne _ h]
  · rw [block_modifyBlock_of_ne _ h]

end DeviceTensor.Store
