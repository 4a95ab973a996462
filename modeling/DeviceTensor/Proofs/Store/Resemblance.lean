import DeviceTensor.Proofs.Routine.Launch
import DeviceTensor.Proofs.Store.Sight
set_option autoImplicit false

/-!
# Stores that differ in blank memory

A block is blank if it reads as zeros: it has no memory yet, its memory is zeroed, or it has no
holder left.  Two stores resemble each other, `Store.Resembles`, if they differ in nothing but
whether blank blocks have memory, and in what devices account for and were asked for.
Resemblance is an equivalence; binding memory leads from a store to one that resembles it, and
updates that two such stores make alike keep their resemblance.
-/

namespace DeviceTensor

/-! ## Blank blocks -/

/-- The block reads as zeros, and its memory was not given back while it had holders. -/
def Block.Blank (k : Block) : Prop :=
  match k.memory with
  | .unbound => True
  | .bound bytes => bytes = Array.replicate k.size 0
  | .released => k.handles = 0

theorem Block.Blank.contents {k : Block} (h : k.Blank) :
    k.contents = Array.replicate k.size 0 := by
  unfold Blank at h
  unfold Block.contents
  cases hm : k.memory with
  | unbound => rfl
  | released => rfl
  | bound bytes =>
    rw [hm] at h
    exact h

/-- The device, but for what it accounts for and for what it was asked for. -/
def Device.unaccounted (d : Device) : Device := { d with asked := [], held := 0, copies := none }

theorem Device.description_of_unaccounted {d d' : Device} (h : d'.unaccounted = d.unaccounted) :
    d'.description = d.description := by
  have hd := congrArg Device.description h
  exact hd

/-- The blocks are the same, or differ in the memory of a blank block. -/
structure Block.Alike (k k' : Block) : Prop where
  bare : k'.bare = k.bare
  memory : k'.memory = k.memory ∨ k.Blank ∧ k'.Blank

namespace Block.Alike

variable {k k' k'' : Block}

theorem refl (k : Block) : Alike k k := ⟨rfl, .inl rfl⟩

theorem place (h : Alike k k') : k'.device = k.device := (Block.mk.inj h.bare).1

theorem size (h : Alike k k') : k'.size = k.size := (Block.mk.inj h.bare).2.1

theorem handles (h : Alike k k') : k'.handles = k.handles := (Block.mk.inj h.bare).2.2.1

/-- Blocks with the same memory are blank together. -/
theorem blank_iff (h : k'.bare = k.bare) (hm : k'.memory = k.memory) : k'.Blank ↔ k.Blank := by
  have hbare := Block.mk.inj h
  unfold Blank
  rw [hm, hbare.2.1, hbare.2.2.1]

theorem symm (h : Alike k k') : Alike k' k where
  bare := h.bare.symm
  memory := by
    rcases h.memory with hm | ⟨hk, hk'⟩
    · exact .inl hm.symm
    · exact .inr ⟨hk', hk⟩

theorem trans (h : Alike k k') (h' : Alike k' k'') : Alike k k'' where
  bare := h'.bare.trans h.bare
  memory := by
    rcases h.memory with hm | ⟨hk, hk'⟩
    · rcases h'.memory with hm' | ⟨hk', hk''⟩
      · exact .inl (hm'.trans hm)
      · exact .inr ⟨(blank_iff h.bare hm).mp hk', hk''⟩
    · rcases h'.memory with hm' | ⟨-, hk''⟩
      · exact .inr ⟨hk, (blank_iff h'.bare hm').mpr hk'⟩
      · exact .inr ⟨hk, hk''⟩

/-- Blocks that are alike read the same. -/
theorem contents (h : Alike k k') : k'.contents = k.contents := by
  rcases h.memory with hm | ⟨hk, hk'⟩
  · unfold Block.contents
    rw [hm, h.size]
  · rw [hk.contents, hk'.contents, h.size]

/-- Blocks that are alike have the same memory if they have a holder and both have some. -/
theorem memory_eq (h : Alike k k') (hpos : 0 < k.handles) (hk : k.memory ≠ .unbound)
    (hk' : k'.memory ≠ .unbound) : k'.memory = k.memory := by
  have hbound {k : Block} (hb : k.Blank) (hpos : 0 < k.handles) (hm : k.memory ≠ .unbound) :
      k.memory = .bound (Array.replicate k.size 0) := by
    unfold Blank at hb
    cases hmem : k.memory with
    | unbound => exact absurd hmem hm
    | bound bytes =>
      rw [hmem] at hb
      exact congrArg Memory.bound hb
    | released =>
      rw [hmem] at hb
      exact absurd hb (Nat.ne_of_gt hpos)
  rcases h.memory with hm | ⟨hb, hb'⟩
  · exact hm
  · rw [hbound hb hpos hk, hbound hb' (h.handles.symm ▸ hpos) hk', h.size]

/-- The same bytes are changed on both sides. -/
theorem mapMemory (h : Alike k k') (hm : k'.memory = k.memory)
    (f : Array UInt8 → Array UInt8) :
    Alike { k with memory := k.memory.map f } { k' with memory := k'.memory.map f } where
  bare := h.bare
  memory := .inl (congrArg (Memory.map f) hm)

end Block.Alike

/-! ## Resemblance -/

namespace Store

/-- The stores differ in nothing but the memory of blank blocks and what devices account for. -/
structure Resembles (s s' : Store) : Prop where
  devices : s'.devices.size = s.devices.size
  device : ∀ d, (s'.device d).unaccounted = (s.device d).unaccounted
  registry : s'.registry = s.registry
  library : s'.library = s.library
  blocks : s'.blocks.size = s.blocks.size
  block : ∀ b, Block.Alike (s.block b) (s'.block b)

namespace Resembles

variable {s t u s' t' : Store}

theorem description (h : s.Resembles s') (d : DeviceId) :
    (s'.device d).description = (s.device d).description :=
  Device.description_of_unaccounted (h.device d)

theorem stream (h : s.Resembles s') (d : DeviceId) : (s'.device d).stream = (s.device d).stream :=
  (Device.mk.inj (h.device d)).2.2.2.2.2.2.2.2

theorem name (h : s.Resembles s') (d : DeviceId) : (s'.device d).name = (s.device d).name :=
  (Device.mk.inj (h.device d)).1

theorem owner (h : s.Resembles s') (b : BlockId) :
    (s'.owner b).unaccounted = (s.owner b).unaccounted := by
  unfold Store.owner
  rw [(h.block b).place, h.device]

theorem refl (s : Store) : s.Resembles s :=
  ⟨rfl, fun _ => rfl, rfl, rfl, rfl, fun _ => .refl _⟩

theorem symm (h : s.Resembles t) : t.Resembles s where
  devices := h.devices.symm
  device d := (h.device d).symm
  registry := h.registry.symm
  library := h.library.symm
  blocks := h.blocks.symm
  block b := (h.block b).symm

theorem trans (h : s.Resembles t) (h' : t.Resembles u) : s.Resembles u where
  devices := h'.devices.trans h.devices
  device d := (h'.device d).trans (h.device d)
  registry := h'.registry.trans h.registry
  library := h'.library.trans h.library
  blocks := h'.blocks.trans h.blocks
  block b := (h.block b).trans (h'.block b)

/-- Binding memory is not seen. -/
theorem of_binds (h : s.Binds t) : s.Resembles t where
  devices := h.devices
  device d := by
    have hd := congrArg Device.unaccounted (h.device d)
    exact hd
  registry := h.registry
  library := h.library
  blocks := h.blocks
  block b := by
    refine ⟨h.block b, ?_⟩
    rcases h.memory b with hm | ⟨hu, hz⟩
    · exact .inl hm
    · refine .inr ⟨?_, ?_⟩ <;> unfold Block.Blank
      · rw [hu]
        trivial
      · rw [hz]
        exact congrArg (Array.replicate · 0) (h.size b).symm

/-- Memory that is bound on either side is not seen. -/
theorem binds (h : s.Resembles s') (hs : s.Binds t) (hs' : s'.Binds t') : t.Resembles t' :=
  ((of_binds hs).symm.trans h).trans (of_binds hs')

/-! ## What resembling stores show -/

theorem sight (h : s.Resembles s') (b : BlockId) : Block.sight b s' = Block.sight b s := by
  unfold Block.sight
  rw [(h.block b).size, (h.block b).contents, Device.description_of_unaccounted (h.owner b)]

theorem shows (h : s.Resembles s') : s.Shows s' where
  device := h.description
  registry := h.registry
  library := h.library
  blocks_le := Nat.le_of_eq h.blocks.symm
  place b _ := (h.block b).place
  size b _ := (h.block b).size
  stream := h.stream
  sight b _ := h.sight b

theorem deviceNamed? (h : s.Resembles s') (name : String) :
    s'.deviceNamed? name = s.deviceNamed? name := by
  have hget (i : Nat) : (s'.devices[i]?).map Device.name = (s.devices[i]?).map Device.name := by
    have hname := h.name i
    unfold Store.device at hname
    simp only [Array.getD_eq_getD_getElem?] at hname
    by_cases hi : i < s.devices.size
    · have hi' : i < s'.devices.size := h.devices.symm ▸ hi
      rw [Array.getElem?_eq_getElem hi, Array.getElem?_eq_getElem hi'] at hname ⊢
      exact congrArg some hname
    · have hi' : ¬i < s'.devices.size := h.devices.symm ▸ hi
      rw [Array.getElem?_eq_none (Nat.le_of_not_lt hi),
        Array.getElem?_eq_none (Nat.le_of_not_lt hi')]
  have hnames : s'.devices.map Device.name = s.devices.map Device.name := by
    refine Array.ext_getElem? fun i => ?_
    rw [Array.getElem?_map, Array.getElem?_map]
    exact hget i
  have hfind (s : Store) :
      s.deviceNamed? name = (s.devices.map Device.name).findIdx? (· == name) := by
    unfold Store.deviceNamed?
    rw [Array.findIdx?_map]
    rfl
  rw [hfind, hfind, hnames]

/-! ## Updates on both sides -/

theorem acquire (h : s.Resembles s') (d : DeviceId) (n : Nat) :
    (s.acquire d n).2.Resembles (s'.acquire d n).2 where
  devices := h.devices
  device := h.device
  registry := h.registry
  library := h.library
  blocks := by
    rw [size_blocks_acquire, size_blocks_acquire, h.blocks]
  block b := by
    rw [block_acquire, block_acquire, h.blocks]
    split
    · exact .refl _
    · exact h.block b

/-- A change of one block on either side, if it leads to blocks that are alike. -/
theorem modifyBlock (h : s.Resembles s') (b : BlockId) {f : Block → Block}
    (hf : Block.Alike (f (s.block b)) (f (s'.block b))) :
    (s.modifyBlock b f).Resembles (s'.modifyBlock b f) where
  devices := h.devices
  device := h.device
  registry := h.registry
  library := h.library
  blocks := by
    rw [size_blocks_modifyBlock, size_blocks_modifyBlock, h.blocks]
  block c := by
    rw [block_modifyBlock, block_modifyBlock, h.blocks]
    split
    · rename_i hc
      rw [← hc.1]
      exact hf
    · exact h.block c

/-- The same bytes are changed in memory that is the same. -/
theorem modifyBytes (h : s.Resembles s') {b : BlockId}
    (hm : (s'.block b).memory = (s.block b).memory) (f : Array UInt8 → Array UInt8) :
    (Block.modifyBytes b f s).Resembles (Block.modifyBytes b f s') := by
  rw [Block.modifyBytes_eq, Block.modifyBytes_eq]
  exact h.modifyBlock b ((h.block b).mapMemory hm f)

theorem retain (h : s.Resembles s') {b : BlockId} (hpos : 0 < (s.block b).handles) :
    (s.retain b).Resembles (s'.retain b) := by
  have hlive {k : Block} (hpos : 0 < k.handles) (hk : k.Blank) :
      Block.Blank { k with handles := k.handles + 1 } := by
    unfold Block.Blank at *
    cases hm : k.memory with
    | unbound => trivial
    | bound bytes =>
      rw [hm] at hk
      exact hk
    | released =>
      rw [hm] at hk
      exact absurd hk (Nat.ne_of_gt hpos)
  have hbare := Block.mk.inj (h.block b).bare
  refine h.modifyBlock b ⟨?_, ?_⟩
  · exact (Block.mk.injEq ..).mpr ⟨hbare.1, hbare.2.1, congrArg (· + 1) hbare.2.2.1, rfl⟩
  · rcases (h.block b).memory with hm | ⟨hk, hk'⟩
    · exact .inl hm
    · exact .inr ⟨hlive hpos hk, hlive ((h.block b).handles.symm ▸ hpos) hk'⟩

/-- The same change of a device. -/
theorem modifyDevice (h : s.Resembles s') (d : DeviceId) {f : Device → Device}
    (hf : ∀ k k', k'.unaccounted = k.unaccounted → (f k').unaccounted = (f k).unaccounted) :
    (s.modifyDevice d f).Resembles (s'.modifyDevice d f) where
  devices := by
    unfold Store.modifyDevice
    rw [Array.size_modify, Array.size_modify, h.devices]
  device e := by
    rw [device_modifyDevice, device_modifyDevice, h.devices]
    split
    · exact hf _ _ (h.device e)
    · exact h.device e
  registry := h.registry
  library := h.library
  blocks := h.blocks
  block := h.block

/-- The same registration on both sides. -/
theorem register (h : s.Resembles s') (f : Registry Routine → Registry Routine) :
    Resembles { s with registry := f s.registry } { s' with registry := f s'.registry } where
  devices := h.devices
  device := h.device
  registry := congrArg f h.registry
  library := h.library
  blocks := h.blocks
  block := h.block

/-! ## Updates that are not seen -/

/-- What a device accounts for and what it was asked for is not seen. -/
theorem of_accounts (s : Store) (d : DeviceId) {f : Device → Device}
    (hf : ∀ k, (f k).unaccounted = k.unaccounted) : s.Resembles (s.modifyDevice d f) where
  devices := Array.size_modify
  device := modifyDevice_keeps Device.unaccounted (hf _)
  registry := rfl
  library := rfl
  blocks := rfl
  block _ := .refl _

/-- Other memory behind a block that is blank before and after is not seen. -/
theorem of_blank {b : BlockId} {f : Memory → Memory} (hb : (s.block b).Blank)
    (hf : Block.Blank { s.block b with memory := f (s.block b).memory }) :
    s.Resembles (s.modifyBlock b fun k => { k with memory := f k.memory }) where
  devices := rfl
  device _ := rfl
  registry := rfl
  library := rfl
  blocks := size_blocks_modifyBlock b _
  block c := by
    rw [block_modifyBlock]
    split
    · rename_i hc
      rw [← hc.1]
      exact ⟨rfl, .inr ⟨hb, hf⟩⟩
    · exact .refl _

/-- The memory of a blank block without holders is given back unseen. -/
theorem of_giveBack {b : BlockId} (hb : (s.block b).Blank) (hzero : (s.block b).handles = 0) :
    s.Resembles (s.giveBack b) := by
  unfold giveBack
  split
  · have hreclaimed := of_accounts s (s.block b).device (f := (·.reclaim (s.block b).size))
      fun _ => rfl
    exact hreclaimed.trans (of_blank (f := fun _ => .released) hb hzero)
  · exact .refl s
  · exact .refl s

/-- Memory is given back on both sides of blocks without holders. -/
theorem giveBack (h : s.Resembles s') {b : BlockId} (hzero : (s.block b).handles = 0) :
    (s.giveBack b).Resembles (s'.giveBack b) := by
  rcases (h.block b).memory with hm | ⟨hk, hk'⟩
  · unfold Store.giveBack
    rw [hm, (h.block b).place, (h.block b).size]
    split
    · have hdevice := h.modifyDevice (s.block b).device
        (f := (·.reclaim (s.block b).size)) fun _ _ hd => hd
      exact hdevice.modifyBlock b ⟨(h.block b).bare, .inl rfl⟩
    · exact h
    · exact h
  · have hzero' : (s'.block b).handles = 0 := (h.block b).handles.trans hzero
    exact ((of_giveBack hk hzero).symm.trans h).trans (of_giveBack hk' hzero')

theorem release (h : s.Resembles s') (b : BlockId) :
    (s.release b).Resembles (s'.release b) := by
  have hless {k : Block} (hk : k.Blank) : Block.Blank { k with handles := k.handles - 1 } := by
    unfold Block.Blank at *
    cases hm : k.memory with
    | unbound => trivial
    | bound bytes =>
      rw [hm] at hk
      exact hk
    | released =>
      rw [hm] at hk
      exact congrArg (· - 1) (show k.handles = 0 from hk)
  have hbare := Block.mk.inj (h.block b).bare
  have hdropped : (s.modifyBlock b fun k => { k with handles := k.handles - 1 }).Resembles
      (s'.modifyBlock b fun k => { k with handles := k.handles - 1 }) := by
    refine h.modifyBlock b ⟨?_, ?_⟩
    · exact (Block.mk.injEq ..).mpr ⟨hbare.1, hbare.2.1, congrArg (· - 1) hbare.2.2.1, rfl⟩
    · rcases (h.block b).memory with hm | ⟨hk, hk'⟩
      · exact .inl hm
      · exact .inr ⟨hless hk, hless hk'⟩
  unfold Store.release
  dsimp only
  rw [(h.block b).handles]
  split
  · rename_i hone
    refine hdropped.giveBack ?_
    rw [block_modifyBlock]
    split
    · dsimp only
      rw [hone]
    · rename_i hout
      have hle : s.blocks.size ≤ b := Nat.le_of_not_lt fun hlt => hout ⟨rfl, hlt⟩
      rw [block_of_le hle]
      rfl
  · exact hdropped

end Resembles

end Store

end DeviceTensor
