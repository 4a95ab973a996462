import DeviceTensor.Proofs.Routine.Launch
import DeviceTensor.Proofs.Store.Sight
set_option autoImplicit false

/-!
# What a store keeps

Two more relations between the stores before and after some steps.  `Store.Spares` is the narrowest:
everything that was there is still the same, down to the memory that is bound.  `Store.Leaves` is
the widest: the bytes of every block but one can still be read, unless the last holder of a block
let go of it.  `Store.Shows` lies between them.  Blocks that were made on the way do not count, so
that an operation is free to write the blocks that it makes.
-/

namespace DeviceTensor.Store

/-! ## Nothing has happened -/

/-- What was there is as it was, and what was made since has no memory. -/
structure Spares (s s' : Store) : Prop where
  devices : s'.devices = s.devices
  registry : s'.registry = s.registry
  library : s'.library = s.library
  blocks_le : s.blocks.size ≤ s'.blocks.size
  block : ∀ b, b < s.blocks.size → s'.block b = s.block b
  fresh : ∀ b, s.blocks.size ≤ b → (s'.block b).memory = .unbound

/-- A block without memory loses a handle and nothing else. -/
theorem release_of_unbound {s : Store} {b : BlockId} (h : (s.block b).memory = .unbound) :
    s.release b = s.modifyBlock b fun k => { k with handles := k.handles - 1 } := by
  have hdropped : ((s.modifyBlock b fun k => { k with handles := k.handles - 1 }).block b).memory =
      .unbound := by
    rw [modifyBlock_keeps Block.memory rfl, h]
  unfold release giveBack
  dsimp only
  rw [hdropped]
  split <;> rfl

namespace Spares

variable {s t u : Store}

theorem refl (s : Store) : s.Spares s where
  devices := rfl
  registry := rfl
  library := rfl
  blocks_le := Nat.le_refl _
  block _ _ := rfl
  fresh _ hb := memory_of_le hb

theorem trans (h : s.Spares t) (h' : t.Spares u) : s.Spares u where
  devices := h'.devices.trans h.devices
  registry := h'.registry.trans h.registry
  library := h'.library.trans h.library
  blocks_le := Nat.le_trans h.blocks_le h'.blocks_le
  block b hb := (h'.block b (Nat.lt_of_lt_of_le hb h.blocks_le)).trans (h.block b hb)
  fresh b hb := by
    rcases Nat.lt_or_ge b t.blocks.size with hlt | hge
    · rw [h'.block b hlt]
      exact h.fresh b hb
    · exact h'.fresh b hge

theorem acquire (s : Store) (d : DeviceId) (n : Nat) : s.Spares (s.acquire d n).2 where
  devices := rfl
  registry := rfl
  library := rfl
  blocks_le := by simp
  block _ hb := block_acquire_of_lt hb
  fresh b hb := by
    rw [block_acquire]
    split
    · rfl
    · exact memory_of_le hb

/-- A change of a block that was not there before, which gives it no memory. -/
theorem modifyBlock (h : s.Spares t) {b : BlockId} (hb : s.blocks.size ≤ b) {f : Block → Block}
    (hf : ∀ k, (f k).memory = k.memory) : s.Spares (t.modifyBlock b f) where
  devices := h.devices
  registry := h.registry
  library := h.library
  blocks_le := by
    rw [size_blocks_modifyBlock]
    exact h.blocks_le
  block c hc := by
    rw [block_modifyBlock_of_ne _ (Nat.ne_of_gt (Nat.lt_of_lt_of_le hc hb))]
    exact h.block c hc
  fresh c hc := by
    rw [modifyBlock_keeps Block.memory (hf _)]
    exact h.fresh c hc

/-- Letting go of a block that was not there before. -/
theorem release (h : s.Spares t) {b : BlockId} (hb : s.blocks.size ≤ b) :
    s.Spares (t.release b) := by
  rw [release_of_unbound (h.fresh b hb)]
  exact h.modifyBlock hb fun _ => rfl

/-- A handle that is taken and given back. -/
theorem release_retain {b : BlockId} (h : 0 < (s.block b).handles) :
    s.Spares ((s.retain b).release b) := by
  have hlt := lt_of_handles h
  have hmore : ((s.retain b).block b).handles = (s.block b).handles + 1 := by
    rw [retain, block_modifyBlock_self _ hlt]
  have hstill : ((s.retain b).block b).handles ≠ 1 := by omega
  have hsame (c : BlockId) : ((s.retain b).release b).block c = s.block c := by
    unfold Store.release
    dsimp only
    rw [if_neg hstill]
    by_cases hc : b = c
    · subst hc
      rw [block_modifyBlock_self _ (by simpa using hlt), retain, block_modifyBlock_self _ hlt]
      simp
    · rw [block_modifyBlock_of_ne _ hc, retain, block_modifyBlock_of_ne _ hc]
  constructor
  · unfold Store.release
    dsimp only
    rw [if_neg hstill]
    rfl
  · rw [registry_release, registry_retain]
  · rw [library_release, library_retain]
  · simp
  · exact fun c _ => hsame c
  · intro c hc
    rw [hsame]
    exact memory_of_le hc

/-- What is spared shows the same. -/
theorem shows (h : s.Spares t) : s.Shows t := by
  have hdevice (d : DeviceId) : t.device d = s.device d := by
    unfold Store.device
    rw [h.devices]
  constructor
  · exact ⟨fun d => congrArg _ (hdevice d), h.registry, h.library, h.blocks_le,
      fun b hb => congrArg _ (h.block b hb), fun b hb => congrArg _ (h.block b hb)⟩
  · exact fun d => congrArg _ (hdevice d)
  · exact fun b hb => Block.sight_of_eq (h.block b hb) fun d => congrArg _ (hdevice d)

end Spares

/-! ## Bytes can still be read -/

theorem memory_giveBack (s : Store) (b c : BlockId) :
    ((s.giveBack b).block c).memory = (s.block c).memory ∨
      ((s.giveBack b).block c).memory = .released := by
  unfold giveBack
  split
  · rw [block_modifyBlock]
    split
    · exact .inr rfl
    · exact .inl rfl
  · exact .inl rfl
  · exact .inl rfl

/-- Letting go of a block leaves the memory of every block, or gives it back. -/
theorem memory_release (s : Store) (b c : BlockId) :
    ((s.release b).block c).memory = (s.block c).memory ∨
      ((s.release b).block c).memory = .released := by
  have hdropped : ((s.modifyBlock b fun k => { k with handles := k.handles - 1 }).block c).memory =
      (s.block c).memory := modifyBlock_keeps Block.memory rfl c
  unfold release
  dsimp only
  split
  · rw [← hdropped]
    exact memory_giveBack _ b c
  · exact .inl hdropped

/-- The bytes of every block but `dst` can still be read, unless its memory has been given back;
memory that was given back does not return. -/
structure Leaves (dst : Option BlockId) (s s' : Store) : Prop where
  blocks_le : s.blocks.size ≤ s'.blocks.size
  released : ∀ b, (s.block b).memory = .released → (s'.block b).memory = .released
  contents : ∀ b, b < s.blocks.size → dst ≠ some b → (s'.block b).memory ≠ .released →
    (s'.block b).contents = (s.block b).contents

namespace Leaves

variable {dst : Option BlockId} {s t u : Store}

theorem refl (s : Store) : s.Leaves dst s :=
  ⟨Nat.le_refl _, fun _ h => h, fun _ _ _ _ => rfl⟩

theorem trans (h : s.Leaves dst t) (h' : t.Leaves dst u) : s.Leaves dst u where
  blocks_le := Nat.le_trans h.blocks_le h'.blocks_le
  released b hb := h'.released b (h.released b hb)
  contents b hb hne hlive := by
    have hlive' : (t.block b).memory ≠ .released := fun ht => hlive (h'.released b ht)
    rw [h'.contents b (Nat.lt_of_lt_of_le hb h.blocks_le) hne hlive, h.contents b hb hne hlive']

/-- Where no block may change, none does. -/
theorem widen (h : s.Leaves none t) : s.Leaves dst t where
  blocks_le := h.blocks_le
  released := h.released
  contents b hb _ hlive := h.contents b hb nofun hlive

/-- A step that writes a block that was not there before. -/
theorem fresh {c : BlockId} (h : s.Leaves dst t) (h' : t.Leaves (some c) u)
    (hc : s.blocks.size ≤ c) : s.Leaves dst u where
  blocks_le := Nat.le_trans h.blocks_le h'.blocks_le
  released b hb := h'.released b (h.released b hb)
  contents b hb hne hlive := by
    have hother : some c ≠ some b := fun heq => by
      cases heq
      exact absurd hb (Nat.not_lt_of_le hc)
    have hlive' : (t.block b).memory ≠ .released := fun ht => hlive (h'.released b ht)
    rw [h'.contents b (Nat.lt_of_lt_of_le hb h.blocks_le) hother hlive, h.contents b hb hne hlive']

theorem of_binds (h : s.Binds t) : s.Leaves dst t where
  blocks_le := Nat.le_of_eq h.blocks.symm
  released b hb := by
    rw [h.memory_of_ne (by rw [hb]; exact Memory.noConfusion), hb]
  contents b _ _ _ := h.contents b

theorem of_spares (h : s.Spares t) : s.Leaves dst t where
  blocks_le := h.blocks_le
  released b hb := by
    rcases Nat.lt_or_ge b s.blocks.size with hlt | hge
    · rw [h.block b hlt, hb]
    · rw [memory_of_le hge] at hb
      cases hb
  contents b hb _ _ := congrArg _ (h.block b hb)

theorem release (s : Store) (b : BlockId) : s.Leaves dst (s.release b) where
  blocks_le := by simp
  released c hc := by
    rcases memory_release s b c with hsame | hgone
    · rw [hsame, hc]
    · exact hgone
  contents c _ _ hlive := by
    rcases memory_release s b c with hsame | hgone
    · unfold Block.contents
      rw [hsame, release_keeps Block.size (fun _ => rfl) fun _ => rfl]
    · exact absurd hgone hlive

theorem retain (s : Store) (b : BlockId) : s.Leaves dst (s.retain b) where
  blocks_le := by simp
  released c hc := by
    rw [Store.retain, modifyBlock_keeps Block.memory rfl, hc]
  contents c _ _ _ := modifyBlock_keeps Block.contents rfl c

theorem modifyDevice (s : Store) (d : DeviceId) (f : Device → Device) :
    s.Leaves dst (s.modifyDevice d f) :=
  ⟨Nat.le_refl _, fun _ h => h, fun _ _ _ _ => rfl⟩

theorem modifyBytes (s : Store) (b : BlockId) (f : Array UInt8 → Array UInt8) :
    s.Leaves (some b) (Block.modifyBytes b f s) where
  blocks_le := Nat.le_of_eq (by rw [Block.modifyBytes_eq, size_blocks_modifyBlock])
  released c hc := by
    rw [Block.modifyBytes_eq, block_modifyBlock]
    split
    · rw [hc]
      rfl
    · exact hc
  contents c _ hne _ := by
    rw [Block.block_modifyBytes_of_ne f fun heq => hne (congrArg some heq)]

end Leaves

/-! ## What is still shown -/

/-- What `s₀` shows is still shown after some steps. -/
def StillShows (s₀ s s' : Store) : Prop := s₀.Shows s → s₀.Shows s'

instance (s₀ : Store) : Action.Frame s₀.StillShows where
  refl _ h := h
  trans h h' hs := h' (h hs)

variable {s₀ s s' : Store}

theorem stillShows_of_binds (h : s.Binds s') : s₀.StillShows s s' :=
  fun hs => hs.trans (shows_of_binds h)

/-- A change of the bytes of a block that was not there before. -/
theorem stillShows_modifyBytes {b : BlockId} (hb : s₀.blocks.size ≤ b)
    (f : Array UInt8 → Array UInt8) : s₀.StillShows s (Block.modifyBytes b f s) := by
  intro hs
  rw [Block.modifyBytes_eq]
  exact hs.modifyBlock hb _

end DeviceTensor.Store
