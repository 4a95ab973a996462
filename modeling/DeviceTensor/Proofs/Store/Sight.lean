import DeviceTensor.Proofs.Store.Binding
set_option autoImplicit false

/-!
# What a block shows

`Block.sight` is all that work on a block depends on as long as no memory is refused: its size, its
bytes, and the description of its device.  A store shows another, `Store.Shows`, if every block of
the other is still there and has the same sight.
-/

namespace DeviceTensor

/-- What can be seen of a block. -/
structure Sight where
  size : Nat
  contents : Array UInt8
  owner : Device

namespace Block

/-- What can be seen of a block in a store. -/
def sight (b : BlockId) (s : Store) : Sight where
  size := (s.block b).size
  contents := (s.block b).contents
  owner := (s.owner b).description

theorem checkView_congr {b b' : BlockId} {s s' : Store} (h : sight b' s' = sight b s)
    (d : ElemType) (count : Nat) : checkView b' d count s' = checkView b d count s := by
  obtain ⟨hsize, -, howner⟩ := Sight.mk.inj h
  unfold Store.owner at howner
  unfold checkView
  dsimp only
  rw [Device.addressable_of_description howner, Device.backend_of_description howner,
    Device.name_of_description howner, hsize]

/-- A view shows no more than the sight. -/
theorem seen_congr {b b' : BlockId} {s s' : Store} (h : sight b' s' = sight b s)
    (d : ElemType) (count : Nat) : seen b' d count s' = seen b d count s := by
  obtain ⟨-, hcontents, -⟩ := Sight.mk.inj h
  unfold seen
  rw [checkView_congr h, hcontents]

theorem sight_of_binds {s s' : Store} (h : s.Binds s') (b : BlockId) :
    sight b s' = sight b s := by
  unfold sight
  rw [h.size, h.contents, h.description]

/-- A block that is the same on devices that are described the same has the same sight. -/
theorem sight_of_eq {b : BlockId} {s s' : Store} (hblock : s'.block b = s.block b)
    (hdevice : ∀ d, (s'.device d).description = (s.device d).description) :
    sight b s' = sight b s := by
  have howner : (s'.owner b).description = (s.owner b).description := by
    unfold Store.owner
    rw [hblock, hdevice]
  unfold sight
  rw [hblock, howner]

end Block

namespace Store

/-- The store evolves, and every block of `s` has the same sight in `s'`. -/
structure Shows (s s' : Store) : Prop extends s.Extends s' where
  stream : ∀ d, (s'.device d).stream = (s.device d).stream
  sight : ∀ b, b < s.blocks.size → Block.sight b s' = Block.sight b s

namespace Shows

theorem refl (s : Store) : s.Shows s := ⟨.refl s, fun _ => rfl, fun _ _ => rfl⟩

theorem trans {s t u : Store} (h : s.Shows t) (h' : t.Shows u) : s.Shows u where
  toExtends := h.toExtends.trans h'.toExtends
  stream d := (h'.stream d).trans (h.stream d)
  sight b hb := (h'.sight b (h.lt hb)).trans (h.sight b hb)

variable {s s' : Store}

theorem draws (h : s.Shows s') (d : DeviceId) : (s'.device d).draws = (s.device d).draws :=
  Device.draws_of_description (h.device d)

end Shows

theorem shows_of_binds {s s' : Store} (h : s.Binds s') : s.Shows s' where
  toExtends := h.evolves
  stream := h.stream
  sight b _ := Block.sight_of_binds h b

theorem shows_acquire (s : Store) (d : DeviceId) (n : Nat) : s.Shows (s.acquire d n).2 where
  toExtends := extends_acquire s d n
  stream _ := rfl
  sight _ hb := Block.sight_of_eq (block_acquire_of_lt hb) fun _ => rfl

theorem owner_acquire_self (s : Store) (d : DeviceId) (n : Nat) :
    (s.acquire d n).2.owner s.blocks.size = s.device d := by
  unfold owner
  rw [block_acquire_self, device_acquire]

theorem supplies_acquire_self {s : Store} {d : DeviceId} {n : Nat} :
    (s.acquire d n).2.Supplies s.blocks.size ↔ (s.device d).Supplies n := by
  unfold Supplies
  rw [owner_acquire_self, block_acquire_self]
  exact forall_prop_of_true rfl

theorem supplies_acquire_of_lt {s : Store} {d : DeviceId} {n : Nat} {b : BlockId}
    (hb : b < s.blocks.size) : (s.acquire d n).2.Supplies b ↔ s.Supplies b := by
  unfold Supplies owner
  rw [block_acquire_of_lt hb, device_acquire]

/-- A new block can be viewed exactly when the host addresses its device. -/
theorem seen_acquired_iff {s : Store} {d : DeviceId} {n count : Nat} {dtype : ElemType}
    (hlimit : n < Size.limit) (hfits : count * dtype.width ≤ n) :
    (∃ xs, Block.seen s.blocks.size dtype count (s.acquire d n).2 = .ok xs) ↔
      (s.device d).addressable = true := by
  have hview : Block.checkView s.blocks.size dtype count (s.acquire d n).2 = .ok () ↔
      (s.device d).addressable = true := by
    rw [Block.checkView_eq_ok_iff, owner_acquire_self, block_acquire_self]
    exact and_iff_left ⟨Nat.lt_of_le_of_lt hfits hlimit, hfits⟩
  rw [← hview]
  unfold Block.seen
  constructor
  · rintro ⟨xs, hxs⟩
    obtain ⟨_, hchecked, -⟩ := Except.bind_eq_ok_iff.mp hxs
    exact hchecked
  · intro hchecked
    rw [hchecked]
    exact ⟨_, rfl⟩

/-- A change of the state of a device that leaves its stream alone. -/
theorem shows_modifyDevice (s : Store) (d : DeviceId) {f : Device → Device}
    (hf : ∀ k, (f k).description = k.description) (hstream : ∀ k, (f k).stream = k.stream) :
    s.Shows (s.modifyDevice d f) where
  toExtends := (keeps_modifyDevice s d (hf _)).extend
  stream := modifyDevice_keeps Device.stream (hstream _)
  sight _ _ := Block.sight_of_eq rfl (modifyDevice_keeps Device.description (hf _))

/-- A change of a block that was not there before. -/
theorem Shows.modifyBlock {s s' : Store} (h : s.Shows s') {b : BlockId}
    (hb : s.blocks.size ≤ b) (f : Block → Block) : s.Shows (s'.modifyBlock b f) := by
  have hsame (c : BlockId) (hc : c < s.blocks.size) :
      (s'.modifyBlock b f).block c = s'.block c :=
    block_modifyBlock_of_ne f (Nat.ne_of_gt (Nat.lt_of_lt_of_le hc hb))
  refine ⟨⟨h.device, h.registry, h.library, ?_, fun c hc => ?_, fun c hc => ?_⟩, h.stream,
    fun c hc => ?_⟩
  · rw [size_blocks_modifyBlock]
    exact h.blocks_le
  · rw [hsame c hc]
    exact h.place c hc
  · rw [hsame c hc]
    exact h.size c hc
  · rw [← h.sight c hc]
    exact Block.sight_of_eq (hsame c hc) fun _ => rfl

/-- Letting go of a block that was not there before. -/
theorem Shows.release {s s' : Store} (h : s.Shows s') {b : BlockId} (hb : s.blocks.size ≤ b) :
    s.Shows (s'.release b) where
  toExtends := h.toExtends.trans (extends_release s' b)
  stream d := (release_keeps_device Device.stream (fun _ _ => rfl) b d).trans (h.stream d)
  sight c hc := by
    have hne : b ≠ c := Nat.ne_of_gt (Nat.lt_of_lt_of_le hc hb)
    rw [← h.sight c hc]
    exact Block.sight_of_eq (block_release_of_ne hne) (extends_release s' b).device

end Store

end DeviceTensor
