import DeviceTensor.Proofs.Store.Addition
import DeviceTensor.Proofs.Tensor.Copying
import DeviceTensor.Proofs.Tensor.Tracking
set_option autoImplicit false

/-!
# Moves between devices

A tensor that is moved gets a new block on the other device, with the bytes of the old one if there
was memory, and lets go of the old block only when all bytes have arrived.  `Tensor.movable` is what
the devices answer on the way.  If they agree, the move succeeds and carries the tensor over; if one
refuses, the tensor is still where it was, and so is everything else.
-/

namespace DeviceTensor

open DeviceTensor.Action

/-! ## Copies into a new block -/

namespace Block

variable {s : Store}

/-- What the devices answer to a copy of a whole block to a new one on device `d`: that device must
grant the memory, and after that one of the two devices must make the copy and finish it. -/
def transferable (b : BlockId) (d : DeviceId) (s : Store) : Except Fault Unit := do
  let size := (s.block b).size
  let executor := if s.backend d = .cpp then (s.block b).device else d
  ((s.device d).answer (.allocate size)).mapError
    (.allocationFailed size (s.backend d) (s.device d).name)
  let granted := s.modifyDevice d (·.after (.allocate size))
  copied (granted.device executor) (.between (s.owner b).backend (s.backend d)) size

/-- A new block is bound if its device grants the memory, and no device was asked for anything
else. -/
theorem bindMemory_of_new (d : DeviceId) (n : Nat) (s : Store) :
    (∃ e, (s.device d).answer (.allocate n) = .error e ∧
      (bindMemory s.blocks.size (s.acquire d n).2).1 =
        .error (.allocationFailed n (s.backend d) (s.device d).name e)) ∨
    (s.device d).answer (.allocate n) = .ok () ∧
      ∃ u, bindMemory s.blocks.size (s.acquire d n).2 = (.ok (), u) ∧ ∀ e,
        (u.device e).answers = ((s.modifyDevice d (·.after (.allocate n))).device e).answers ∧
        (u.device e).asked = ((s.modifyDevice d (·.after (.allocate n))).device e).asked := by
  rcases bindMemory_cases s.blocks.size (s.acquire d n).2 with
    ⟨hm, -⟩ | ⟨-, ⟨hanswer, hrun⟩ | ⟨e, hanswer, hrun⟩⟩
  · rw [Store.block_acquire_self] at hm
    exact absurd rfl hm
  · rw [Store.owner_acquire_self, Store.block_acquire_self] at hanswer hrun
    refine .inr ⟨hanswer, _, hrun, fun e => ?_⟩
    -- the new block is no device
    change ((s.modifyDevice d fun _ => _).device e).answers = _ ∧
      ((s.modifyDevice d fun _ => _).device e).asked = _
    rw [Store.device_modifyDevice, Store.device_modifyDevice]
    by_cases he : d = e ∧ e < s.devices.size
    · rw [if_pos he, if_pos he, ← he.1]
      exact ⟨rfl, rfl⟩
    · rw [if_neg he, if_neg he]
      exact ⟨rfl, rfl⟩
  · rw [Store.owner_acquire_self, Store.block_acquire_self] at hanswer hrun
    exact .inl ⟨e, hanswer, congrArg Prod.fst hrun⟩

section Arrival

variable {b : BlockId} {bytes : Array UInt8} {d : DeviceId} {n : Nat}

/-- Bytes that are moved into the new block leave the rest as it is, moved or not. -/
theorem moveBytes_adds (executor : DeviceId) (direction : Direction) (src : Range) (size : Nat) :
    (moveBytes executor direction ⟨s.blocks.size, 0⟩ src size).Within (s.StillAdds d n) := by
  have hasked (r : Request) (fault : DeviceFailure → Fault) :
      (request executor r fault).Within (s.StillAdds d n) :=
    fun _ h => h.modifyDevice executor fun _ => rfl
  refine .bind (hasked _ _) fun _ => .bind (.change fun s' h => ?_) fun _ => hasked _ _
  exact (h.modifyDevice executor (f := Device.tallied) fun _ => rfl).modifyBytes _

/-- A copy of a block with memory into the new block touches the new block only. -/
theorem copy_adds (hlt : b < s.blocks.size) (hb : (s.block b).memory = .bound bytes) (size : Nat) :
    (copy ⟨s.blocks.size, 0⟩ ⟨b, 0⟩ size).Within (s.StillAdds d n) := by
  have hsource : (bindMemory b).Within (s.StillAdds d n) := by
    intro u h
    unfold bindMemory
    dsimp only
    rw [h.old b hlt, hb]
    exact h
  refine .bind (.examine _) fun _ => .ite (.pure ()) ?_
  refine .bind (.inspect _) fun _ => .bind (.inspect _) fun _ => ?_
  refine .bind (fun u h => h.bindMemory) fun _ => .bind hsource fun _ => ?_
  exact moveBytes_adds _ _ _ _

/-- All bytes of a block with memory are copied into a new block on device `d`: the result is the
answer of the devices. -/
theorem copy_to_new (hlt : b < s.blocks.size) (hb : (s.block b).memory = .bound bytes)
    (hsmall : (s.block b).size < Size.limit) (hpos : (s.block b).size ≠ 0) :
    (copy ⟨s.blocks.size, 0⟩ ⟨b, 0⟩ (s.block b).size (s.acquire d (s.block b).size).2).1 =
      transferable b d s := by
  generalize hn : (s.block b).size = n at hsmall hpos ⊢
  have hnew := s.block_acquire_self d n
  have hold : (s.acquire d n).2.block b = s.block b := Store.block_acquire_of_lt hlt
  have hcheck : checkCopy ⟨s.blocks.size, 0⟩ ⟨b, 0⟩ n (s.acquire d n).2 = .ok () := by
    refine Tensor.checkCopy_eq_ok ?_ ?_ ?_ ?_
    · simp [hnew]
    · simpa [hnew] using hsmall
    · simp [hold, hn]
    · simpa using hsmall
  have hdirection : directionOf s.blocks.size b (s.acquire d n).2 =
      .between (s.owner b).backend (s.backend d) := by
    unfold directionOf Store.owner
    rw [hold, hnew]
    rfl
  have hexecutor : copyExecutor s.blocks.size b (s.acquire d n).2 =
      if s.backend d = .cpp then (s.block b).device else d := by
    unfold copyExecutor
    rw [Store.owner_acquire_self, hold, hnew]
    rfl
  rw [copy_eq hcheck hpos, hdirection, hexecutor, bind_apply]
  unfold transferable
  rw [hn]
  dsimp only
  rcases bindMemory_of_new d n s with ⟨e, hanswer, hrun⟩ | ⟨hanswer, u, hrun, hsame⟩
  · rw [hanswer, ← Prod.eta (bindMemory _ _), hrun]
    rfl
  · have hsource : bindMemory b u = (.ok (), u) := by
      have hbinds := bindMemory_binds s.blocks.size (s.acquire d n).2
      rw [hrun] at hbinds
      have hbound : ((s.acquire d n).2.block b).memory ≠ .unbound := by
        rw [hold, hb]
        nofun
      have hmemory := hbinds.memory_of_ne hbound
      rw [hold, hb] at hmemory
      rcases bindMemory_cases b u with ⟨-, hrun'⟩ | ⟨hm, -⟩
      · exact hrun'
      · cases hmemory.symm.trans hm
    rw [hanswer, hrun]
    dsimp only
    rw [bind_apply, hsource]
    exact (moveBytes_result _ _ _ _ _ _).trans (copied_congr (hsame _).1 (hsame _).2 _ _)

/-- A new block that has been given all bytes of another holds them. -/
theorem contents_of_copy_to_new {s' : Store} (hlt : b < s.blocks.size)
    (hb : (s.block b).memory = .bound bytes) (hn : bytes.size = n)
    (h : copy ⟨s.blocks.size, 0⟩ ⟨b, 0⟩ n (s.acquire d n).2 = (.ok (), s')) :
    (s'.block s.blocks.size).contents = bytes := by
  have hnew := s.block_acquire_self d n
  have hlive : ((s.acquire d n).2.block s.blocks.size).memory ≠ .released := by
    rw [hnew]
    exact Memory.noConfusion
  have hzeros : ((s.acquire d n).2.block s.blocks.size).contents = Array.replicate n 0 := by
    rw [hnew]
    rfl
  have hsource : ((s.acquire d n).2.block b).contents = bytes := by
    rw [Store.block_acquire_of_lt hlt]
    unfold contents
    rw [hb]
  rw [contents_of_copy h (by simp) hlive, hzeros, hsource, ← hn]
  exact spliced_all (by simp)

end Arrival

end Block

/-! ## Moves of a tensor -/

namespace Tensor

variable {s : Store} {t : Tensor} {d : DeviceId}

/-- What the devices answer to a move of the tensor to device `d`.  They are not asked if the
tensor is there already, or if there are no bytes in memory. -/
def movable (t : Tensor) (d : DeviceId) (s : Store) : Except Fault Unit :=
  match t.block with
  | none => .ok ()
  | some b =>
    if t.device = d ∨ t.isBound s = false ∨ (s.block b).size = 0 then .ok ()
    else Block.transferable b d s

/-- The bytes of the block of a tensor, if it has one; memory that is not bound reads as zeros. -/
def contents? (t : Tensor) (s : Store) : Option (Array UInt8) :=
  t.block.map fun b => (s.block b).contents

/-- The tensor `t'` of `s'` has the shape, the type, the storage order and the bytes of the tensor
`t` of `s`, and no memory if `t` has none. -/
structure Carried (t : Tensor) (s : Store) (t' : Tensor) (s' : Store) : Prop where
  shape : t'.shape = t.shape
  dtype : t'.dtype = t.dtype
  transposed : t'.transposed = t.transposed
  contents : t'.contents? s' = t.contents? s
  unbound : t.isBound s = false → t'.isBound s' = false

theorem Carried.refl (t : Tensor) (s : Store) : t.Carried s t s := ⟨rfl, rfl, rfl, rfl, id⟩

theorem Carried.trans {t₁ t₂ t₃ : Tensor} {s₁ s₂ s₃ : Store} (h : t₁.Carried s₁ t₂ s₂)
    (h' : t₂.Carried s₂ t₃ s₃) : t₁.Carried s₁ t₃ s₃ where
  shape := h'.shape.trans h.shape
  dtype := h'.dtype.trans h.dtype
  transposed := h'.transposed.trans h.transposed
  contents := h'.contents.trans h.contents
  unbound hu := h'.unbound (h.unbound hu)

/-- A tensor whose block keeps its memory is carried over as it is. -/
theorem carried_of_memory {s' : Store} (t : Tensor)
    (h : ∀ b, t.block = some b → (s'.block b).memory = (s.block b).memory ∧
      (s'.block b).size = (s.block b).size) : t.Carried s t s' := by
  refine ⟨rfl, rfl, rfl, ?_, ?_⟩
  · unfold contents?
    cases hb : t.block with
    | none => rfl
    | some b =>
      obtain ⟨hmemory, hsize⟩ := h b hb
      simp only [Option.map_some, Block.contents, hmemory, hsize]
  · intro hu
    unfold isBound at hu ⊢
    cases hb : t.block with
    | none => rfl
    | some b =>
      rw [hb] at hu
      dsimp only at hu ⊢
      rw [(h b hb).1]
      exact hu

/-- The tensor `t` of `s` has become the tensor `t'` on device `d`, and the blocks in `others` have
kept their memory. -/
structure Moved (t : Tensor) (d : DeviceId) (others : List BlockId) (s : Store) (t' : Tensor)
    (s' : Store) : Prop where
  eq : t' = { t with
    device := d
    block := if t.device = d then t.block else t.block.map fun _ => s.blocks.size }
  carried : t.Carried s t' s'
  others : ∀ b, b ∈ others →
    (s'.block b).memory = (s.block b).memory ∧ (s'.block b).size = (s.block b).size
  here : t.device = d → s' = s

/-- A block that keeps a handle keeps its memory. -/
theorem memory_release_of_shared {b : BlockId} (h : (s.block b).handles ≠ 1) (c : BlockId) :
    ((s.release b).block c).memory = (s.block c).memory := by
  unfold Store.release
  dsimp only
  rw [if_neg h]
  exact Store.modifyBlock_keeps Block.memory rfl c

variable {b : BlockId} {hs : List BlockId}

/-- A tensor that lets go of its block leaves the memory of all blocks that others hold. -/
theorem memory_release_of_held {u : Store} (hh : s.Holds (t.held ++ hs))
    (hold : ∀ c, c < s.blocks.size → u.block c = s.block c) {c : BlockId} (hc : c ∈ hs) :
    ((t.release u).block c).memory = (s.block c).memory ∧
      ((t.release u).block c).size = (s.block c).size := by
  have hclt : c < s.blocks.size := hh.lt c (List.mem_append_right _ hc)
  unfold release
  cases hb : t.block with
  | none =>
    dsimp only
    rw [hold c hclt]
    exact ⟨rfl, rfl⟩
  | some b =>
    dsimp only
    rw [Store.release_keeps Block.size (fun _ => rfl) fun _ => rfl]
    refine ⟨?_, congrArg Block.size (hold c hclt)⟩
    by_cases hcb : b = c
    · subst hcb
      have hcount := hh.handles b hclt
      have htwo : 0 < hs.count b := List.count_pos_iff.mpr hc
      rw [held_of_block hb, List.singleton_append, List.count_cons_self] at hcount
      have hshared : (u.block b).handles ≠ 1 := by
        rw [hold b hclt, hcount]
        omega
      rw [memory_release_of_shared hshared, hold b hclt]
    · rw [Store.block_release_of_ne hcb, hold c hclt]

/-- The bytes have arrived in the new block, and the tensor lets go of the old one. -/
theorem moved_of_adds (hb : t.block = some b) (hne : t.device ≠ d) (hh : s.Holds (b :: hs))
    {n : Nat} {u : Store} (h : s.Adds d n u)
    (hcontents : (u.block s.blocks.size).contents = (s.block b).contents)
    (hunbound : (s.block b).memory.isBound = false →
      (u.block s.blocks.size).memory.isBound = false) :
    Moved t d hs s { t with device := d, block := some s.blocks.size } (t.release u) := by
  have hlt : b < s.blocks.size := hh.lt b List.mem_cons_self
  have hrelease : t.release u = u.release b := release_of_block hb u
  have hnew : (u.release b).block s.blocks.size = u.block s.blocks.size :=
    Store.block_release_of_ne (Nat.ne_of_lt hlt)
  rw [hrelease]
  refine ⟨?_, ⟨rfl, rfl, rfl, ?_, fun hu => ?_⟩, fun c hc => ?_, fun hd => absurd hd hne⟩
  · rw [if_neg hne, hb]
    rfl
  · unfold contents?
    rw [hb]
    dsimp only [Option.map_some]
    rw [hnew, hcontents]
  · unfold isBound at hu ⊢
    rw [hb] at hu
    dsimp only at hu ⊢
    rw [hnew]
    exact hunbound hu
  · rw [← hrelease]
    rw [← List.singleton_append, ← held_of_block hb] at hh
    exact memory_release_of_held hh h.old hc

/-- A block is moved if the devices agree. -/
theorem moveBlock_ends (hb : t.block = some b) (hf : t.Fills b s) (hne : t.device ≠ d)
    (hh : s.Holds (b :: hs)) :
    (t.moveBlock b d).Ends s (fun t' s' => t.movable d s = .ok () ∧ Moved t d hs s t' s')
      (fun f s' => t.movable d s = .error f ∧ s.Restores s') := by
  have hbound : t.isBound s = (s.block b).memory.isBound := by
    unfold isBound
    rw [hb]
  have hmovable : t.movable d s =
      if (s.block b).memory.isBound = false ∨ (s.block b).size = 0 then .ok ()
      else Block.transferable b d s := by
    unfold movable
    rw [hb]
    dsimp only
    rw [hbound]
    simp only [hne, false_or]
  have hadds := Store.Adds.acquire s d (s.block b).size
  have hfresh : ((s.acquire d (s.block b).size).2.block s.blocks.size).memory = .unbound := by
    rw [Store.block_acquire_self]
  have hzeros : ((s.acquire d (s.block b).size).2.block s.blocks.size).contents =
      Array.replicate (s.block b).size 0 := by
    rw [Store.block_acquire_self]
    rfl
  unfold moveBlock
  rw [ends_bind, ends_inspect, ends_bind, ends_inspect, ends_bind, ends_changing, ends_bind,
    ends_onFailure, hbound, hmovable]
  dsimp only [Store.acquire_fst]
  cases hm : (s.block b).memory with
  | released => exact absurd List.mem_cons_self (hh.released b hm)
  | unbound =>
    refine ⟨if_pos (.inl rfl), moved_of_adds hb hne hh hadds ?_ fun _ => ?_⟩
    · rw [hzeros]
      unfold Block.contents
      rw [hm]
    · rw [hfresh]
      rfl
  | bound bytes =>
    have hsize := hh.bound b bytes hm
    have hcontents : (s.block b).contents = bytes := by
      unfold Block.contents
      rw [hm]
    have hready : (Memory.bound bytes).isBound = true := rfl
    rw [if_pos hready]
    have hsmall : (s.block b).size < Size.limit := by
      rw [hf.size]
      exact hf.small
    have hanswer : (Block.copy ⟨s.blocks.size, 0⟩ ⟨b, 0⟩ (s.block b).size
        (s.acquire d (s.block b).size).2).1 =
          if (Memory.bound bytes).isBound = false ∨ (s.block b).size = 0 then .ok ()
          else Block.transferable b d s := by
      by_cases hzero : (s.block b).size = 0
      · rw [if_pos (.inr hzero), hzero, Block.copy_of_zero (Block.checkCopy_nothing _ _ _)]
      · have hasked : ¬((Memory.bound bytes).isBound = false ∨ (s.block b).size = 0) := by
          simp [hready, hzero]
        rw [if_neg hasked]
        exact Block.copy_to_new hf.lt hm hsmall hzero
    have hcopied := Block.copy_adds hf.lt hm (s.block b).size _ hadds
    rw [← hanswer]
    unfold Ends
    cases hcopy : Block.copy ⟨s.blocks.size, 0⟩ ⟨b, 0⟩ (s.block b).size
        (s.acquire d (s.block b).size).2 with
    | mk r u =>
      rw [hcopy] at hcopied
      cases r with
      | ok _ =>
        refine ⟨rfl, moved_of_adds hb hne hh hcopied ?_ fun h => ?_⟩
        · rw [hcontents]
          exact Block.contents_of_copy_to_new hf.lt hm hsize hcopy
        · rw [hm] at h
          cases h
      | error f => exact ⟨rfl, hcopied.discard⟩

/-- A move succeeds if the devices agree, and carries the tensor over; if one of them refuses, the
move fails with its refusal and everything is as before. -/
theorem moveTo_ends (hv : t.Valid s) (hh : s.Holds (t.held ++ hs)) (d : DeviceId) :
    (t.moveTo d).Ends s (fun t' s' => t.movable d s = .ok () ∧ Moved t d hs s t' s')
      (fun f s' => t.movable d s = .error f ∧ s.Restores s') := by
  have hbare (hb : t.block = none) : t.movable d s = .ok () := by
    unfold movable
    rw [hb]
  unfold moveTo
  split
  · rename_i hd
    refine ⟨?_, ?_, .refl t s, fun _ _ => ⟨rfl, rfl⟩, fun _ => rfl⟩
    · unfold movable
      split
      · rfl
      · rw [if_pos (.inl hd)]
    · rw [if_pos hd, ← hd]
  · rename_i hd
    split
    · rename_i hb
      refine ⟨hbare hb, ?_, ⟨rfl, rfl, rfl, ?_, ?_⟩, fun _ _ => ⟨rfl, rfl⟩, fun h => absurd h hd⟩
      · rw [if_neg hd, hb]
        rfl
      · unfold contents?
        rw [hb]
      · intro _
        unfold isBound
        rw [hb]
    · rename_i b hb
      rw [held_of_block hb] at hh
      exact moveBlock_ends hb (hv.filled b hb) hd hh

end Tensor

end DeviceTensor
