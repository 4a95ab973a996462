import DeviceTensor.Proofs.Tensor.Duplicate
set_option autoImplicit false

/-!
# What a copy does

A copy of bytes that are there succeeds if both blocks have memory or are granted it, and if the
device that makes the copy performs it and can wait for it after that.  A copy that succeeds has put
the bytes of the source into the range of the destination, and no other bytes have changed.
-/

namespace DeviceTensor.Block

open DeviceTensor.Action

variable {s s' : Store} {dst src : Range} {n : Nat}

/-! ## The result -/

/-- What a device answers to a copy of `n` bytes: it must perform the copy, and then wait for it. -/
def copied (k : Device) (direction : Direction) (n : Nat) : Except Fault Unit := do
  (k.answer (.copy n direction)).mapError (.copyFailed n direction)
  ((k.after (.copy n direction)).answer .wait).mapError (.copyFailed n direction)

/-- A copy is answered by what a device is and what it was asked for, whatever it holds. -/
theorem copied_congr {k k' : Device} (hanswers : k'.answers = k.answers) (hasked : k'.asked = k.asked)
    (direction : Direction) (n : Nat) : copied k' direction n = copied k direction n := by
  unfold copied Device.answer Device.after
  dsimp only
  rw [hanswers, hasked]

/-- The next answer of a device that was asked; a device that is not there answers as ever. -/
theorem answer_after (s : Store) (d : DeviceId) (r next : Request) :
    ((s.modifyDevice d (·.after r)).device d).answer next = ((s.device d).after r).answer next := by
  rw [Store.device_modifyDevice]
  split
  · rfl
  · rename_i hout
    have hdefault : s.device d = default := by
      have hle : s.devices.size ≤ d := Nat.le_of_not_lt fun hlt => hout ⟨rfl, hlt⟩
      unfold Store.device
      rw [Array.getD_eq_getD_getElem?, Array.getElem?_eq_none hle, Option.getD_none]
    rw [hdefault]
    rfl

theorem moveBytes_result (executor : DeviceId) (direction : Direction) (dst src : Range) (n : Nat)
    (s : Store) :
    (moveBytes executor direction dst src n s).1 = copied (s.device executor) direction n := by
  let asked := s.modifyDevice executor (·.after (.copy n direction))
  have hwait : ((splice dst src n (asked.modifyDevice executor Device.tallied)).device
      executor).answer .wait = ((s.device executor).after (.copy n direction)).answer .wait := by
    have htallied : ((asked.modifyDevice executor Device.tallied).device executor).answer .wait =
        (asked.device executor).answer .wait :=
      Store.modifyDevice_keeps (fun k : Device => k.answer .wait) rfl executor
    exact htallied.trans (answer_after s executor _ _)
  unfold moveBytes copied
  rw [bind_apply, Action.request, ← hwait]
  cases (s.device executor).answer (.copy n direction) <;> rfl

/-- A copy of no bytes that lies in both blocks does nothing. -/
theorem copy_of_zero (hcheck : checkCopy dst src 0 s = .ok ()) : copy dst src 0 s = (.ok (), s) := by
  unfold copy
  rw [bind_apply, Action.examine, hcheck, if_pos rfl]
  rfl

/-- No bytes at the starts of two blocks lie in both of them. -/
theorem checkCopy_nothing (dst src : BlockId) (s : Store) :
    checkCopy ⟨dst, 0⟩ ⟨src, 0⟩ 0 s = .ok () := by
  have hstop : Size.add 0 0 = .ok 0 := Size.add_of_lt (by decide)
  unfold checkCopy
  simp only [hstop, Nat.not_lt_zero, if_false]

/-- A copy of bytes that are there binds the memory of both blocks and moves the bytes. -/
theorem copy_eq (hcheck : checkCopy dst src n s = .ok ()) (hn : n ≠ 0) :
    copy dst src n s = (do
      bindMemory dst.block
      bindMemory src.block
      moveBytes (copyExecutor dst.block src.block s) (directionOf dst.block src.block s) dst src n :
        Action Fault Unit) s := by
  unfold copy
  rw [bind_apply, Action.examine, hcheck, if_neg hn]
  rfl

/-! ## The bytes -/

/-- The bytes of a block with memory are changed. -/
theorem contents_modifyBytes {b : BlockId} (f : Array UInt8 → Array UInt8) (hb : b < s.blocks.size)
    (hunbound : (s.block b).memory ≠ .unbound) (hlive : (s.block b).memory ≠ .released) :
    ((modifyBytes b f s).block b).contents = f (s.block b).contents := by
  unfold contents
  rw [memory_modifyBytes_self f hb]
  cases hm : (s.block b).memory with
  | unbound => exact absurd hm hunbound
  | released => exact absurd hm hlive
  | bound bytes => rfl

theorem spliced_nothing (old new : Array UInt8) (dstOffset srcOffset : Nat) :
    spliced old new dstOffset srcOffset 0 = old := by
  apply Array.ext
  · exact size_spliced old new dstOffset srcOffset 0
  · intro p hp hp'
    have hout : ¬(dstOffset ≤ p ∧ p < dstOffset + 0) := by omega
    simp only [spliced, Array.getElem_mapIdx]
    rw [if_neg hout]

/-- A copy that succeeded has spliced the bytes of the source into those of the destination. -/
theorem contents_of_copy (h : copy dst src n s = (.ok (), s')) (hlt : dst.block < s.blocks.size)
    (hlive : (s.block dst.block).memory ≠ .released) :
    (s'.block dst.block).contents =
      spliced (s.block dst.block).contents (s.block src.block).contents dst.offset src.offset n := by
  rcases copy_of_ok h with ⟨rfl, rfl⟩ | ⟨s₁, executor, direction, hbinds, hready, rfl⟩
  · exact (spliced_nothing _ _ _ _).symm
  · have hlt₁ : dst.block < s₁.blocks.size := by
      rw [hbinds.blocks]
      exact hlt
    have hlive₁ : (s₁.block dst.block).memory ≠ .released := by
      intro hreleased
      rcases hbinds.memory dst.block with hsame | ⟨-, hzeros⟩
      · exact hlive (hsame ▸ hreleased)
      · rw [hzeros] at hreleased
        cases hreleased
    rw [contents_modifyBytes (s := s₁.modifyDevice executor (Device.afterCopy n direction)) _ hlt₁
      (hready hlt) hlive₁, Store.block_modifyDevice, hbinds.contents]

/-- A copy that succeeded has left the bytes of all other blocks. -/
theorem contents_of_copy_of_ne (h : copy dst src n s = (.ok (), s')) {b : BlockId}
    (hb : b ≠ dst.block) : (s'.block b).contents = (s.block b).contents := by
  rcases copy_of_ok h with ⟨-, rfl⟩ | ⟨s₁, executor, direction, hbinds, -, rfl⟩
  · rfl
  · rw [block_modifyBytes_of_ne _ hb.symm, Store.block_modifyDevice, hbinds.contents]

end DeviceTensor.Block
