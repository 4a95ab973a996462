import DeviceTensor.Proofs.Tensor.Transfer
set_option autoImplicit false

/-!
# Copies are bounded moves

Where devices grant memory, perform what they can be asked for, and can wait, a copy is decided by
the sizes of its blocks alone: if both ranges lie inside them, the bytes of the source range as they
were before the copy stand in the destination range after it, and otherwise nothing happens.  Host
devices copy within host memory only, and are never asked for more.  Copies of elements are copies
of bytes whose offsets are computed as sizes; an offset that is none lies behind every block.
-/

namespace DeviceTensor

open DeviceTensor.Action

/-- If `fits` holds, the action succeeds with `moved`; otherwise it fails without a change, and not
because a device did not copy. -/
structure Action.Moves (x : Action Fault Unit) (s : Store) (fits : Prop) (moved : Store → Prop) :
    Prop where
  succeeds : fits → ∃ s', x s = (.ok (), s') ∧ moved s'
  fails : ¬fits → ∃ f, x s = (.error f, s) ∧ ∀ n direction e, f ≠ .copyFailed n direction e

/-- The device of a block grants its memory, performs every copy it can be asked for, and can wait,
whatever it was asked for before.  A device of host memory need only copy within host memory. -/
structure Store.Serves (s : Store) (b : BlockId) : Prop where
  small : (s.block b).size < Size.limit
  supplies : (s.owner b).Supplies (s.block b).size
  performs : ∀ direction, ((s.owner b).backend = .cpp → direction = .hostToHost) →
    ∀ n earlier, (s.owner b).answers earlier (.copy n direction) = .ok ()
  waits : ∀ earlier, (s.owner b).answers earlier .wait = .ok ()

/-- Host memory serves the blocks whose size it grants. -/
theorem Store.serves_of_host {s : Store} {b : BlockId} {limit : Option Nat}
    (hanswers : (s.owner b).answers = Device.hostAnswers limit) (hcpp : (s.owner b).backend = .cpp)
    (hsmall : (s.block b).size < Size.limit)
    (hgrants : Device.limitedGrants limit (s.block b).size = .ok ()) : s.Serves b where
  small := hsmall
  supplies _ := by
    rw [hanswers]
    exact hgrants
  performs direction hdirection _ _ := by
    rw [hanswers, hdirection hcpp]
    rfl
  waits _ := by
    rw [hanswers]
    rfl

/-- A simulated backend that makes copies and waits serves the blocks whose size it grants. -/
theorem Store.serves_of_simulated {s : Store} {b : BlockId} {sim : Device.Simulation}
    (hanswers : (s.owner b).answers = sim.answers) (hcopies : sim.refusesCopies = false)
    (hwaits : sim.refusesToWait = false) (hsmall : (s.block b).size < Size.limit)
    (hgrants : sim.grants (s.block b).size = .ok ()) : s.Serves b where
  small := hsmall
  supplies _ := by
    rw [hanswers]
    exact hgrants
  performs _ _ _ _ := by
    rw [hanswers]
    unfold Device.Simulation.answers
    rw [if_neg (Bool.eq_false_iff.mp hcopies)]
  waits _ := by
    rw [hanswers]
    unfold Device.Simulation.answers
    rw [if_neg (Bool.eq_false_iff.mp hwaits)]

/-! ## Bytes -/

namespace Block

variable {s s' : Store} {dst src : Range} {n : Nat} {hs : List BlockId}

/-- The bytes of the source range as they were stand in the destination range, and no other byte of
any block has changed.  If there are none, the store is as it was. -/
structure MovedBytes (dst src : Range) (n : Nat) (s s' : Store) : Prop where
  inside : ∀ k, k < n → (s'.block dst.block).contents[dst.offset + k]? =
    (s.block src.block).contents[src.offset + k]?
  outside : ∀ p, ¬(dst.offset ≤ p ∧ p < dst.offset + n) →
    (s'.block dst.block).contents[p]? = (s.block dst.block).contents[p]?
  others : ∀ b, b ≠ dst.block → (s'.block b).contents = (s.block b).contents
  nothing : n = 0 → s' = s

/-- A device of host memory is asked to copy within host memory only. -/
theorem directionOf_of_host {dst src : BlockId} (h : s.backend (copyExecutor dst src s) = .cpp) :
    directionOf dst src s = .hostToHost := by
  unfold copyExecutor at h
  by_cases hdst : (s.owner dst).backend = .cpp
  · rw [if_pos hdst] at h
    have hsrc : (s.owner src).backend = .cpp := h
    unfold directionOf
    rw [hsrc, hdst]
    rfl
  · rw [if_neg hdst] at h
    exact absurd h hdst

theorem conveys_of_serves {dst src : BlockId} (hdst : s.Serves dst) (hsrc : s.Serves src) :
    s.Conveys (s.block dst).device (s.block src).device := by
  have hhost : s.backend (copyExecutor dst src s) = .cpp → directionOf dst src s = .hostToHost :=
    directionOf_of_host
  unfold copyExecutor at hhost
  constructor
  · split
    · rename_i hcpp
      rw [if_pos (show (s.owner dst).backend = .cpp from hcpp)] at hhost
      exact hsrc.performs _ hhost
    · rename_i hcpp
      rw [if_neg (show ¬(s.owner dst).backend = .cpp from hcpp)] at hhost
      exact hdst.performs _ hhost
  · split
    · exact hsrc.waits
    · exact hdst.waits

/-! ### The check -/

theorem checkCopy_eq_ok_iff (hdst : (s.block dst.block).size < Size.limit)
    (hsrc : (s.block src.block).size < Size.limit) :
    checkCopy dst src n s = .ok () ↔
      dst.offset + n ≤ (s.block dst.block).size ∧ src.offset + n ≤ (s.block src.block).size := by
  constructor
  · intro h
    unfold checkCopy at h
    dsimp only at h
    split at h
    · cases h
    · rename_i stop hstop
      obtain ⟨-, rfl⟩ := Size.add_eq_ok_iff.mp hstop
      split at h
      · cases h
      · rename_i hfits
        split at h
        · cases h
        · rename_i stop' hstop'
          obtain ⟨-, rfl⟩ := Size.add_eq_ok_iff.mp hstop'
          split at h
          · cases h
          · rename_i hfits'
            exact ⟨Nat.le_of_not_lt hfits, Nat.le_of_not_lt hfits'⟩
  · rintro ⟨hfits, hfits'⟩
    exact Tensor.checkCopy_eq_ok hfits hdst hfits' (Nat.lt_of_le_of_lt hfits' hsrc)

/-- The check of a copy asks no device. -/
theorem checkCopy_not_copyFailed {f : Fault} (h : checkCopy dst src n s = .error f) (m : Nat)
    (direction : Direction) (e : DeviceFailure) : f ≠ .copyFailed m direction e := by
  rintro rfl
  unfold checkCopy at h
  dsimp only at h
  repeat' split at h
  all_goals cases h

/-- A copy whose check fails does nothing. -/
theorem copy_of_refused {f : Fault} (h : checkCopy dst src n s = .error f) :
    copy dst src n s = (.error f, s) := by
  unfold copy
  rw [bind_apply, Action.examine, h]

/-! ### The move -/

theorem getElem?_spliced (old new : Array UInt8) (dstOffset srcOffset n p : Nat) :
    (spliced old new dstOffset srcOffset n)[p]? = old[p]?.map fun byte =>
      if dstOffset ≤ p ∧ p < dstOffset + n then new.getD (srcOffset + (p - dstOffset)) byte
      else byte := by
  rw [spliced, Array.getElem?_mapIdx]

theorem movedBytes_of_copy (hh : s.Holds hs) (hdst : dst.block ∈ hs)
    (hfits : dst.offset + n ≤ (s.block dst.block).size ∧
      src.offset + n ≤ (s.block src.block).size)
    (h : copy dst src n s = (.ok (), s')) : MovedBytes dst src n s s' := by
  have hcontents := contents_of_copy h (hh.lt _ hdst) fun hreleased => hh.released _ hreleased hdst
  refine ⟨fun k hk => ?_, fun p hp => ?_, fun b hb => contents_of_copy_of_ne h hb, ?_⟩
  · have hold : dst.offset + k < (s.block dst.block).contents.size := by
      rw [hh.size_contents]
      omega
    have hnew : src.offset + k < (s.block src.block).contents.size := by
      rw [hh.size_contents]
      omega
    rw [hcontents, getElem?_spliced, Array.getElem?_eq_getElem hold, Option.map_some,
      if_pos ⟨Nat.le_add_right _ _, Nat.add_lt_add_left hk _⟩, Nat.add_sub_cancel_left,
      Array.getD_eq_getD_getElem?, Array.getElem?_eq_getElem hnew, Option.getD_some]
  · rw [hcontents, getElem?_spliced]
    simp only [if_neg hp, Option.map_id']
  · rintro rfl
    have hlimit : checkCopy dst src 0 s = .ok () := by
      obtain ⟨_, _, hcheck, -⟩ := bind_eq_ok_iff.mp h
      exact (examine_eq_ok_iff.mp hcheck).1
    rw [copy_of_zero hlimit] at h
    exact (Prod.mk.inj h).2.symm

/-- A copy between blocks whose devices serve it. -/
theorem copy_moves (dst src : Range) (n : Nat) (hh : s.Holds hs) (hdst : dst.block ∈ hs)
    (hd : s.Serves dst.block) (hs' : s.Serves src.block) :
    (copy dst src n).Moves s
      (dst.offset + n ≤ (s.block dst.block).size ∧ src.offset + n ≤ (s.block src.block).size)
      (MovedBytes dst src n s) where
  succeeds hfits := by
    have hcheck := (checkCopy_eq_ok_iff hd.small hs'.small).mpr hfits
    obtain ⟨s', hcopy⟩ := copy_of_served hcheck (fun _ => hd.supplies) (fun _ => hs'.supplies)
      (conveys_of_serves hd hs')
    exact ⟨s', hcopy, movedBytes_of_copy hh hdst hfits hcopy⟩
  fails hnot := by
    cases hcheck : checkCopy dst src n s with
    | ok _ => exact absurd ((checkCopy_eq_ok_iff hd.small hs'.small).mp hcheck) hnot
    | error f => exact ⟨f, copy_of_refused hcheck, checkCopy_not_copyFailed hcheck⟩

end Block

/-! ## Elements -/

namespace Elem

variable {d : ElemType}

/-- Places of elements in a range of elements. -/
theorem place_mem_iff {i k r n : Nat} (hr : r < d.width) :
    (i * d.width ≤ k * d.width + r ∧ k * d.width + r < i * d.width + n * d.width) ↔
      i ≤ k ∧ k < i + n := by
  rw [← Nat.add_mul, ← Nat.le_div_iff_mul_le d.width_pos, ← Nat.div_lt_iff_lt_mul d.width_pos,
    place_div hr]

/-- Elements whose bytes agree. -/
theorem getElem?_decode_congr {old new : Array UInt8} {count count' k l : Nat} (hk : k < count)
    (hl : l < count')
    (h : ∀ r, r < d.width → old[k * d.width + r]? = new[l * d.width + r]?) :
    (decode d count old)[k]? = (decode d count' new)[l]? := by
  have hbytes : ((List.range d.width).map fun r => old.getD (k * d.width + r) 0) =
      (List.range d.width).map fun r => new.getD (l * d.width + r) 0 := by
    refine List.map_congr_left fun r hr => ?_
    rw [Array.getD_eq_getD_getElem?, Array.getD_eq_getD_getElem?, h r (List.mem_range.mp hr)]
  rw [getElem?_decode hk, getElem?_decode hl, hbytes]

end Elem

namespace Tensor

variable {s s' : Store} {t o : Tensor} {b c : BlockId} {num i j : Nat} {hs : List BlockId}

/-- The elements of `o` from `j` on stand in `t` from `i` on, and its other elements are as they
were. -/
structure MovedElements (t o : Tensor) (num i j : Nat) (s s' : Store) : Prop where
  inside : ∀ k, k < num → (t.stored t.dtype s')[i + k]? = (o.stored t.dtype s)[j + k]?
  outside : ∀ k, ¬(i ≤ k ∧ k < i + num) → (t.stored t.dtype s')[k]? = (t.stored t.dtype s)[k]?

/-- The bytes of both ranges of elements are counted by sizes. -/
structure Counted (width num i j : Nat) : Prop where
  dst : i * width < Size.limit
  src : j * width < Size.limit
  size : num * width < Size.limit

/-- The ranges of elements are those of their bytes, if these are counted by sizes. -/
theorem planCopyRange_of_counted (hd : t.dtype = o.dtype) (hb : t.block = some b)
    (hc : o.block = some c) (h : Counted t.dtype.width num i j) :
    planCopyRange t o num i j =
      .ok (⟨b, i * t.dtype.width⟩, ⟨c, j * t.dtype.width⟩, num * t.dtype.width) := by
  unfold planCopyRange requireBlock
  rw [if_neg (not_not_intro hd), hb, hc, ← hd]
  dsimp only
  rw [Size.mul_of_lt h.dst, Size.mul_of_lt h.src, Size.mul_of_lt h.size]
  rfl

/-- Ranges whose bytes are not counted by sizes trap. -/
theorem planCopyRange_of_not_counted (hd : t.dtype = o.dtype) (hb : t.block = some b)
    (hc : o.block = some c) (h : ¬Counted t.dtype.width num i j) :
    ∃ e, planCopyRange t o num i j = .error (.trap e) := by
  unfold planCopyRange requireBlock
  rw [if_neg (not_not_intro hd), hb, hc, ← hd]
  dsimp only
  cases hdst : Size.mul i t.dtype.width with
  | error e => exact ⟨e, rfl⟩
  | ok _ =>
    cases hsrc : Size.mul j t.dtype.width with
    | error e => exact ⟨e, rfl⟩
    | ok _ =>
      cases hsize : Size.mul num t.dtype.width with
      | error e => exact ⟨e, rfl⟩
      | ok _ =>
        exact absurd ⟨(Size.mul_eq_ok_iff.mp hdst).1, (Size.mul_eq_ok_iff.mp hsrc).1,
          (Size.mul_eq_ok_iff.mp hsize).1⟩ h

/-- Elements are copied by a copy of their bytes. -/
theorem copyRange_of_plan {dst src : Block.Range} {n : Nat}
    (h : planCopyRange t o num i j = .ok (dst, src, n)) :
    t.copyRange o num i j = Block.copy dst src n := by
  unfold copyRange
  rw [h]
  rfl

/-- The bytes of elements have been moved, and with them the elements. -/
theorem movedElements_of_movedBytes (hb : t.block = some b) (hc : o.block = some c)
    (hsize : (s'.block b).size = (s.block b).size)
    (hfits : i + num ≤ t.count s ∧ j + num ≤ o.count s)
    (h : Block.MovedBytes ⟨b, i * t.dtype.width⟩ ⟨c, j * t.dtype.width⟩ (num * t.dtype.width)
      s s') :
    t.MovedElements o num i j s s' := by
  have hcount : t.count s' = t.count s := by
    unfold count
    rw [byteSize_of_block hb, byteSize_of_block hb, hsize]
  refine ⟨fun k hk => ?_, fun k hk => ?_⟩
  · rw [stored_of_block hb, stored_of_block hc, hcount]
    refine Elem.getElem?_decode_congr (by omega) (by omega) fun r hr => ?_
    have hplace := h.inside (k * t.dtype.width + r) (Elem.place_lt hk hr)
    rw [Nat.add_mul, Nat.add_mul, Nat.add_assoc, Nat.add_assoc]
    exact hplace
  · rw [stored_of_block hb, stored_of_block hb, hcount]
    by_cases hlt : k < t.count s
    · refine Elem.getElem?_decode_congr hlt hlt fun r hr => ?_
      exact h.outside _ fun hin => hk ((Elem.place_mem_iff hr).mp hin)
    · have hle := Nat.le_of_not_lt hlt
      rw [Array.getElem?_eq_none (by rwa [Elem.size_decode]),
        Array.getElem?_eq_none (by rwa [Elem.size_decode])]

/-- A range of elements fits into a tensor if its bytes fit into the block. -/
theorem range_fits_iff (hv : t.Valid s) (hb : t.block = some b) :
    i * t.dtype.width + num * t.dtype.width ≤ (s.block b).size ↔ i + num ≤ t.count s := by
  have hf := hv.filled b hb
  rw [hf.count hb, hf.size, ← Nat.add_mul]
  exact Nat.mul_le_mul_right_iff t.dtype.width_pos

/-- Elements that fit into both tensors are moved. -/
theorem copyRange_moves (ht : t.Valid s) (ho : o.Valid s) (hb : t.block = some b)
    (hc : o.block = some c) (hd : t.dtype = o.dtype) (hh : s.Holds hs) (hmem : b ∈ hs)
    (hserves : s.Serves b) (hserves' : s.Serves c) (num i j : Nat) :
    (t.copyRange o num i j).Moves s (i + num ≤ t.count s ∧ j + num ≤ o.count s) (fun s' =>
      t.MovedElements o num i j s s' ∧
        ∀ b', b' ≠ b → (s'.block b').contents = (s.block b').contents) := by
  have hfits : (i * t.dtype.width + num * t.dtype.width ≤ (s.block b).size ∧
      j * t.dtype.width + num * t.dtype.width ≤ (s.block c).size) ↔
        i + num ≤ t.count s ∧ j + num ≤ o.count s :=
    and_congr (range_fits_iff ht hb) (hd ▸ range_fits_iff ho hc)
  by_cases hcounted : Counted t.dtype.width num i j
  · rw [copyRange_of_plan (planCopyRange_of_counted hd hb hc hcounted)]
    have hcopy := Block.copy_moves ⟨b, i * t.dtype.width⟩ ⟨c, j * t.dtype.width⟩
      (num * t.dtype.width) hh hmem hserves hserves'
    refine ⟨fun hin => ?_, fun hnot => hcopy.fails (mt hfits.mp hnot)⟩
    obtain ⟨s', hrun, hmoved⟩ := hcopy.succeeds (hfits.mpr hin)
    have hkeeps := Block.copy_keeps ⟨b, i * t.dtype.width⟩ ⟨c, j * t.dtype.width⟩
      (num * t.dtype.width) s
    rw [hrun] at hkeeps
    have hsize := hkeeps.extend.size b (ht.filled b hb).lt
    exact ⟨s', hrun, movedElements_of_movedBytes hb hc hsize hin hmoved, hmoved.others⟩
  · refine ⟨fun hin => absurd ?_ hcounted, fun _ => ?_⟩
    · obtain ⟨hdst, hsrc⟩ := hfits.mpr hin
      have hsmall := hserves.small
      have hsmall' := hserves'.small
      exact ⟨by omega, by omega, by omega⟩
    · obtain ⟨e, hplan⟩ := planCopyRange_of_not_counted hd hb hc hcounted
      refine ⟨.trap e, ?_, fun _ _ _ h => by cases h⟩
      unfold copyRange
      rw [hplan]
      rfl

/-- As many bytes as both tensors have are moved. -/
theorem copyFrom_moves (hb : t.block = some b) (hc : o.block = some c) (hh : s.Holds hs)
    (hmem : b ∈ hs) (hserves : s.Serves b) (hserves' : s.Serves c) :
    (t.copyFrom o).Moves s True
      (Block.MovedBytes ⟨b, 0⟩ ⟨c, 0⟩ (min (t.byteSize s) (o.byteSize s)) s) := by
  have hrun : t.copyFrom o s =
      Block.copy ⟨b, 0⟩ ⟨c, 0⟩ (min (t.byteSize s) (o.byteSize s)) s := by
    unfold copyFrom
    rw [hb, hc, byteSize_of_block hb, byteSize_of_block hc]
    rfl
  have hcopy := Block.copy_moves ⟨b, 0⟩ ⟨c, 0⟩ (min (t.byteSize s) (o.byteSize s)) hh hmem hserves
    hserves'
  have hfits : 0 + min (t.byteSize s) (o.byteSize s) ≤ (s.block b).size ∧
      0 + min (t.byteSize s) (o.byteSize s) ≤ (s.block c).size := by
    rw [byteSize_of_block hb, byteSize_of_block hc]
    omega
  refine ⟨fun _ => ?_, fun h => absurd trivial h⟩
  rw [hrun]
  exact hcopy.succeeds hfits

/-- Without two blocks there are no bytes to copy. -/
theorem copyFrom_of_bare (h : t.block = none ∨ o.block = none) (s : Store) :
    t.copyFrom o s = (.ok (), s) := by
  unfold copyFrom
  rcases h with hb | hc
  · rw [hb]
    rfl
  · rw [hc]
    cases t.block with
    | none => rfl
    | some b => rfl

end Tensor

end DeviceTensor
