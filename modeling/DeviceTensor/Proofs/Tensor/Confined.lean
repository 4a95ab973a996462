import DeviceTensor.Proofs.Store.Confined
import DeviceTensor.Proofs.Tensor.Change
import DeviceTensor.Proofs.Tensor.Check
import DeviceTensor.Proofs.Tensor.Computation
set_option autoImplicit false

/-!
# Operations on tensors are confined

Every operation that writes a tensor is confined to the block of that tensor, and every operation
that reads a tensor, gives a new one, or changes what a tensor says of itself is confined to no
block.  Where routines are at work a trap may come from them; elsewhere it comes from the sizes that
the operands give.
-/

namespace DeviceTensor

open DeviceTensor.Action

/-! ## Confinement to no block -/

theorem Store.Aborts.widen {denies : Fault → Prop} {dst : Option BlockId} {f : Fault} {s t : Store}
    (h : s.Aborts denies none f t) : s.Aborts denies dst f t :=
  ⟨h.leaves.widen, h.late, h.denied⟩

theorem Action.Confined.widen {α : Type} {denies : Fault → Prop} {dst : Option BlockId}
    {x : Action Fault α} {s : Store} (h : x.Confined denies none s) : x.Confined denies dst s :=
  Ends.mono h (fun _ _ hl => hl.widen) fun _ _ ha => ha.widen

namespace Tensor

variable {d : ElemType} {s : Store}

/-! ## Elements from the host and to it -/

theorem writeAt_confined (b : BlockId) (xs : Array (Elem d)) (offset : Nat) :
    (writeAt b xs offset).Confined Fault.Denies (some b) s := by
  unfold Confined writeAt
  rw [ends_bind]
  refine (Block.view_ends b d _ s).mono (fun _ t ht => ?_) fun _ _ ⟨hs, hd, _⟩ => .of_binds hs hd
  exact (Store.Leaves.of_binds ht).trans (.modifyBytes t b _)

/-- The ranges of a copy out of a block that has just been made. -/
theorem checkCopy_eq_ok {dst src : Block.Range} {n : Nat}
    (hdst : dst.offset + n ≤ (s.block dst.block).size)
    (hsmall : (s.block dst.block).size < Size.limit)
    (hsrc : src.offset + n ≤ (s.block src.block).size)
    (hsmall' : src.offset + n < Size.limit) : Block.checkCopy dst src n s = .ok () := by
  unfold Block.checkCopy
  dsimp only
  rw [Size.add_of_lt (Nat.lt_of_le_of_lt hdst hsmall), Size.add_of_lt hsmall']
  dsimp only
  rw [if_neg (Nat.not_lt_of_le hdst), if_neg (Nat.not_lt_of_le hsrc)]

/-- Elements that fit into a block are written to it by way of a new one. -/
theorem stageAt_confined {b : BlockId} {xs : Array (Elem d)} {offset : Nat}
    (hb : b < s.blocks.size) (hfit : (offset + xs.size) * d.width ≤ (s.block b).size)
    (hsmall : (s.block b).size < Size.limit) :
    (stageAt b xs offset).Confined Fault.Denies (some b) s := by
  have hspares := Store.Spares.acquire s Store.hostMemory (xs.size * d.width)
  have hnew : s.blocks.size ≤ s.blocks.size := Nat.le_refl _
  have hsum : offset * d.width + xs.size * d.width ≤ (s.block b).size :=
    Nat.add_mul offset xs.size d.width ▸ hfit
  unfold Confined stageAt Block.temporary
  rw [ends_bind, ends_changing, ends_thenTidy, ends_bind]
  refine (Block.write_ends _ xs _).mono ?_ ?_
  · rintro _ u ⟨v, f, hv, rfl⟩
    have hshows : s.Shows (Block.modifyBytes s.blocks.size f v) :=
      Store.stillShows_modifyBytes hnew f (hspares.shows.trans (Store.shows_of_binds hv))
    have hleaves : s.Leaves (some b) (Block.modifyBytes s.blocks.size f v) :=
      (Store.Leaves.of_spares hspares).fresh
        ((Store.Leaves.of_binds hv).trans (.modifyBytes v _ f)) hnew
    have hdst := hshows.size b hb
    have hsrc : ((Block.modifyBytes s.blocks.size f v).block s.blocks.size).size =
        xs.size * d.width := by
      rw [Block.modifyBytes_eq, Store.modifyBlock_keeps Block.size rfl, hv.size,
        Store.block_acquire_self]
    have hstart : Size.mul offset d.width = .ok (offset * d.width) := Size.mul_of_lt (by omega)
    have hcheck : Block.checkCopy ⟨b, offset * d.width⟩ ⟨s.blocks.size, 0⟩ (xs.size * d.width)
        (Block.modifyBytes s.blocks.size f v) = .ok () := by
      refine checkCopy_eq_ok ?_ ?_ ?_ ?_
      · rwa [hdst]
      · rwa [hdst]
      · dsimp only
        omega
      · dsimp only
        omega
    rw [ends_bind, ends_ofExcept, hstart]
    refine ⟨fun start hs => ?_, fun e he => by cases he⟩
    cases hs
    refine (Block.copy_ends hcheck).mono (fun _ w hl => ?_) ?_
    · exact (hleaves.trans hl).trans (.release w _)
    · rintro e w ⟨ha, he⟩
      have hdone := ha.after hshows hleaves fun hd => absurd hd he
      refine ⟨hdone.leaves.trans (.release w _), fun ho hl => ?_, fun hd => absurd hd he⟩
      exact (hdone.late ho hl).release hnew
  · rintro e _ ⟨hs, hd, -⟩
    exact .discard hspares hnew (.of_binds hs hd)

/-- What passes the check fits into the block. -/
theorem fits_of_checkUpload {t : Tensor} {b : BlockId} {count offset : Nat} (hb : t.block = some b)
    (h : t.checkUpload d count offset s = .ok ()) :
    (offset + count) * d.width ≤ (s.block b).size := by
  obtain ⟨_, hkind, h⟩ := Except.bind_eq_ok_iff.mp h
  obtain ⟨stop, hstop, h⟩ := Except.bind_eq_ok_iff.mp h
  have hle := Nat.le_of_not_lt (Except.unless_last_eq_ok_iff.mp h)
  have hd : d = t.dtype := by
    unfold checkElementType at hkind
    split at hkind
    · assumption
    · cases hkind
  obtain ⟨-, rfl⟩ := Size.add_eq_ok_iff.mp (Fault.ofTrap_eq_ok_iff.mp hstop)
  unfold Tensor.count byteSize at hle
  rw [hb] at hle
  subst hd
  calc (offset + count) * t.dtype.width
      ≤ (s.block b).size / t.dtype.width * t.dtype.width := Nat.mul_le_mul_right _ hle
    _ ≤ (s.block b).size := Nat.div_mul_le_self _ _

theorem upload_confined {t : Tensor} (hv : t.Valid s) (xs : Array (Elem d)) (offset : Nat) :
    (t.upload xs offset).Confined Fault.Denies t.block s := by
  refine .examine fun _ hcheck => ?_
  split
  · exact .pure ()
  · rename_i b hb
    have hf := hv.filled b hb
    have hsmall : (s.block b).size < Size.limit := hf.size ▸ hf.small
    rw [hb]
    refine .inspect (.ite (fun _ => writeAt_confined b xs offset) fun _ => ?_)
    exact stageAt_confined hf.lt (fits_of_checkUpload hb hcheck) hsmall

/-- What is read by way of the host shows nothing. -/
theorem readStaged_shows {s₀ : Store} (b : BlockId) (d : ElemType) (count size : Nat) :
    (readStaged b d count size).Within s₀.StillShows := by
  refine Block.temporary_shows _ _ fun staging hnew => ?_
  exact .bind (Block.copy_shows hnew _ _) fun _ => Block.view_shows staging d count

theorem read_shows {s₀ : Store} (t : Tensor) (d : ElemType) :
    (t.read d).Within s₀.StillShows := by
  refine .bind (.ofExcept _) fun _ => ?_
  split
  · exact .pure _
  · refine .bind (.inspect _) fun _ => .bind (.inspect _) fun _ => .bind (.inspect _) fun _ => ?_
    exact .ite (Block.view_shows _ d _) (readStaged_shows _ d _ _)

/-- Elements that a block has room for are read by way of a new one, and nothing is denied. -/
theorem readStaged_ends {b : BlockId} (hb : b < s.blocks.size) {count : Nat}
    (hsmall : (s.block b).size < Size.limit) (hcount : count * d.width ≤ (s.block b).size) :
    (readStaged b d count (s.block b).size).Ends s (fun _ s' => s.Leaves none s')
      (fun f s' => s.Aborts Fault.Denies none f s' ∧ ¬f.Denies) := by
  have hnew : s.blocks.size ≤ s.blocks.size := Nat.le_refl _
  have hspares := Store.Spares.acquire s Store.hostMemory (s.block b).size
  have hcheck : Block.checkCopy ⟨s.blocks.size, 0⟩ ⟨b, 0⟩ (s.block b).size
      (s.acquire Store.hostMemory (s.block b).size).2 = .ok () := by
    refine checkCopy_eq_ok (Nat.le_of_eq ?_) ?_ (Nat.le_of_eq ?_) ?_
    · rw [Store.block_acquire_self, Nat.zero_add]
    · rwa [Store.block_acquire_self]
    · rw [Store.block_acquire_of_lt hb, Nat.zero_add]
    · rwa [Nat.zero_add]
  have hstill : (Block.copy ⟨s.blocks.size, 0⟩ ⟨b, 0⟩ (s.block b).size).Within s.StillShows :=
    Block.copy_shows hnew _ _
  unfold readStaged Block.temporary
  rw [ends_bind, ends_changing, ends_thenTidy, ends_bind]
  refine ((Block.copy_ends hcheck).and (hstill.ends _)).mono ?_ ?_
  · rintro _ u ⟨hl, hs⟩
    have hshows : s.Shows u := hs hspares.shows
    have hleaves : s.Leaves none u := (Store.Leaves.of_spares hspares).fresh hl hnew
    refine (Block.view_ends _ d count u).mono (fun _ v hv => ?_) ?_
    · exact (hleaves.trans (.of_binds hv)).trans (.release v _)
    · rintro f v ⟨hv, -, hf⟩
      have haccepts := hf (Nat.lt_of_le_of_lt hcount hsmall)
      have hleft := (hleaves.trans (.of_binds hv)).trans (.release v s.blocks.size)
      have hshown := (hshows.trans (Store.shows_of_binds hv)).release hnew
      exact ⟨⟨hleft, fun _ _ => hshown, fun hd => absurd hd haccepts⟩, haccepts⟩
  · rintro f u ⟨⟨ha, hf⟩, -⟩
    exact ⟨ha.discard hspares hnew, hf⟩

/-- A tensor that is read as what it is denies nothing. -/
theorem read_ends {t : Tensor} (hv : t.Valid s) (hd : t.checkElementType d = .ok ()) :
    (t.read d).Ends s (fun _ s' => s.Leaves none s')
      (fun f s' => s.Aborts Fault.Denies none f s' ∧ ¬f.Denies) := by
  unfold read
  rw [ends_bind, hd, ends_ofExcept]
  refine ⟨fun _ _ => ?_, fun e he => by cases he⟩
  split
  · exact .refl s
  · rename_i b hb
    have hf := hv.filled b hb
    have hsmall : (s.block b).size < Size.limit := hf.size ▸ hf.small
    have hsize : t.byteSize s = (s.block b).size := by
      unfold byteSize
      rw [hb]
    have hcount : t.count s * d.width ≤ (s.block b).size := by
      have hdtype : d = t.dtype := by
        unfold checkElementType at hd
        split at hd
        · assumption
        · cases hd
      exact Nat.le_of_eq (by rw [hf.count hb, hf.size, hdtype])
    rw [ends_bind, ends_inspect, ends_bind, ends_inspect, ends_bind, ends_inspect, hsize]
    split
    · refine (Block.view_ends b d _ s).mono (fun _ u hu => .of_binds hu) ?_
      rintro f _ ⟨hs, hd, hf⟩
      exact ⟨.of_binds hs hd, hf (Nat.lt_of_le_of_lt hcount hsmall)⟩
    · exact readStaged_ends hf.lt hsmall hcount

theorem read_confined {t : Tensor} (hv : t.Valid s) (d : ElemType) :
    (t.read d).Confined Fault.Denies none s := by
  cases hd : t.checkElementType d with
  | ok u => exact (read_ends hv hd).mono (fun _ _ hl => hl) fun _ _ ha => ha.1
  | error e =>
    refine .ofExcept fun u hu => ?_
    rw [hd] at hu
    cases hu

/-! ## Between tensors -/

theorem copyFrom_confined (t other : Tensor) :
    (t.copyFrom other).Confined Fault.Denies t.block s := by
  unfold copyFrom
  split
  · rename_i dst src hdst hsrc
    rw [hdst]
    exact .inspect (Block.copy_confined ⟨dst, 0⟩ ⟨src, 0⟩ _ s)
  · exact .pure ()

/-- The ranges of a copy are ranges of the two blocks. -/
theorem block_of_planCopyRange {t other : Tensor} {count dstOffset srcOffset : Nat}
    {plan : Block.Range × Block.Range × Nat}
    (h : planCopyRange t other count dstOffset srcOffset = .ok plan) :
    t.block = some plan.1.block := by
  unfold planCopyRange at h
  obtain ⟨-, h⟩ := Except.unless_ne_eq_ok_iff.mp h
  obtain ⟨dst, hdst, h⟩ := Except.bind_eq_ok_iff.mp h
  obtain ⟨start, -, h⟩ := Except.bind_eq_ok_iff.mp h
  obtain ⟨src, -, h⟩ := Except.bind_eq_ok_iff.mp h
  obtain ⟨start', -, h⟩ := Except.bind_eq_ok_iff.mp h
  obtain ⟨size, -, h⟩ := Except.bind_eq_ok_iff.mp h
  cases h
  exact requireBlock_eq_ok_iff.mp hdst

theorem copyRange_confined (t other : Tensor) (count dstOffset srcOffset : Nat) :
    (t.copyRange other count dstOffset srcOffset).Confined Fault.Denies t.block s := by
  refine .ofExcept fun plan hplan => ?_
  rw [block_of_planCopyRange hplan]
  exact Block.copy_confined plan.1 plan.2.1 plan.2.2 s

/-! ## Launches on a tensor -/

theorem castTo_confined (t : Tensor) (src : BlockId) (d : ElemType) (target : BlockId) :
    (t.castTo src d target).Confined Fault.Rejects (some target) s :=
  .inspect (.inspect (.ite (fun _ => launch_confined _ _ _ s) fun _ => .pure ()))

theorem fill_confined (t : Tensor) (x : Double) :
    (t.fill x).Confined Fault.Rejects t.block s := by
  unfold fill
  split
  · exact .pure ()
  · rename_i b hb
    rw [hb]
    exact .inspect (launch_confined _ _ _ s)

theorem fillSamples_confined (t : Tensor) (D : Distribution) :
    (t.fillSamples D).Confined Fault.Rejects t.block s := by
  refine .ofExcept fun dst hdst => ?_
  rw [requireBlock_eq_ok_iff.mp hdst]
  exact .inspect (launch_confined _ _ _ s)

end Tensor

namespace Computation

open Tensor

/-- A computation writes the block of its output. -/
theorem block_of_plan {c : Computation} {out : Tensor} {s : Store} {i : Issue}
    (h : c.plan out s = .ok i) : out.block = some i.inv.output := by
  have hone {t : Tensor} {make : BlockId → BlockId → Invocation} {inv : Invocation}
      (hmake : ∀ dst src, (make dst src).output = dst) (h : PlansOne t out make inv) :
      out.block = some inv.output := by
    obtain ⟨dst, hdst, src, -, rfl⟩ := h
    rw [hdst, hmake]
  have htwo {lhs rhs : Tensor} {make : BlockId → BlockId → BlockId → Invocation}
      {inv : Invocation} (hmake : ∀ dst left right, (make dst left right).output = dst)
      (h : PlansTwo lhs rhs out make inv) : out.block = some inv.output := by
    obtain ⟨dst, hdst, left, -, right, -, rfl⟩ := h
    rw [hdst, hmake]
  cases c with
  | map op t x =>
    obtain ⟨inv, hinv, rfl⟩ := Issue.planned_iff.mp h
    exact hone (fun _ _ => rfl) (planMap_eq_ok_iff.mp hinv).2
  | zip op lhs rhs =>
    obtain ⟨inv, hinv, rfl⟩ := Issue.planned_iff.mp h
    exact htwo (fun _ _ _ => rfl) (planZip_eq_ok_iff.mp hinv).2.2.2
  | sums which t =>
    obtain ⟨inv, hinv, rfl⟩ := Issue.planned_iff.mp h
    obtain ⟨dims, -, hinv⟩ := Except.bind_eq_ok_iff.mp hinv
    exact hone (fun _ _ => rfl) (planSums_eq_ok_iff.mp hinv).2
  | sumAxis t axis =>
    obtain ⟨c, -, h⟩ := Except.bind_eq_ok_iff.mp h
    obtain ⟨inv, hinv, rfl⟩ := Issue.planned_iff.mp h
    exact hone (fun _ _ => rfl) (planSums_eq_ok_iff.mp hinv).2
  | softmax t axis =>
    obtain ⟨inv, hinv, rfl⟩ := Issue.planned_iff.mp h
    obtain ⟨-, -, rows, -, cols, -, hinv⟩ := planSoftmax_eq_ok_iff.mp hinv
    exact hone (fun _ _ => rfl) hinv
  | product alpha a b beta =>
    obtain ⟨inv, hinv, rfl⟩ := Issue.planned_iff.mp h
    obtain ⟨-, p, -, count, -, -, -, hinv⟩ := planProduct_eq_ok_iff.mp hinv
    exact htwo (fun _ _ _ => rfl) hinv
  | broadcast op alpha beta v =>
    obtain ⟨inv, hinv, rfl⟩ := Issue.planned_iff.mp h
    obtain ⟨-, dims, -, -, hinv⟩ := planBroadcast_eq_ok_iff.mp hinv
    exact hone (fun _ _ => rfl) hinv
  | addScaled alpha t =>
    obtain ⟨inv, hinv, rfl⟩ := Issue.planned_iff.mp h
    exact hone (fun _ _ => rfl) (planAddScaled_eq_ok_iff.mp hinv).2.2

theorem into_confined (c : Computation) (out : Tensor) (s : Store) :
    (c.into out).Confined Fault.Rejects out.block s := by
  unfold Confined Ends
  rw [c.into_eq out s]
  refine Confined.examine fun i hi => ?_
  rw [block_of_plan hi]
  exact launch_confined i.op i.dtype i.inv s

end Computation

end DeviceTensor
