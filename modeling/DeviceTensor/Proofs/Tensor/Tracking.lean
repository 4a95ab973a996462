import DeviceTensor.Proofs.Routine.Blank
import DeviceTensor.Proofs.Tensor.Confined
import DeviceTensor.Proofs.Tensor.Mirror
set_option autoImplicit false

/-!
# Operations on stores that resemble each other

Every operation of a tensor tracks on stores that resemble each other, as long as what it writes has
a holder.  Conversions, duplicates and moves look whether memory is bound, and skip their work if it
is not; there the work that is skipped on one side is not seen on the other.
-/

namespace DeviceTensor

open DeviceTensor.Action

variable {s s' : Store}

namespace Tensor

variable {t : Tensor} {d : ElemType}

/-! ## Descriptions and handles -/

theorem byteSize_congr (hs : s.Resembles s') (t : Tensor) : t.byteSize s' = t.byteSize s := by
  unfold byteSize
  cases t.block with
  | none => rfl
  | some b => exact (hs.block b).size

theorem count_congr (hs : s.Resembles s') (t : Tensor) : t.count s' = t.count s :=
  congrArg (· / t.dtype.width) (byteSize_congr hs t)

theorem similar_self (hs : s.Resembles s') (t : Tensor) : t.Similar s t s' :=
  ⟨rfl, count_congr hs t⟩

theorem text_congr (hs : s.Resembles s') (t : Tensor) : t.text s' = t.text s := by
  have hdevice := Device.mk.inj (hs.device t.device)
  unfold text
  dsimp only
  rw [byteSize_congr hs, hdevice.1, hdevice.2.1]

/-- The block of the tensor has a holder. -/
def Lives (t : Tensor) (s : Store) : Prop := ∀ b, t.block = some b → 0 < (s.block b).handles

/-- A tensor whose handle is counted lives. -/
theorem lives_of_holds {hs : List BlockId} (h : s.Holds hs) (ht : t.held ⊆ hs) : t.Lives s := by
  intro b hb
  refine h.handles_pos (ht ?_)
  unfold held
  rw [hb]
  exact List.mem_cons_self

/-- What an operation yields lives. -/
theorem Yields.lives {x : Action Fault Tensor} {hs kept : List BlockId} {u : Store}
    (h : Yields x s hs kept) (hx : x s = (.ok t, u)) : t.Lives u :=
  lives_of_holds (h.ok hx).2.2 (List.subset_append_left _ _)

theorem tidies_release (t : Tensor) : Tidies t.release := by
  refine ⟨fun hs => ?_, t.extends_release⟩
  unfold release
  cases t.block with
  | none => exact hs
  | some b => exact hs.release b

theorem retain_resembles (hs : s.Resembles s') (ht : t.Lives s) :
    (t.retain s).Resembles (t.retain s') := by
  unfold retain
  cases hb : t.block with
  | none => exact hs
  | some b => exact hs.retain (ht b hb)

end Tensor

/-! ## Computations -/

namespace Computation

open Tensor

/-- What is planned depends on what the store shows and on how many elements there are. -/
theorem plan_of_shows (hs : s.Shows s') (hcount : ∀ t : Tensor, t.count s' = t.count s)
    (c : Computation) (out : Tensor) : c.plan out s' = c.plan out s := by
  have hself (t : Tensor) : t.Similar s t s' := ⟨rfl, hcount t⟩
  cases c with
  | map op t x =>
    unfold plan planMap
    dsimp only
    rw [checkOutputLike_congr hs (hself t) (hself out), hcount]
  | zip op lhs rhs =>
    unfold plan planZip
    dsimp only
    rw [checkSameKind_congr hs (hself lhs) (hself rhs),
      checkOutputLike_congr hs (hself lhs) (hself out), hcount]
  | sums which t =>
    unfold plan planSumsOf planSums
    simp only [checkOutput_congr hs (hself t) (hself out), hcount]
  | sumAxis t axis =>
    unfold plan planSums
    simp only [checkOutput_congr hs (hself t) (hself out), hcount]
  | softmax t axis =>
    unfold plan planSoftmax
    dsimp only
    rw [checkOutputLike_congr hs (hself t) (hself out), hcount]
  | product alpha a b beta =>
    unfold plan planProduct
    simp only [checkSameKind_congr hs (hself a) (hself b),
      checkOutput_congr hs (hself a) (hself out), hcount]
  | broadcast op alpha beta v =>
    unfold plan planBroadcast
    simp only [checkSameKind_congr hs (hself v) (hself out), hcount]
  | addScaled alpha t =>
    unfold plan planAddScaled
    dsimp only
    rw [checkSameKind_congr hs (hself t) (hself out), hcount]

theorem plan_congr (hs : s.Resembles s') (c : Computation) (out : Tensor) :
    c.plan out s' = c.plan out s :=
  plan_of_shows hs.shows (count_congr hs) c out

theorem into_tracks (hs : s.Resembles s') (c : Computation) {out : Tensor} (ho : out.Lives s) :
    (c.into out).Tracks s s' := by
  rw [show c.into out = _ from funext (c.into_eq out)]
  refine .examine_bind hs (plan_congr hs c out) fun i hi => ?_
  exact launch_tracks hs (ho _ (block_of_plan hi)) i.op i.dtype

end Computation

namespace Tensor

variable {t : Tensor} {d : ElemType}

theorem assign_tracks (hs : s.Resembles s') (f : Operator) (ht : t.Lives s) (rhs : RightSide) :
    (t.assign f rhs).Tracks s s' := by
  rw [Computation.assign_eq]
  exact Computation.into_tracks hs _ ht

theorem fill_tracks (hs : s.Resembles s') (ht : t.Lives s) (x : Double) :
    (t.fill x).Tracks s s' := by
  unfold fill
  split
  · exact .pure hs ()
  · rename_i b hb
    refine .inspect_bind hs (count_congr hs t) ?_
    refine launch_tracks hs ?_ .fill t.dtype
    exact ht b hb

theorem fillSamples_tracks (hs : s.Resembles s') (ht : t.Lives s) (D : Distribution) :
    (t.fillSamples D).Tracks s s' := by
  refine .ofExcept_bind hs fun dst hdst => .inspect_bind hs (count_congr hs t) ?_
  exact launch_tracks hs (ht dst (requireBlock_eq_ok_iff.mp hdst)) _ _

/-! ## Elements from and to the host -/

theorem upload_tracks (hs : s.Resembles s') (hserve : s.Serviceable) (ht : t.Lives s)
    (xs : Array (Elem d)) (offset : Nat) : (t.upload xs offset).Tracks s s' := by
  have hcheck : t.checkUpload d xs.size offset s' = t.checkUpload d xs.size offset s := by
    unfold checkUpload
    rw [count_congr hs]
  refine .examine_bind hs hcheck fun _ _ => ?_
  split
  · exact .pure hs ()
  · rename_i b hb
    have hdirect := hserve.addressable t.device
    refine .inspect_bind hs (by rw [(hs.serviceable hserve).addressable, hdirect]) ?_
    rw [if_pos hdirect]
    unfold writeAt Block.view
    rw [bind_assoc]
    refine .examine_bind hs (Block.checkView_congr (hs.sight b) _ _) fun _ _ => ?_
    rw [bind_assoc]
    refine Block.bindMemory_bind hs (ht b hb) fun u u' hu _ hpos hm hm' => ?_
    refine .inspect_bind hu (by rw [(hu.block b).contents]) ?_
    exact Block.modifyBytes_tracks hu hpos hm hm' _

theorem read_tracks (hs : s.Resembles s') (hserve : s.Serviceable) (t : Tensor) (d : ElemType) :
    (t.read d).Tracks s s' := by
  refine .ofExcept_bind hs fun _ _ => ?_
  split
  · exact .pure hs _
  · rename_i b hb
    have hdirect := hserve.addressable t.device
    refine .inspect_bind hs (count_congr hs t) (.inspect_bind hs (byteSize_congr hs t) ?_)
    refine .inspect_bind hs (by rw [(hs.serviceable hserve).addressable, hdirect]) ?_
    rw [if_pos hdirect]
    exact Block.view_tracks hs b d _

/-! ## New tensors -/

theorem onDevice_tracks (hs : s.Resembles s') (shape : Shape) (e : DeviceId) (dtype : ElemType) :
    (onDevice shape e dtype).Tracks s s' :=
  .ofExcept_bind hs fun size _ => .acquire_bind hs e size fun h => .pure h _

theorem blankLike_tracks (hs : s.Resembles s') (t : Tensor) : t.blankLike.Tracks s s' :=
  .bind_pure (onDevice_tracks hs t.shape t.device t.dtype) _

/-- A tensor that is made and then worked on. -/
theorem building_tracks {make : Action Fault Tensor} {work : Tensor → Action Fault Unit}
    {held : List BlockId} (hy : Yields make s held held) (hm : make.Tracks s s')
    (hw : ∀ out u u', u.Resembles u' → s.Extends u → out.Lives u → (work out).Tracks u u') :
    (building make work).Tracks s s' := by
  refine .bind hm fun out u u' h _ hu he => ?_
  exact .bind_pure (.onFailure (hw out u u' hu he (hy.lives h)) (tidies_release out)) _

section Making

variable {held : List BlockId}

theorem ofElements_tracks (hs : s.Resembles s') (hserve : s.Serviceable) (hh : s.Holds held)
    (shape : Shape) (xs : Array (Elem d)) : (ofElements shape xs).Tracks s s' := by
  refine .ofExcept_bind hs fun count _ => ?_
  split
  · exact .bind (.fail hs _) fun _ _ _ h => by cases h
  · refine building_tracks (onDevice_yields shape _ d hh) (onDevice_tracks hs shape _ d) ?_
    exact fun out u u' hu he hl => upload_tracks hu (hserve.mono he) hl xs 0

theorem map_tracks (hs : s.Resembles s') (hh : s.Holds held) (ht : t.Valid s) (op : Operation)
    (x : Double) : (t.map op x).Tracks s s' :=
  building_tracks (blankLike_yields ht hh) (blankLike_tracks hs t) fun _ _ _ hu _ hl =>
    Computation.into_tracks hu (.map op t x) hl

theorem zip_tracks {lhs : Tensor} (hs : s.Resembles s') (hh : s.Holds held) (hl : lhs.Valid s)
    (op : Operation) (rhs : Tensor) : (lhs.zip op rhs).Tracks s s' :=
  building_tracks (blankLike_yields hl hh) (blankLike_tracks hs lhs) fun _ _ _ hu _ hl =>
    Computation.into_tracks hu (.zip op lhs rhs) hl

theorem operate_tracks (hs : s.Resembles s') (hh : s.Holds held) (ht : t.Valid s) (f : Operator)
    (rhs : RightSide) : (t.operate f rhs).Tracks s s' := by
  cases rhs with
  | tensor other => exact zip_tracks hs hh ht f.onTensors other
  | scalar x => exact map_tracks hs hh ht f.onScalar x

theorem softmax_tracks (hs : s.Resembles s') (hh : s.Holds held) (ht : t.Valid s) (axis : Nat) :
    (t.softmax axis).Tracks s s' :=
  building_tracks (blankLike_yields ht hh) (blankLike_tracks hs t) fun _ _ _ hu _ hl =>
    Computation.into_tracks hu (.softmax t axis) hl

theorem sums_tracks (hs : s.Resembles s') (hh : s.Holds held) (which : Summation) (t : Tensor) :
    (t.sums which).Tracks s s' :=
  .ofExcept_bind hs fun _ _ =>
    building_tracks (onDevice_yields _ _ _ hh) (onDevice_tracks hs _ _ _) fun _ _ _ hu _ hl =>
      Computation.into_tracks hu (.sums which t) hl

theorem sumAxis_tracks (hs : s.Resembles s') (hh : s.Holds held) (t : Tensor) (axis : Nat) :
    (t.sumAxis axis).Tracks s s' :=
  .ofExcept_bind hs fun _ _ =>
    building_tracks (onDevice_yields _ _ _ hh) (onDevice_tracks hs _ _ _) fun _ _ _ hu _ hl =>
      Computation.into_tracks hu (.sumAxis t axis) hl

theorem average_tracks (hs : s.Resembles s') (hh : s.Holds held) (t : Tensor) (axis : Nat) :
    (t.average axis).Tracks s s' :=
  .ofExcept_bind hs fun _ _ =>
    building_tracks (sumAxis_yields t axis hh) (sumAxis_tracks hs hh t axis) fun _ _ _ hu _ hl =>
      assign_tracks hu .div hl _

theorem product_tracks (hs : s.Resembles s') (hh : s.Holds held) (a b : Tensor) :
    (a.product b).Tracks s s' := by
  have hkind := checkSameKind_congr hs.shows (similar_self hs a) (similar_self hs b)
  refine .examine_bind hs hkind fun _ _ => .ofExcept_bind hs fun _ _ => ?_
  refine building_tracks (onDevice_yields _ _ _ hh) (onDevice_tracks hs _ _ _) ?_
  exact fun _ _ _ hu _ hl => Computation.into_tracks hu (.product _ a b _) hl

/-! ## Reductions -/

theorem reduceBlock_tracks {out : Tensor} (hs : s.Resembles s') (hserve : s.Serviceable)
    (ho : out.Lives s) (t : Tensor) (b : BlockId) (op : Operation) :
    (t.reduceBlock b op out).Tracks s s' := by
  refine .ofExcept_bind hs fun dst hdst => .inspect_bind hs (count_congr hs t) ?_
  refine .bind (launch_tracks hs (ho dst (requireBlock_eq_ok_iff.mp hdst)) op t.dtype) ?_
  intro _ u u' _ _ hu he
  refine .bind (read_tracks hu (hserve.mono he) out .float64) fun _ _ _ _ _ hv _ => ?_
  exact .ofExcept hv _

theorem reduce_tracks (hs : s.Resembles s') (hserve : s.Serviceable) (hh : s.Holds held)
    (t : Tensor) (op : Operation) : (t.reduce op).Tracks s s' := by
  unfold reduce
  split
  · exact .pure hs _
  · rename_i b _
    refine .bind (onDevice_tracks hs _ _ _) fun out u u' hrun _ hu he => ?_
    refine .thenTidy ?_ (tidies_release out)
    exact reduceBlock_tracks hu (hserve.mono he) ((onDevice_yields _ _ _ hh).lives hrun) t b op

theorem norm_tracks (hs : s.Resembles s') (hserve : s.Serviceable) (hh : s.Holds held)
    (t : Tensor) : t.norm.Tracks s s' :=
  .bind_pure (reduce_tracks hs hserve hh t .nrm2) _

theorem sum_tracks (hs : s.Resembles s') (hserve : s.Serviceable) (hh : s.Holds held)
    (t : Tensor) (d : ElemType) : (t.sum d).Tracks s s' := by
  refine .bind (reduce_tracks hs hserve hh t .sum) fun total u u' _ _ hu _ => ?_
  split
  · exact .pure hu _
  · exact .fail hu _

end Making

/-! ## Forms -/

theorem share_tracks (hs : s.Resembles s') (ht : t.Lives s) : t.share.Tracks s s' :=
  .bind_pure (.change (retain_resembles hs ht) (t.extends_retain s)) _

theorem transpose_tracks (hs : s.Resembles s') (ht : t.Lives s) : t.transpose.Tracks s s' := by
  unfold transpose
  split
  · exact .bind_pure (share_tracks hs ht) _
  · exact .fail hs _

/-- A new block in place of the block of the tensor. -/
theorem replaced_tracks (hs : s.Resembles s') (t : Tensor) (e : DeviceId) (n : Nat)
    (out : BlockId → Tensor) :
    (do
      let b ← Action.changing (Store.acquire · e n)
      Action.change t.release
      return out b : Action Fault Tensor).Tracks s s' :=
  .acquire_bind hs e n fun h => .bind_pure (.tidy h (tidies_release t)) _

theorem resize_tracks (hs : s.Resembles s') (t : Tensor) (shape : Shape) :
    (t.resize shape).Tracks s s' := by
  have hfits (size : Nat) : t.hasByteSize size s' = t.hasByteSize size s := by
    unfold hasByteSize
    cases t.block with
    | none => rfl
    | some b =>
      dsimp only
      rw [(hs.block b).size]
  refine .ofExcept_bind hs fun size _ => .inspect_bind hs (hfits size) ?_
  refine .ite (fun _ => .pure hs _) fun _ => ?_
  exact replaced_tracks hs t t.device size fun b =>
    { t with block := some b, shape := shape, transposed := false }

theorem reshape_tracks (hs : s.Resembles s') (t : Tensor) (shape : Shape) :
    (t.reshape shape).Tracks s s' := by
  unfold reshape
  split
  · exact resize_tracks hs t shape
  · exact .ofExcept_bind hs fun _ _ => .pure hs _

theorem reshaped_tracks (hs : s.Resembles s') (ht : t.Lives s) (shape : Shape) :
    (t.reshaped shape).Tracks s s' := by
  refine .bind (share_tracks hs ht) fun out u u' _ _ hu _ => ?_
  exact .onFailure (reshape_tracks hu out shape) (tidies_release out)

theorem takeForm_tracks (hs : s.Resembles s') (t other : Tensor) :
    (t.takeForm other).Tracks s s' := by
  have hkeep : t.keepsBlock other s' = t.keepsBlock other s := by
    unfold keepsBlock
    cases t.block with
    | none => rfl
    | some own =>
      cases other.block with
      | none => rfl
      | some theirs =>
        dsimp only
        rw [(hs.block own).size, (hs.block theirs).size]
  refine .inspect_bind hs hkeep (.ite (fun _ => .pure hs _) fun _ => ?_)
  split
  · exact .bind_pure (.tidy hs (tidies_release t)) _
  · rename_i theirs _
    refine .inspect_bind hs (hs.block theirs).size ?_
    exact replaced_tracks hs t other.device _ fun b => { other with block := some b }

/-! ## Work that is skipped without memory -/

/-- Work on the elements of a tensor that is skipped if there is no memory. -/
def whenBound (t : Tensor) (work : Action Fault Unit) : Action Fault Unit := do
  let bound ← Action.inspect t.isBound
  if bound then work

/-- It does not matter whether work is skipped that is not seen on a blank block. -/
theorem whenBound_tracks (hs : s.Resembles s') {b : BlockId} (hb : t.block = some b)
    {work : Action Fault Unit} (hw : work.Tracks s s')
    (hunseen : ∀ u, s.Resembles u → (u.block b).Blank → work.Unseen u) :
    (t.whenBound work).Tracks s s' := by
  rcases (hs.block b).memory with hm | ⟨hblank, -⟩
  · have hbound : t.isBound s' = t.isBound s := by
      unfold isBound
      rw [hb]
      exact congrArg Memory.isBound hm
    exact .inspect_bind hs hbound (.ite (fun _ => hw) fun _ => .pure hs ())
  · have hskipped (u : Store) (hu : s.Resembles u) : (t.whenBound work).Unseen u := by
      unfold whenBound Unseen
      rw [ends_bind, ends_inspect]
      split
      · exact hunseen u hu (hblank.congr hu)
      · exact .refl u
    exact .of_unseen hs (hskipped s (.refl s)) (hskipped s' hs)

/-! ## Conversions -/

theorem castTo_eq (t : Tensor) (src : BlockId) (d : ElemType) (target : BlockId) :
    t.castTo src d target = t.whenBound (do
      let count ← Action.inspect t.count
      launch .cast t.dtype
        { device := t.device, inputs := [src], output := target, count := count,
          outType := d }) := by
  funext s
  unfold castTo whenBound
  simp only [bind_apply, Action.inspect]
  cases t.isBound s with
  | false => rw [if_neg Bool.false_ne_true, if_neg Bool.false_ne_true]
  | true =>
    rw [if_pos rfl, if_pos rfl]
    simp only [bind_apply, Action.inspect]

/-- A cast into the block itself, or into a blank block. -/
theorem castTo_tracks (hs : s.Resembles s') (hserve : s.Serviceable) {b target : BlockId}
    (hb : t.block = some b) (hf : t.Fills b s) (hpos : 0 < (s.block target).handles)
    (hsmall : t.count s * d.width < Size.limit)
    (hfit : t.count s * d.width ≤ (s.block target).size)
    (hnew : target = b ∨ (s.block target).Blank) : (t.castTo b d target).Tracks s s' := by
  rw [castTo_eq]
  refine whenBound_tracks hs hb (.inspect_bind hs (count_congr hs t) ?_) fun u hu hblank => ?_
  · exact launch_tracks hs hpos .cast t.dtype
  · have hfu := hf.mono hu.shows.toExtends
    have hcount := hfu.count hb
    have hdst : (u.block target).Blank := by
      rcases hnew with rfl | hnew
      · exact hblank
      · exact hnew.congr hu
    rw [← count_congr hu] at hsmall hfit
    rw [← (hu.block target).size] at hfit
    unfold Unseen
    rw [ends_bind, ends_inspect]
    refine launch_cast_unseen (hu.serviceable hserve) rfl hblank hdst ?_ ?_ hsmall hfit
    · dsimp only
      rw [hcount]
      exact hfu.small
    · exact Nat.le_of_eq (by rw [hcount, hfu.size])

theorem convert_tracks (hs : s.Resembles s') (hserve : s.Serviceable) (hv : t.Valid s)
    (hl : t.Lives s) (d : ElemType) : (t.convert d).Tracks s s' := by
  unfold convert
  refine .ite (fun _ => .pure hs t) fun _ => ?_
  split
  · exact .pure hs _
  rename_i b hb
  have hf := hv.filled b hb
  refine .examine_bind hs (by rw [count_congr hs]) fun size hsize => ?_
  obtain ⟨hsmall, rfl⟩ := Size.mul_eq_ok_iff.mp (Fault.ofTrap_eq_ok_iff.mp hsize)
  have hplace (n : Nat) : castsInPlace b n s' = castsInPlace b n s := by
    unfold castsInPlace
    rw [(hs.block b).size, (hs.block b).handles]
  refine .inspect_bind hs (hplace _) (.ite (fun hin => ?_) fun _ => ?_)
  · have hfit := Nat.le_of_eq (of_castsInPlace hin).1
    exact .bind_pure (castTo_tracks hs hserve hb hf (hl b hb) hsmall hfit (.inl rfl)) _
  · refine .acquire_bind hs t.device _ fun ha => ?_
    have hext := s.extends_acquire t.device (t.count s * d.width)
    have hself := s.block_acquire_self t.device (t.count s * d.width)
    have hcount : t.count (s.acquire t.device (t.count s * d.width)).2 = t.count s := by
      rw [(hf.mono hext).count hb, hf.count hb]
    have hblank : ((s.acquire t.device (t.count s * d.width)).2.block s.blocks.size).Blank :=
      .of_unbound (by rw [hself])
    have hcast : (t.castTo b d s.blocks.size).Tracks (s.acquire t.device (t.count s * d.width)).2
        (s'.acquire t.device (t.count s * d.width)).2 := by
      refine castTo_tracks ha (hserve.mono hext) hb (hf.mono hext) ?_ ?_ ?_ (.inr hblank)
      · rw [hself]
        exact Nat.one_pos
      · rwa [hcount]
      · exact Nat.le_of_eq (by rw [hcount, hself])
    refine .bind (.onFailure hcast (Action.tidies_release _)) fun _ u u' _ _ hu _ => ?_
    exact .bind_pure (.bind_pure (.tidy hu (tidies_release t)) _) _

/-! ## Copies -/

theorem copyFrom_tracks (hs : s.Resembles s') (hcopies : s.Copies) (ht : t.Lives s)
    (other : Tensor) : (t.copyFrom other).Tracks s s' := by
  unfold copyFrom
  split
  · rename_i dst src hdst _
    refine .inspect_bind hs (by rw [(hs.block dst).size, (hs.block src).size]) ?_
    exact Block.copy_tracks hs hcopies (ht dst hdst) _ _
  · exact .pure hs ()

theorem copyRange_tracks (hs : s.Resembles s') (hcopies : s.Copies) (ht : t.Lives s)
    (other : Tensor) (count dstOffset srcOffset : Nat) :
    (t.copyRange other count dstOffset srcOffset).Tracks s s' :=
  .ofExcept_bind hs fun plan hplan =>
    Block.copy_tracks hs hcopies (ht _ (block_of_planCopyRange hplan)) plan.2.1 plan.2.2

/-- A copy between the starts of two blank blocks. -/
theorem copied_unseen (hserve : s.Serviceable) {dst src : BlockId} {n : Nat}
    (hdst : (s.block dst).Blank) (hsrc : (s.block src).Blank) (hn : n ≤ (s.block dst).size)
    (hn' : n ≤ (s.block src).size) (hsmall : (s.block dst).size < Size.limit) :
    (Block.copy ⟨dst, 0⟩ ⟨src, 0⟩ n).Unseen s := by
  refine Block.copy_unseen hserve hdst hsrc (checkCopy_eq_ok ?_ hsmall ?_ ?_)
  · rwa [Nat.zero_add]
  · rwa [Nat.zero_add]
  · rw [Nat.zero_add]
    exact Nat.lt_of_le_of_lt hn hsmall

theorem duplicate_tracks (hs : s.Resembles s') (hserve : s.Serviceable) {held : List BlockId}
    (hh : s.Holds held) (hv : t.Valid s) : t.duplicate.Tracks s s' := by
  refine .bind (blankLike_tracks hs t) fun out u u' hrun _ hu he => ?_
  split
  · exact .bind_pure (.tidy hu (tidies_release out)) _
  · rename_i b hb
    have hskip : (do
        let bound ← Action.inspect t.isBound
        Action.onFailure out.release (if bound then out.copyFrom t else return ())
        return out : Action Fault Tensor) =
          Action.onFailure out.release (t.whenBound (out.copyFrom t)) >>= fun _ => return out := rfl
    rw [hskip]
    obtain ⟨-, hout, -⟩ := (blankLike_yields hv hh).ok hrun
    have hlives := (blankLike_yields hv hh).lives hrun
    obtain ⟨c, hc, hnew⟩ : ∃ c, out.block = some c ∧ (u.block c).memory = .unbound := by
      rw [blankLike_eq] at hrun
      split at hrun
      · cases hrun
        refine ⟨s.blocks.size, rfl, ?_⟩
        rw [s.block_acquire_self]
      · cases hrun
    have hfill := hout.filled c hc
    have hcopy := copyFrom_tracks hu (hserve.mono he).toCopies hlives t
    refine .bind_pure (.onFailure (whenBound_tracks hu hb hcopy ?_) (tidies_release out)) _
    intro w hw hblank
    have hsmall : (w.block c).size < Size.limit := by
      rw [(hw.block c).size, hfill.size]
      exact hfill.small
    unfold copyFrom Unseen
    rw [hb, hc]
    dsimp only
    rw [ends_bind, ends_inspect]
    exact copied_unseen (hw.serviceable (hserve.mono he)) ((Block.Blank.of_unbound hnew).congr hw)
      hblank (Nat.min_le_left _ _) (Nat.min_le_right _ _) hsmall

/-- To move a block is to make one and to copy what is in memory. -/
theorem moveBlock_eq {b : BlockId} (hb : t.block = some b) (hlt : b < s.blocks.size)
    (e : DeviceId) : t.moveBlock b e s =
      (do
        let size ← Action.inspect fun s => (s.block b).size
        let moved ← Action.changing (Store.acquire · e size)
        Action.onFailure (·.release moved)
          (t.whenBound (Block.copy ⟨moved, 0⟩ ⟨b, 0⟩ size))
        Action.change t.release
        return { t with device := e, block := some moved } : Action Fault Tensor) s := by
  have hbound : t.isBound (s.acquire e (s.block b).size).2 = t.isBound s := by
    unfold isBound
    rw [hb]
    dsimp only
    rw [Store.block_acquire_of_lt hlt]
  unfold moveBlock whenBound
  simp only [bind_apply, Action.inspect, Action.changing, Action.onFailure, hbound]

theorem moveTo_tracks (hs : s.Resembles s') (hserve : s.Serviceable) (hv : t.Valid s)
    (e : DeviceId) : (t.moveTo e).Tracks s s' := by
  unfold moveTo
  refine .ite (fun _ => .pure hs t) fun _ => ?_
  split
  · exact .pure hs _
  rename_i b hb
  have hf := hv.filled b hb
  have hlt' : b < s'.blocks.size := hs.blocks.symm ▸ hf.lt
  refine .congr ?_ (moveBlock_eq hb hf.lt e) (moveBlock_eq hb hlt' e)
  refine Tracks.inspect_bind (f := fun s => (s.block b).size) hs (hs.block b).size ?_
  refine .acquire_bind hs e _ fun ha => ?_
  have hext := s.extends_acquire e (s.block b).size
  have hnew := s.block_acquire_self e (s.block b).size
  have hold := s.block_acquire_of_lt (d := e) (n := (s.block b).size) hf.lt
  have hsmall : (s.block b).size < Size.limit := by
    rw [hf.size]
    exact hf.small
  have hcopy : (Block.copy ⟨s.blocks.size, 0⟩ ⟨b, 0⟩ (s.block b).size).Tracks
      (s.acquire e (s.block b).size).2 (s'.acquire e (s.block b).size).2 := by
    refine Block.copy_tracks ha (hserve.mono hext).toCopies ?_ _ _
    rw [hnew]
    exact Nat.one_pos
  refine .bind (.onFailure (whenBound_tracks ha hb hcopy fun w hw hblank => ?_)
    (Action.tidies_release _)) fun _ w w' _ _ hw _ => .bind_pure (.tidy hw (tidies_release t)) _
  have hblank' : (w.block s.blocks.size).Blank :=
    (Block.Blank.of_unbound (congrArg Block.memory hnew)).congr hw
  refine copied_unseen (hw.serviceable (hserve.mono hext)) hblank' hblank ?_ ?_ ?_
  · exact Nat.le_of_eq (by rw [(hw.block _).size, hnew])
  · exact Nat.le_of_eq (by rw [(hw.block _).size, hold])
  · rwa [(hw.block _).size, hnew]

end Tensor

end DeviceTensor
