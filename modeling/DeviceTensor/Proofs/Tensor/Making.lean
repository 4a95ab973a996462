import DeviceTensor.Proofs.Tensor.Confined
set_option autoImplicit false

/-!
# Making and changing tensors

An operation that makes a tensor works on blocks that it has made itself, and one that changes what
a tensor says of itself makes at most a new block: the bytes of the blocks that were there stay.
Only a conversion writes an old block, and only if no other holder shares it.
-/

namespace DeviceTensor

open DeviceTensor.Action

namespace Tensor

variable {d : ElemType} {s : Store} {denies : Fault → Prop}

/-! ## New tensors -/

theorem leaves_release (t : Tensor) {dst : Option BlockId} (s : Store) :
    s.Leaves dst (t.release s) := by
  unfold release
  split
  · exact .release s _
  · exact .refl s

theorem leaves_retain (t : Tensor) {dst : Option BlockId} (s : Store) :
    s.Leaves dst (t.retain s) := by
  unfold retain
  split
  · exact .retain s _
  · exact .refl s

/-- A tensor on a new block, and nothing else that is new. -/
def NewIn (t : Tensor) (s s' : Store) : Prop := t.block = some s.blocks.size ∧ s.Spares s'

theorem onDevice_ends (shape : Shape) (d : DeviceId) (dtype : ElemType) (s : Store) :
    (onDevice shape d dtype).Ends s
      (fun t s' => ∃ n, shape.byteSize dtype = .ok n ∧ s' = (s.acquire d n).2 ∧
        t = ⟨shape, dtype, false, d, some s.blocks.size⟩)
      (fun _ s' => s' = s) := by
  unfold Ends
  rw [onDevice_eq]
  cases shape.byteSize dtype with
  | ok n => exact ⟨n, rfl, rfl, rfl⟩
  | error e => rfl

theorem onDevice_new (shape : Shape) (d : DeviceId) (dtype : ElemType) (s : Store) :
    (onDevice shape d dtype).Ends s (fun t s' => t.NewIn s s') (fun _ s' => s' = s) := by
  refine (onDevice_ends shape d dtype s).mono ?_ fun _ _ h => h
  rintro _ _ ⟨n, -, rfl, rfl⟩
  exact ⟨rfl, .acquire s d n⟩

theorem blankLike_made (t : Tensor) (s : Store) :
    t.blankLike.Ends s
      (fun out s' => ∃ n, s' = (s.acquire t.device n).2 ∧ out = { t with block := s.blocks.size })
      (fun _ s' => s' = s) := by
  unfold Ends
  rw [blankLike_eq]
  cases t.shape.byteSize t.dtype with
  | ok n => exact ⟨n, rfl, rfl⟩
  | error e => rfl

theorem blankLike_new (t : Tensor) (s : Store) :
    t.blankLike.Ends s (fun out s' => out.NewIn s s') (fun _ s' => s' = s) := by
  refine (t.blankLike_made s).mono ?_ fun _ _ h => h
  rintro _ _ ⟨n, rfl, rfl⟩
  exact ⟨rfl, .acquire s t.device n⟩

/-- A tensor that is new stays if it is worked on, and goes if the work fails. -/
theorem building_confined {make : Action Fault Tensor} {work : Tensor → Action Fault Unit}
    (hm : make.Ends s (fun t s' => t.NewIn s s' ∧ (work t).Confined denies t.block s')
      (fun _ s' => s' = s)) :
    (building make work).Confined denies none s := by
  unfold Confined building
  rw [ends_bind]
  refine Ends.mono hm ?_ ?_
  · rintro t s₁ ⟨⟨ht, hs⟩, hw⟩
    have hnew : s.blocks.size ≤ s.blocks.size := Nat.le_refl _
    rw [ends_bind, ends_onFailure]
    unfold Confined at hw
    rw [ht] at hw
    refine Ends.mono hw (fun _ u hl => ?_) fun f u ha => ?_
    · exact (Store.Leaves.of_spares hs).fresh hl hnew
    · unfold release
      rw [ht]
      exact ha.discard hs hnew
  · rintro f _ rfl
    exact .refl _

/-- The result of a computation is written into a new tensor. -/
theorem building_into_confined {make : Action Fault Tensor}
    (hm : make.Ends s (fun t s' => t.NewIn s s') (fun _ s' => s' = s)) (c : Computation) :
    (building make (c.into ·)).Confined Fault.Rejects none s :=
  building_confined (hm.mono (fun t s' ht => ⟨ht, c.into_confined t s'⟩) fun _ _ h => h)

theorem ofElements_confined (shape : Shape) (xs : Array (Elem d)) :
    (ofElements shape xs).Confined Fault.Denies none s := by
  refine .ofExcept fun count _ => ?_
  split
  · exact .fail _
  · refine building_confined ((onDevice_ends shape _ d s).mono ?_ fun _ _ h => h)
    rintro _ _ ⟨n, hn, rfl, rfl⟩
    refine ⟨⟨rfl, .acquire s _ n⟩, ?_⟩
    exact upload_confined ((fills_acquire hn _ false s).valid rfl fun ht => by cases ht) xs 0

theorem map_confined (op : Operation) (t : Tensor) (x : Double) :
    (t.map op x).Confined Fault.Rejects none s :=
  building_into_confined (t.blankLike_new s) (.map op t x)

theorem zip_confined (op : Operation) (lhs rhs : Tensor) :
    (lhs.zip op rhs).Confined Fault.Rejects none s :=
  building_into_confined (lhs.blankLike_new s) (.zip op lhs rhs)

theorem operate_confined (f : Operator) (t : Tensor) (rhs : RightSide) :
    (t.operate f rhs).Confined Fault.Rejects none s := by
  cases rhs with
  | tensor other => exact zip_confined f.onTensors t other
  | scalar x => exact map_confined f.onScalar t x

theorem assign_confined (f : Operator) (t : Tensor) (rhs : RightSide) :
    (t.assign f rhs).Confined Fault.Rejects t.block s := by
  rw [Computation.assign_eq]
  exact Computation.into_confined _ t s

theorem softmax_confined (t : Tensor) (axis : Nat) :
    (t.softmax axis).Confined Fault.Rejects none s :=
  building_into_confined (t.blankLike_new s) (.softmax t axis)

theorem sums_confined (which : Summation) (t : Tensor) :
    (t.sums which).Confined Fault.Rejects none s :=
  .ofExcept fun _ _ => building_into_confined (onDevice_new _ _ _ s) (.sums which t)

theorem sumAxis_confined (t : Tensor) (axis : Nat) :
    (t.sumAxis axis).Confined Fault.Rejects none s :=
  .ofExcept fun _ _ => building_into_confined (onDevice_new _ _ _ s) (.sumAxis t axis)

theorem product_confined (a b : Tensor) : (a.product b).Confined Fault.Rejects none s :=
  .examine fun _ _ => .ofExcept fun _ _ =>
    building_into_confined (onDevice_new _ _ _ s) (.product Double.one a b Double.zero)

/-! ## Means -/

theorem Summation.not_sampling (which : Summation) : which.op ∉ Operation.sampling := by
  cases which <;> decide

/-- On the host, a computation that draws no samples shows nothing if its output is new. -/
theorem into_shows {s₀ : Store} (ho : s₀.registry.OnHost) {c : Computation} {out : Tensor}
    {b : BlockId} (hout : out.block = some b) (hb : s₀.blocks.size ≤ b)
    (hop : ∀ s i, c.plan out s = .ok i → i.op ∉ Operation.sampling) :
    (c.into out).Within s₀.StillShows := by
  intro s
  rw [c.into_eq out s, bind_apply]
  unfold Action.examine
  dsimp only
  cases hi : c.plan out s with
  | error f => exact fun hs => hs
  | ok i =>
    have hblock := Computation.block_of_plan hi
    rw [hout] at hblock
    cases hblock
    exact launch_shows ho (hop s i hi) i.dtype hb s

/-- On the host, sums along an axis show nothing. -/
theorem sumAxis_ends (t : Tensor) (axis : Nat) :
    (t.sumAxis axis).Ends s
      (fun out s' => out.block = some s.blocks.size ∧ (s.registry.OnHost → s.Shows s'))
      (fun _ _ => True) := by
  unfold sumAxis building
  rw [ends_bind, ends_ofExcept]
  refine ⟨fun c _ => ?_, fun _ _ => trivial⟩
  rw [ends_bind]
  refine (onDevice_new _ _ _ s).mono ?_ fun _ _ _ => trivial
  rintro out s₁ ⟨hout, hs⟩
  have hshows (ho : s.registry.OnHost) :
      ((Computation.sumAxis t axis).into out).Within s.StillShows := by
    refine into_shows ho hout (Nat.le_refl _) fun s' i hi => ?_
    obtain ⟨c, -, hi⟩ := Except.bind_eq_ok_iff.mp hi
    obtain ⟨inv, -, rfl⟩ := Issue.planned_iff.mp hi
    exact c.which.not_sampling
  rw [ends_bind, ends_onFailure]
  refine (Ends.imp fun ho => (hshows ho).ends s₁).mono (fun _ u hu => ?_) fun _ _ _ => trivial
  exact ⟨hout, fun ho => hu ho hs.shows⟩

/-- A mean is rejected with its sum.  Once the sums are there, the division is all that is missing. -/
def RejectsMean (f : Fault) : Prop :=
  f.Rejects ∧ ∀ key, f = .launch (.missingRoutine key) → key.op ≠ .divScalar

/-- An operation with a scalar on a tensor in place passes its checks. -/
theorem mapTo_self_ends (op : Operation) {t : Tensor} {b : BlockId} (hb : t.block = some b)
    (x : Double) (s : Store) :
    (mapTo op t x t).Ends s (fun _ s' => s.Leaves (some b) s')
      (fun f s' => s.Aborts Fault.Rejects (some b) f s' ∧
        (f.Rejects → ∃ key, f = .launch (.missingRoutine key) ∧ key.op = op)) := by
  have hplan : planMap t x t s =
      .ok { device := t.device, inputs := [b], output := b, count := t.count s, alpha := x } :=
    planMap_eq_ok_iff.mpr ⟨⟨⟨⟨rfl, rfl⟩, rfl⟩, rfl⟩, b, hb, b, hb, rfl⟩
  unfold mapTo
  rw [ends_bind, ends_examine, hplan]
  refine ⟨fun inv hinv => ?_, fun e he => by cases he⟩
  cases hinv
  refine (launch_ends op t.dtype _ s).mono (fun _ _ hl => hl) fun f s' ⟨ha, hf⟩ => ?_
  exact ⟨ha, fun hr => ⟨_, hf hr, rfl⟩⟩

theorem average_confined (t : Tensor) (axis : Nat) :
    (t.average axis).Confined RejectsMean none s := by
  have hnew : s.blocks.size ≤ s.blocks.size := Nat.le_refl _
  refine .ofExcept fun c _ => ?_
  unfold Confined building
  rw [ends_bind]
  refine ((sumAxis_confined t axis).and (sumAxis_ends t axis)).mono ?_ fun f s₁ ha =>
    ha.1.mono And.left
  rintro out s₁ ⟨hl, hout, hs⟩
  rw [ends_bind, ends_onFailure]
  refine (mapTo_self_ends .divScalar hout _ s₁).mono (fun _ u hu => hl.fresh hu hnew) ?_
  rintro f u ⟨ha, hf⟩
  unfold release
  rw [hout]
  refine ⟨(hl.fresh ha.leaves hnew).trans (.release u _), fun ho hlate => ?_, ?_⟩
  · have hshows := hs ho
    exact (hshows.trans (ha.late (hshows.registry.symm ▸ ho) hlate)).release hnew
  · rintro ⟨hr, hkey⟩
    obtain ⟨key, rfl, hop⟩ := hf hr
    exact absurd hop (hkey key rfl)

/-! ## Numbers from whole tensors -/

/-- Once the operands of a reduction have found their routine, nothing is rejected. -/
theorem reduceBlock_ends {t out : Tensor} {b k : BlockId} {op : Operation} (hv : out.Valid s)
    (hout : out.block = some k) (hdtype : out.dtype = .float64) :
    (t.reduceBlock b op out).Ends s (fun _ s' => s.Leaves (some k) s')
      (fun f s' => s.Leaves (some k) s' ∧ (f.Rejects → s.Spares s')) := by
  unfold reduceBlock
  rw [ends_bind, requireBlock_eq_ok_iff.mpr hout, ends_ofExcept]
  refine ⟨fun dst hdst => ?_, fun e he => by cases he⟩
  cases hdst
  rw [ends_bind, ends_inspect, ends_bind]
  have hlaunch := launch_ends op t.dtype
    { device := t.device, inputs := [b], output := k, count := t.count s } s
  refine (hlaunch.and ((launch_keeps op t.dtype _).ends s)).mono ?_ fun f u ha =>
    ⟨ha.1.1.leaves, ha.1.1.denied⟩
  rintro _ u ⟨hl, hk⟩
  have hkind : out.checkElementType .float64 = .ok () := by
    unfold checkElementType
    rw [if_pos hdtype.symm]
  rw [ends_bind]
  refine (read_ends (hv.mono hk.extend) hkind).mono (fun xs v hread => ?_) fun f v ha => ?_
  · rw [ends_ofExcept]
    refine ⟨fun _ _ => hl.trans hread.widen, fun f hf => ⟨hl.trans hread.widen, fun hr => ?_⟩⟩
    cases hget : Buffer.read xs 0 with
    | ok x =>
      rw [hget] at hf
      cases hf
    | error e =>
      rw [hget] at hf
      cases hf
      exact hr.elim
  · exact ⟨hl.trans ha.1.leaves.widen, fun hr => absurd hr.denies ha.2⟩

theorem reduce_ends (t : Tensor) (op : Operation) :
    (t.reduce op).Ends s (fun _ s' => s.Leaves none s')
      (fun f s' => s.Leaves none s' ∧ (f.Rejects → s.Spares s')) := by
  unfold reduce
  split
  · exact .refl s
  · rw [ends_bind]
    refine (onDevice_ends [1] t.device .float64 s).mono ?_ ?_
    · rintro _ _ ⟨n, hn, rfl, rfl⟩
      have hnew : s.blocks.size ≤ s.blocks.size := Nat.le_refl _
      have hspares := Store.Spares.acquire s t.device n
      have hv := (fills_acquire hn t.device false s).valid rfl fun ht => by cases ht
      rw [ends_thenTidy]
      refine (reduceBlock_ends hv rfl rfl).mono (fun _ u hl => ?_) ?_
      · exact ((Store.Leaves.of_spares hspares).fresh hl hnew).trans (.release u _)
      · rintro f u ⟨hl, hr⟩
        refine ⟨((Store.Leaves.of_spares hspares).fresh hl hnew).trans (.release u _), fun hf => ?_⟩
        exact (hspares.trans (hr hf)).release hnew
    · rintro f _ rfl
      exact ⟨.refl _, fun _ => .refl _⟩

/-- On the host, a reduction shows nothing. -/
theorem reduce_shows (ho : s.registry.OnHost) (t : Tensor) {op : Operation}
    (hop : op ∉ Operation.sampling) : (t.reduce op).Within s.StillShows := by
  unfold reduce
  split
  · exact .pure _
  · rename_i b _
    have htemporary : (Block.temporary t.device 8 fun k =>
        t.reduceBlock b op ⟨[1], .float64, false, t.device, some k⟩).Within s.StillShows := by
      refine Block.temporary_shows t.device 8 fun k hk => ?_
      refine .ofExcept_bind fun dst hdst => .bind (.inspect _) fun count => ?_
      cases hdst
      refine .bind (launch_shows ho hop _ hk) fun _ => ?_
      exact .bind (read_shows _ _) fun _ => .ofExcept _
    exact htemporary

theorem norm_confined (t : Tensor) : t.norm.Confined Fault.Rejects none s := by
  refine .of_shows (fun ho => .bind (reduce_shows ho t (by decide)) fun _ => .pure _) ?_
  unfold norm
  rw [ends_bind]
  exact (reduce_ends t .nrm2).mono (fun _ _ hl => hl) fun _ _ h => h

theorem sum_confined (t : Tensor) (d : ElemType) : (t.sum d).Confined Fault.Rejects none s := by
  refine .of_shows (fun ho => .bind (reduce_shows ho t (by decide)) fun total => ?_) ?_
  · split
    · exact .pure _
    · exact .fail _
  · unfold sum
    rw [ends_bind]
    refine (reduce_ends t .sum).mono (fun total u hl => ?_) fun _ _ h => h
    split
    · exact hl
    · exact ⟨hl, False.elim⟩

/-! ## Forms -/

theorem share_confined (t : Tensor) : t.share.Confined denies none s :=
  t.leaves_retain s

/-- A new block in place of the old one. -/
theorem replaced_leaves (t : Tensor) (d : DeviceId) (n : Nat) :
    s.Leaves none (t.release (s.acquire d n).2) :=
  (Store.Leaves.of_spares (.acquire s d n)).trans (t.leaves_release _)

theorem resize_confined (t : Tensor) (shape : Shape) :
    (t.resize shape).Confined denies none s := by
  refine .ofExcept fun n _ => .inspect (.ite (fun _ => .pure _) fun _ => ?_)
  exact t.replaced_leaves t.device n

theorem reshape_confined (t : Tensor) (shape : Shape) :
    (t.reshape shape).Confined denies none s := by
  unfold reshape
  split
  · exact resize_confined t shape
  · exact .ofExcept fun _ _ => .pure _

theorem reshaped_confined {t : Tensor} (hh : ∀ b, t.block = some b → 0 < (s.block b).handles)
    (shape : Shape) : (t.reshaped shape).Confined denies none s := by
  unfold Confined reshaped share
  rw [ends_bind, ends_bind, ends_change, ends_pure, ends_onFailure]
  cases hb : t.block with
  | none =>
    have hretain : t.retain s = s := by
      unfold retain
      rw [hb]
    have hrelease (s' : Store) : t.release s' = s' := by
      unfold release
      rw [hb]
    simp only [hretain, hrelease]
    exact reshape_confined t shape
  | some b =>
    unfold reshape release
    rw [hb, retain_of_block hb, ends_bind, ends_ofExcept]
    refine ⟨fun _ _ => .retain s b, fun e _ => .of_spares ?_⟩
    exact .release_retain (hh b hb)

theorem transpose_confined (t : Tensor) : t.transpose.Confined denies none s := by
  unfold transpose
  split
  · exact t.leaves_retain s
  · exact .fail _

theorem takeForm_confined (t other : Tensor) : (t.takeForm other).Confined denies none s := by
  refine .inspect (.ite (fun _ => .pure _) fun _ => ?_)
  split
  · exact t.leaves_release s
  · exact t.replaced_leaves _ _

/-! ## Other blocks, types and devices -/

/-- A copy into a new block, which goes if the copy fails. -/
theorem copied_ends {d : DeviceId} {n : Nat} {bound : Bool} {x : Action Fault Unit}
    (hx : x.Confined Fault.Denies (some s.blocks.size) (s.acquire d n).2) :
    ((if bound then x else return ()).onFailure (·.release s.blocks.size)).Ends
      (s.acquire d n).2 (fun _ u => s.Leaves none u)
      (fun f u => s.Aborts Fault.Denies none f u) := by
  have hnew : s.blocks.size ≤ s.blocks.size := Nat.le_refl _
  have hspares := Store.Spares.acquire s d n
  have hcopy : (if bound then x else return ()).Confined Fault.Denies (some s.blocks.size)
      (s.acquire d n).2 := .ite (fun _ => hx) fun _ => .pure ()
  rw [ends_onFailure]
  refine Ends.mono hcopy (fun _ u hl => ?_) fun f u ha => ha.discard hspares hnew
  exact (Store.Leaves.of_spares hspares).fresh hl hnew

theorem duplicate_confined (t : Tensor) : t.duplicate.Confined Fault.Denies none s := by
  unfold Confined duplicate
  rw [ends_bind]
  refine (t.blankLike_made s).mono ?_ ?_
  · rintro out _ ⟨n, rfl, rfl⟩
    have hspares := Store.Spares.acquire s t.device n
    cases hb : t.block with
    | none => exact .of_spares (hspares.release (Nat.le_refl _))
    | some b =>
      rw [ends_bind, ends_inspect, ends_bind]
      exact copied_ends (copyFrom_confined { t with block := some s.blocks.size } t)
  · rintro f _ rfl
    exact .refl _

theorem moveTo_confined (t : Tensor) (d : DeviceId) :
    (t.moveTo d).Confined Fault.Denies none s := by
  unfold moveTo
  split
  · exact .pure _
  · split
    · exact .pure _
    · rename_i b hb
      unfold Confined moveBlock
      rw [ends_bind, ends_inspect, ends_bind, ends_inspect, ends_bind, ends_changing, ends_bind]
      refine (copied_ends (Block.copy_confined ⟨s.blocks.size, 0⟩ _ _ _)).mono ?_ fun _ _ h => h
      exact fun _ u hl => hl.trans (t.leaves_release u)

/-- The block of a tensor, if the tensor alone holds it. -/
def soleBlock (t : Tensor) (s : Store) : Option BlockId :=
  t.block.filter fun b => (s.block b).handles = 1

/-- A conversion writes the block of the tensor if no other holder shares it. -/
theorem convert_confined (t : Tensor) (d : ElemType) :
    (t.convert d).Confined Fault.Rejects (t.soleBlock s) s := by
  unfold convert
  split
  · exact .pure _
  · split
    · exact .pure _
    · rename_i b hb
      refine .examine fun size _ => .inspect (.ite (fun hplace => ?_) fun _ => ?_)
      · have hsole : t.soleBlock s = some b := by
          unfold soleBlock
          rw [hb]
          exact Option.filter_eq_some_iff.mpr ⟨rfl, decide_eq_true (of_castsInPlace hplace).2⟩
        rw [hsole]
        unfold Confined
        rw [ends_bind]
        exact castTo_confined t b d b
      · have hnew : s.blocks.size ≤ s.blocks.size := Nat.le_refl _
        have hspares := Store.Spares.acquire s t.device size
        refine Confined.widen ?_
        unfold Confined
        rw [ends_bind, ends_changing, ends_bind, ends_onFailure]
        refine Ends.mono (castTo_confined t b d s.blocks.size) (fun _ u hl => ?_) fun f u ha => ?_
        · exact ((Store.Leaves.of_spares hspares).fresh hl hnew).trans (t.leaves_release u)
        · exact ha.discard hspares hnew

end Tensor

end DeviceTensor
