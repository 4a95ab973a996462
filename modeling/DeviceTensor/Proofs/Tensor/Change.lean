import DeviceTensor.Proofs.Tensor.Valid
set_option autoImplicit false

/-!
# Changed tensors are valid

An operation that changes the form, the type or the device of a tensor trades the handle of the old
tensor for that of the new one; if it fails, the old handle is still there.
-/

namespace DeviceTensor.Tensor

open DeviceTensor.Action

variable {s : Store} {hs : List BlockId}

/-! ## Shapes -/

theorem replaceBlock_ends {t : Tensor} {b : BlockId} (hh : s.Holds (b :: (t.held ++ hs))) :
    (t.replaceBlock b).Ends s
      (fun r s' => s.Extends s' ∧ r = { t with block := some b } ∧ s'.Holds (b :: hs))
      (fun _ _ => False) := by
  simp only [replaceBlock, ends_bind, ends_change, ends_pure]
  exact ⟨t.extends_release s, trivial, holds_replace hh⟩

theorem of_hasByteSize {t : Tensor} {n : Nat} (h : t.hasByteSize n s = true) :
    ∃ b, t.block = some b ∧ (s.block b).size = n := by
  unfold hasByteSize at h
  split at h
  · rename_i b hb
    exact ⟨b, hb, of_decide_eq_true h⟩
  · cases h

theorem resize_yields {t : Tensor} (hv : t.Valid s) (shape : Shape)
    (hh : s.Holds (t.held ++ hs)) : Yields (t.resize shape) s hs (t.held ++ hs) := by
  simp only [Yields, resize, ends_bind, ends_ofExcept, ends_inspect]
  constructor
  · intro n hn
    split
    · rename_i hfits
      obtain ⟨b, hb, hsize⟩ := of_hasByteSize hfits
      have hold := hv.filled b hb
      obtain ⟨hcount, hprod, hlt⟩ := Shape.of_byteSize hn
      rw [ends_pure]
      refine ⟨.refl s, Fills.valid (b := b) ?_ hb (fun ht => by cases ht), hh⟩
      exact ⟨hold.lt, hold.place, hsize.trans hprod, hprod ▸ hlt, fun _ => hcount⟩
    · rw [ends_bind, ends_changing, ends_bind]
      have hacq := s.extends_acquire t.device n
      refine Ends.mono (replaceBlock_ends (hh.acquire t.device n)) ?_ fun _ _ h => h.elim
      rintro r s' ⟨he, rfl, hh'⟩
      refine ⟨hacq.trans he, ?_, hh'⟩
      exact ((fills_acquire hn t.device false s).mono he).valid rfl (fun ht => by cases ht)
  · intro e _
    exact ⟨.refl s, hh⟩

/-- A shape that a tensor can take has as many elements, and a transposed tensor keeps its shape. -/
theorem of_checkReshape {t : Tensor} {shape : Shape} (h : t.checkReshape shape = .ok ()) :
    t.transposed = true ∧ shape = t.shape ∨
      t.transposed = false ∧ shape.count = .ok shape.prod ∧ shape.prod = t.shape.prod := by
  unfold checkReshape at h
  split at h
  · rename_i ht
    split at h
    · rename_i hshape
      exact .inl ⟨ht, hshape⟩
    · cases h
  · rename_i ht
    obtain ⟨new, hnew, h⟩ := Except.bind_eq_ok_iff.mp h
    obtain ⟨old, hold, h⟩ := Except.bind_eq_ok_iff.mp h
    obtain rfl := Shape.eq_prod_of_count hnew
    obtain rfl := Shape.eq_prod_of_count hold
    have heq := Decidable.not_not.mp (Except.unless_last_eq_ok_iff.mp h)
    exact .inr ⟨Bool.eq_false_iff.mpr ht, hnew, heq⟩

theorem reshape_yields {t : Tensor} (hv : t.Valid s) (shape : Shape)
    (hh : s.Holds (t.held ++ hs)) : Yields (t.reshape shape) s hs (t.held ++ hs) := by
  unfold reshape
  split
  · exact resize_yields hv shape hh
  · rename_i b hb
    simp only [Yields, ends_bind, ends_ofExcept, ends_pure]
    constructor
    · intro _ hc
      have hold := hv.filled b hb
      refine ⟨.refl s, ?_, hh⟩
      rcases of_checkReshape hc with ⟨ht, rfl⟩ | ⟨ht, hcount, hprod⟩
      · exact hv
      · refine Fills.valid (b := b) ?_ hb fun htrue => ?_
        · exact ⟨hold.lt, hold.place, hprod ▸ hold.size, hprod ▸ hold.small, fun _ => hcount⟩
        · rw [ht] at htrue
          cases htrue
    · intro e _
      exact ⟨.refl s, hh⟩

theorem reshaped_yields {t : Tensor} (hv : t.Valid s) (shape : Shape) (hh : s.Holds hs)
    (ht : t.held ⊆ hs) : Yields (t.reshaped shape) s hs hs := by
  simp only [Yields, reshaped, ends_bind, ends_onFailure]
  refine Ends.mono (share_yields hv hh ht) ?_ fun e s' h => h
  rintro out s₁ ⟨he, hv₁, hh₁⟩
  refine Ends.mono (reshape_yields hv₁ shape hh₁) ?_ ?_
  · rintro r s₂ ⟨he₂, hv₂, hh₂⟩
    exact ⟨he.trans he₂, hv₂, hh₂⟩
  · rintro e s₂ ⟨he₂, hh₂⟩
    exact ⟨(he.trans he₂).trans (out.extends_release s₂), holds_release hh₂⟩

theorem transpose_yields {t : Tensor} (hv : t.Valid s) (hh : s.Holds hs) (ht : t.held ⊆ hs) :
    Yields t.transpose s hs hs := by
  unfold transpose
  split
  · rename_i rows cols hshape
    simp only [Yields, share, ends_bind, ends_change, ends_pure]
    refine ⟨t.extends_retain s, ?_, holds_retain hh ht⟩
    cases hb : t.block with
    | none =>
      have hnil := (hv.bare hb).1
      rw [hshape] at hnil
      cases hnil
    | some b =>
      have hold := (hv.filled b hb).mono (t.extends_retain s)
      have hprod : List.prod [cols, rows] = t.shape.prod := by
        rw [hshape]
        simp [Nat.mul_comm]
      refine Fills.valid (b := b) ?_ rfl fun _ => rfl
      refine ⟨hold.lt, hold.place, ?_, ?_, fun hne => absurd rfl hne⟩
      · rw [hold.size, ← hprod]
      · rw [hprod]
        exact hold.small
  · exact ⟨.refl s, hh⟩

/-- The tensor `other` with a block of the same size on the same device. -/
theorem Fills.withBlock {other : Tensor} {theirs : BlockId} (h : other.Fills theirs s)
    (own : BlockId) (hlt : own < s.blocks.size) (hplace : (s.block own).device = other.device)
    (hsize : (s.block own).size = (s.block theirs).size) :
    ({ other with block := some own } : Tensor).Fills own s :=
  ⟨hlt, hplace, hsize.trans h.size, h.small, h.counted⟩

theorem takeForm_yields {t other : Tensor} (hv : t.Valid s) (ho : other.Valid s)
    (hh : s.Holds (t.held ++ hs)) : Yields (t.takeForm other) s hs (t.held ++ hs) := by
  simp only [Yields, takeForm, ends_bind, ends_inspect]
  split
  · rename_i hkeep
    rw [ends_pure]
    unfold keepsBlock at hkeep
    split at hkeep
    · rename_i own theirs hown htheirs
      obtain ⟨hsize, hdevice⟩ := Bool.and_eq_true_iff.mp hkeep
      have hsize := of_decide_eq_true hsize
      have hdevice := of_decide_eq_true hdevice
      have hold := hv.filled own hown
      refine ⟨.refl s, ?_, hh⟩
      rw [hown]
      have hfill := (ho.filled theirs htheirs).withBlock own hold.lt (hold.place.trans hdevice)
        hsize
      exact hfill.valid rfl ho.rank
    · cases hkeep
  · cases hb : other.block with
    | none =>
      simp only [ends_bind, ends_change, ends_pure]
      refine ⟨t.extends_release s, ho.mono (t.extends_release s), ?_⟩
      unfold held
      rw [hb]
      exact holds_release hh
    | some theirs =>
      simp only [ends_bind, ends_inspect, ends_changing, ends_change, ends_pure]
      have hold := ho.filled theirs hb
      have hext := s.extends_acquire other.device (s.block theirs).size
      have hrel := t.extends_release (s.acquire other.device (s.block theirs).size).2
      refine ⟨hext.trans hrel, ?_, holds_replace (hh.acquire _ _)⟩
      refine ((hold.mono hext).withBlock s.blocks.size ?_ ?_ ?_).mono hrel
        |>.valid rfl ho.rank
      · simp
      · rw [Store.block_acquire_self]
      · rw [Store.block_acquire_self, Store.block_acquire_of_lt hold.lt]

/-! ## Types and devices -/

theorem of_castsInPlace {b : BlockId} {n : Nat} (h : castsInPlace b n s = true) :
    n = (s.block b).size ∧ (s.block b).handles = 1 := by
  obtain ⟨hsize, hone⟩ := Bool.and_eq_true_iff.mp h
  exact ⟨of_decide_eq_true hsize, of_decide_eq_true hone⟩

/-- A block of the right size that a tensor of another element type fills. -/
theorem Fills.retyped {t : Tensor} {b : BlockId} {d : ElemType} (h : t.Fills b s)
    (hsize : t.shape.prod * d.width = (s.block b).size)
    (hlt : t.shape.prod * d.width < Size.limit) : ({ t with dtype := d } : Tensor).Fills b s :=
  ⟨h.lt, h.place, hsize.symm, hlt, h.counted⟩

/-- A new block that a tensor of another element type fills. -/
theorem Fills.converted {t : Tensor} {b : BlockId} {d : ElemType} (h : t.Fills b s)
    (hlt : t.shape.prod * d.width < Size.limit) :
    ({ t with dtype := d, block := some s.blocks.size } : Tensor).Fills s.blocks.size
      (s.acquire t.device (t.shape.prod * d.width)).2 := by
  refine ⟨?_, ?_, ?_, hlt, h.counted⟩
  · simp
  · rw [Store.block_acquire_self]
  · rw [Store.block_acquire_self]

theorem convert_yields {t : Tensor} (hv : t.Valid s) (d : ElemType)
    (hh : s.Holds (t.held ++ hs)) : Yields (t.convert d) s hs (t.held ++ hs) := by
  unfold convert
  split
  · exact ⟨.refl s, hv, hh⟩
  · split
    · rename_i hb
      exact ⟨.refl s, valid_of_bare hb (hv.bare hb), hh⟩
    · rename_i b hb
      have hold := hv.filled b hb
      simp only [Yields, ends_bind, ends_examine, ends_inspect]
      refine ⟨?_, fun e _ => ⟨.refl s, hh⟩⟩
      intro n hn
      obtain ⟨hlt, rfl⟩ := Size.mul_eq_ok_iff.mp (Fault.ofTrap_eq_ok_iff.mp hn)
      rw [hold.count hb] at hlt ⊢
      split
      · rename_i hplace
        have hfill := hold.retyped (of_castsInPlace hplace).1 hlt
        rw [ends_bind]
        refine Ends.mono ((castTo_keeps t b d b).ends s) ?_ ?_
        · intro _ s' hk
          exact ⟨hk.extend, (hfill.mono hk.extend).valid hb hv.rank, hk.holds _ hh⟩
        · intro _ s' hk
          exact ⟨hk.extend, hk.holds _ hh⟩
      · simp only [ends_bind, ends_changing, ends_onFailure]
        have hext := s.extends_acquire t.device (t.shape.prod * d.width)
        have hacq := hh.acquire t.device (t.shape.prod * d.width)
        refine Ends.mono ((castTo_keeps t b d s.blocks.size).ends _) ?_ ?_
        · intro _ s' hk
          refine Ends.mono (replaceBlock_ends (hk.holds _ hacq)) ?_ fun _ _ h => h.elim
          rintro r u ⟨he, rfl, hh'⟩
          exact ⟨(hext.trans hk.extend).trans he,
            ((hold.converted hlt).mono (hk.extend.trans he)).valid rfl hv.rank, hh'⟩
        · intro _ s' hk
          exact ⟨(hext.trans hk.extend).trans (Store.extends_release s' _),
            (hk.holds _ hacq).release⟩

/-- A block on another device that a tensor fills as it filled its own. -/
theorem Fills.moved {t : Tensor} {b : BlockId} (h : t.Fills b s) (d : DeviceId) :
    ({ t with device := d, block := some s.blocks.size } : Tensor).Fills s.blocks.size
      (s.acquire d (s.block b).size).2 := by
  refine ⟨?_, ?_, ?_, h.small, h.counted⟩
  · simp
  · rw [Store.block_acquire_self]
  · rw [Store.block_acquire_self]
    exact h.size

theorem moveTo_yields {t : Tensor} (hv : t.Valid s) (d : DeviceId)
    (hh : s.Holds (t.held ++ hs)) : Yields (t.moveTo d) s hs (t.held ++ hs) := by
  unfold moveTo
  split
  · exact ⟨.refl s, hv, hh⟩
  · split
    · rename_i hb
      exact ⟨.refl s, valid_of_bare hb (hv.bare hb), hh⟩
    · rename_i b hb
      have hfill := (hv.filled b hb).moved d
      have hext := s.extends_acquire d (s.block b).size
      have hacq := hh.acquire d (s.block b).size
      have hcopy : (if t.isBound s then
          Block.copy ⟨s.blocks.size, 0⟩ ⟨b, 0⟩ (s.block b).size else return ()).Within
            Store.Keeps :=
        .ite (Block.copy_keeps _ _ _) (.pure ())
      simp only [Yields, moveBlock, ends_bind, ends_inspect, ends_changing, ends_onFailure,
        ends_change, ends_pure]
      refine Ends.mono (hcopy.ends _) ?_ ?_
      · intro _ s' hk
        have hrel := t.extends_release s'
        exact ⟨(hext.trans hk.extend).trans hrel,
          (hfill.mono (hk.extend.trans hrel)).valid rfl hv.rank, holds_replace (hk.holds _ hacq)⟩
      · intro _ s' hk
        exact ⟨(hext.trans hk.extend).trans (Store.extends_release s' _),
          (hk.holds _ hacq).release⟩

theorem duplicate_yields {t : Tensor} (hv : t.Valid s) (hh : s.Holds hs) :
    Yields t.duplicate s hs hs := by
  simp only [Yields, duplicate, ends_bind]
  refine Ends.mono (blankLike_ends hv hh) ?_ fun _ _ h => h
  rintro out s₁ ⟨hform, he, hv₁, hh₁⟩
  split
  · rename_i hb
    simp only [ends_bind, ends_change, ends_pure]
    refine ⟨he.trans (out.extends_release s₁), ?_, holds_release hh₁⟩
    exact valid_of_bare rfl ⟨rfl, hform.trans (hv.bare hb).2⟩
  · simp only [ends_bind, ends_inspect, ends_onFailure, ends_pure]
    have hcopy : (if t.isBound s₁ then out.copyFrom t else return ()).Within Store.Keeps :=
      .ite (copyFrom_keeps out t) (.pure ())
    refine Ends.mono (hcopy.ends s₁) ?_ ?_
    · intro _ s₂ hk
      exact ⟨he.trans hk.extend, hv₁.mono hk.extend, hk.holds _ hh₁⟩
    · intro _ s₂ hk
      exact ⟨(he.trans hk.extend).trans (out.extends_release s₂), holds_release (hk.holds _ hh₁)⟩

/-! ## Elements from the host and computed elements -/

theorem ofElements_yields {d : ElemType} (shape : Shape) (xs : Array (Elem d))
    (hh : s.Holds hs) : Yields (ofElements shape xs) s hs hs := by
  simp only [Yields, ofElements, ends_bind, ends_ofExcept]
  refine ⟨fun n _ => ?_, fun e _ => ⟨.refl s, hh⟩⟩
  split
  · rw [ends_bind, ends_fail]
    exact ⟨.refl s, hh⟩
  · exact building_yields (onDevice_yields shape _ d hh) fun t => upload_keeps t xs 0

theorem map_yields {t : Tensor} (hv : t.Valid s) (op : Operation) (x : Double)
    (hh : s.Holds hs) : Yields (t.map op x) s hs hs :=
  building_yields (blankLike_yields hv hh) fun out => mapTo_keeps op t x out

theorem zip_yields {lhs : Tensor} (hv : lhs.Valid s) (op : Operation) (rhs : Tensor)
    (hh : s.Holds hs) : Yields (lhs.zip op rhs) s hs hs :=
  building_yields (blankLike_yields hv hh) fun out => zipTo_keeps op lhs rhs out

theorem operate_yields {t : Tensor} (hv : t.Valid s) (f : Operator) (rhs : RightSide)
    (hh : s.Holds hs) : Yields (t.operate f rhs) s hs hs := by
  cases rhs with
  | tensor other => exact zip_yields hv f.onTensors other hh
  | scalar x => exact map_yields hv f.onScalar x hh

theorem sums_yields (which : Summation) (t : Tensor) (hh : s.Holds hs) :
    Yields (t.sums which) s hs hs := by
  simp only [Yields, sums, ends_bind, ends_ofExcept]
  refine ⟨fun dims _ => ?_, fun e _ => ⟨.refl s, hh⟩⟩
  exact building_yields (onDevice_yields _ _ _ hh) fun out => sumsTo_keeps which t out

theorem sumAxis_yields (t : Tensor) (axis : Nat) (hh : s.Holds hs) :
    Yields (t.sumAxis axis) s hs hs := by
  simp only [Yields, sumAxis, ends_bind, ends_ofExcept]
  refine ⟨fun c _ => ?_, fun e _ => ⟨.refl s, hh⟩⟩
  exact building_yields (onDevice_yields _ _ _ hh) fun out => sumAxisTo_keeps t axis out

theorem average_yields (t : Tensor) (axis : Nat) (hh : s.Holds hs) :
    Yields (t.average axis) s hs hs := by
  simp only [Yields, average, ends_bind, ends_ofExcept]
  refine ⟨fun c _ => ?_, fun e _ => ⟨.refl s, hh⟩⟩
  exact building_yields (sumAxis_yields t axis hh) fun out => assign_keeps .div out _

theorem softmax_yields {t : Tensor} (hv : t.Valid s) (axis : Nat) (hh : s.Holds hs) :
    Yields (t.softmax axis) s hs hs :=
  building_yields (blankLike_yields hv hh) fun out => softmaxTo_keeps t axis out

theorem product_yields (a b : Tensor) (hh : s.Holds hs) : Yields (a.product b) s hs hs := by
  simp only [Yields, product, ends_bind, ends_examine, ends_ofExcept]
  refine ⟨fun _ _ => ⟨fun dims _ => ?_, fun e _ => ⟨.refl s, hh⟩⟩, fun e _ => ⟨.refl s, hh⟩⟩
  exact building_yields (onDevice_yields _ _ _ hh) fun out => productScaled_keeps _ a b _ out

/-! ## Numbers from whole tensors -/

theorem reduceBlock_keeps (t : Tensor) (b : BlockId) (op : Operation) (out : Tensor) :
    (t.reduceBlock b op out).Within Store.Keeps := by
  refine .bind (.ofExcept _) fun dst => .bind (.inspect _) fun count => ?_
  refine .bind (launch_keeps _ _ _) fun _ => .bind (read_keeps out _) fun result => ?_
  exact .ofExcept _

theorem reduce_keeps (t : Tensor) (op : Operation) : (t.reduce op).Within Store.Keeps := by
  unfold reduce
  split
  · exact .pure _
  · rename_i b _
    exact Block.temporary_keeps t.device 8 fun out =>
      t.reduceBlock_keeps b op ⟨[1], .float64, false, t.device, some out⟩

theorem norm_keeps (t : Tensor) : t.norm.Within Store.Keeps :=
  .bind (reduce_keeps t .nrm2) fun _ => .pure _

theorem sum_keeps (t : Tensor) (d : ElemType) : (t.sum d).Within Store.Keeps := by
  refine .bind (reduce_keeps t .sum) fun total => ?_
  split
  · exact .pure _
  · exact .fail _

end DeviceTensor.Tensor
