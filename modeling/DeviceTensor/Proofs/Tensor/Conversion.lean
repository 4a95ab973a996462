import DeviceTensor.Proofs.Routine.Conversion
import DeviceTensor.Proofs.Tensor.Calculation
import DeviceTensor.Proofs.Tensor.Transfer
set_option autoImplicit false

/-!
# Conversions

A conversion is one cast, into the block of the tensor if this keeps its size and has no other holder,
and else into a new block.  Without memory nothing is cast, and the tensor is only described anew.
-/

namespace DeviceTensor.Tensor

open DeviceTensor.Except

variable {t : Tensor} {b target : BlockId} {d : ElemType} {s : Store}

/-! ## What becomes of the tensor -/

/-- The tensor after a conversion. -/
def converted (t : Tensor) (d : ElemType) (s : Store) : Tensor :=
  { t with
    dtype := d
    block := t.block.map fun b =>
      if castsInPlace b (t.count s * d.width) s then b else s.blocks.size }

theorem block_converted_in_place (hb : t.block = some b)
    (hplace : castsInPlace b (t.count s * d.width) s = true) :
    (t.converted d s).block = some b := by
  unfold converted
  rw [hb, Option.map_some, if_pos hplace]

theorem block_converted_afresh (hb : t.block = some b)
    (hplace : castsInPlace b (t.count s * d.width) s = false) :
    (t.converted d s).block = some s.blocks.size := by
  unfold converted
  rw [hb, Option.map_some, if_neg (ne_true_of_eq_false hplace)]

theorem castTo_of_unbound (h : t.isBound s = false) : t.castTo b d target s = (.ok (), s) := by
  unfold castTo
  rw [Action.inspect_bind_apply, Action.inspect_bind_apply, h]
  rfl

theorem castTo_of_bound (h : t.isBound s = true) :
    t.castTo b d target s =
      launch .cast t.dtype (castInvocation t.device b target (t.count s) d) s := by
  unfold castTo
  rw [Action.inspect_bind_apply, Action.inspect_bind_apply, h]
  rfl

theorem convert_of_none (hne : d ≠ t.dtype) (hb : t.block = none) :
    t.convert d s = (.ok (t.converted d s), s) := by
  unfold convert converted
  rw [if_neg hne, hb]
  rfl

section Block

variable (hne : d ≠ t.dtype) (hb : t.block = some b) (hlimit : t.count s * d.width < Size.limit)

include hne hb hlimit

/-- A conversion in place. -/
theorem convert_in_place (hplace : castsInPlace b (t.count s * d.width) s = true) :
    t.convert d s =
      match t.castTo b d b s with
      | (.error f, s') => (.error f, s')
      | (.ok _, s') => (.ok (t.converted d s), s') := by
  have hsize : Fault.ofTrap (Size.mul (t.count s) d.width) = .ok (t.count s * d.width) := by
    rw [Size.mul_of_lt hlimit]
    rfl
  have hconverted : t.converted d s = { t with dtype := d, block := some b } := by
    unfold converted
    rw [hb, Option.map_some, if_pos hplace]
  unfold convert
  rw [if_neg hne, hb]
  dsimp only
  rw [Action.examine_bind_apply hsize, Action.inspect_bind_apply, if_pos hplace, hconverted]
  cases hrun : t.castTo b d b s with
  | mk r s' =>
    cases r with
    | ok u => exact Action.bind_apply_of_ok hrun _
    | error f => exact Action.bind_apply_of_error hrun _

/-- A conversion into a new block, which takes the place of the old one if the cast succeeds. -/
theorem convert_afresh (hplace : castsInPlace b (t.count s * d.width) s = false) :
    t.convert d s =
      match t.castTo b d s.blocks.size (s.acquire t.device (t.count s * d.width)).2 with
      | (.error f, s') => (.error f, s'.release s.blocks.size)
      | (.ok _, s') => (.ok (t.converted d s), s'.release b) := by
  have hsize : Fault.ofTrap (Size.mul (t.count s) d.width) = .ok (t.count s * d.width) := by
    rw [Size.mul_of_lt hlimit]
    rfl
  have hno := ne_true_of_eq_false hplace
  have hconverted : t.converted d s = { t with dtype := d, block := some s.blocks.size } := by
    unfold converted
    rw [hb, Option.map_some, if_neg hno]
  unfold convert
  rw [if_neg hne, hb]
  dsimp only
  rw [Action.examine_bind_apply hsize, Action.inspect_bind_apply, if_neg hno,
    Action.changing_bind_apply, hconverted]
  cases hrun : t.castTo b d s.blocks.size (s.acquire t.device (t.count s * d.width)).2 with
  | mk r s' =>
    cases r with
    | ok u =>
      have hguarded : Action.onFailure (·.release s.blocks.size) (t.castTo b d s.blocks.size)
          (s.acquire t.device (t.count s * d.width)).2 = (.ok u, s') := by
        unfold Action.onFailure
        rw [hrun]
      refine (Action.bind_apply_of_ok hguarded _).trans ?_
      change (_, t.release s') = (_, s'.release b)
      rw [release_of_block hb]
      rfl
    | error f =>
      have hguarded : Action.onFailure (·.release s.blocks.size) (t.castTo b d s.blocks.size)
          (s.acquire t.device (t.count s * d.width)).2 = (.error f, s'.release s.blocks.size) := by
        unfold Action.onFailure
        rw [hrun]
      exact Action.bind_apply_of_error hguarded _

end Block

/-! ## Tensors without memory -/

theorem isBound_of_block (hb : t.block = some b) : t.isBound s = (s.block b).memory.isBound := by
  unfold isBound
  rw [hb]

/-- Without memory the tensor is only described anew. -/
theorem convert_of_unbound (hv : t.Valid s) (hne : d ≠ t.dtype)
    (hlimit : t.count s * d.width < Size.limit) (hbound : t.isBound s = false) :
    ∃ s', t.convert d s = (.ok (t.converted d s), s') ∧ (t.converted d s).isBound s' = false ∧
      (t.converted d s).byteSize s' = t.count s * d.width := by
  cases hb : t.block with
  | none =>
    refine ⟨s, convert_of_none hne hb, ?_, ?_⟩
    · unfold isBound converted
      rw [hb]
      rfl
    · unfold byteSize converted count
      rw [hb]
      unfold byteSize
      rw [hb]
      simp
  | some b =>
    cases hplace : castsInPlace b (t.count s * d.width) s with
    | true =>
      have hblock := block_converted_in_place hb hplace
      refine ⟨s, ?_, ?_, ?_⟩
      · rw [convert_in_place hne hb hlimit hplace, castTo_of_unbound hbound]
      · rw [isBound_of_block hblock, ← isBound_of_block hb]
        exact hbound
      · rw [byteSize_of_block hblock]
        exact (of_castsInPlace hplace).1.symm
    | false =>
      have hlt := (hv.filled b hb).lt
      have hblock := block_converted_afresh hb hplace
      have hbound' : t.isBound (s.acquire t.device (t.count s * d.width)).2 = false := by
        rw [isBound_of_block hb, Store.block_acquire_of_lt hlt, ← isBound_of_block hb]
        exact hbound
      have hnew : ((s.acquire t.device (t.count s * d.width)).2.release b).block s.blocks.size =
          ⟨t.device, t.count s * d.width, 1, .unbound⟩ := by
        rw [Store.block_release_of_ne (Nat.ne_of_lt hlt), Store.block_acquire_self]
      refine ⟨(s.acquire t.device (t.count s * d.width)).2.release b, ?_, ?_, ?_⟩
      · rw [convert_afresh hne hb hlimit hplace, castTo_of_unbound hbound']
      · rw [isBound_of_block hblock, hnew]
        rfl
      · rw [byteSize_of_block hblock, hnew]

/-! ## Tensors with memory -/

/-- The elements of the tensor in `s` can be cast from block `b` to `target`. -/
structure CanCast (t : Tensor) (b : BlockId) (d : ElemType) (s : Store) (target : BlockId)
    (s₁ : Store) : Prop where
  run : t.castTo b d target s₁ =
    launch .cast t.dtype (castInvocation t.device b target (t.count s) d) s₁
  casts : s₁.CastsOnHost t.dtype t.device
  source : Block.seen b t.dtype (t.count s) s₁ = .ok (t.stored t.dtype s)
  place : ∃ dst, Block.seen target d (t.count s) s₁ = .ok dst
  room : s₁.Receives target (t.count s * d.width)
  unhindered : ¬(castInvocation t.device b target (t.count s) d).Stops
    (launch .cast t.dtype (castInvocation t.device b target (t.count s) d)) s₁

section Bound

variable (ho : t.Owned s) (hb : t.block = some b) (hbound : t.isBound s = true)
  (haddressable : (s.device t.device).addressable = true)

include ho hb hbound

theorem exists_bound : ∃ bytes, (s.block b).memory = .bound bytes ∧
    bytes.size = (s.block b).size := by
  obtain ⟨hs, hh, -⟩ := ho.holds
  rw [isBound_of_block hb] at hbound
  cases hm : (s.block b).memory with
  | bound bytes => exact ⟨bytes, rfl, hh.bound b bytes hm⟩
  | unbound =>
    rw [hm] at hbound
    cases hbound
  | released =>
    rw [hm] at hbound
    cases hbound

/-- A cast into a new block is launched as on the old store. -/
theorem castTo_afresh :
    t.castTo b d s.blocks.size (s.acquire t.device (t.count s * d.width)).2 =
      launch .cast t.dtype (castInvocation t.device b s.blocks.size (t.count s) d)
        (s.acquire t.device (t.count s * d.width)).2 := by
  have hold := Store.block_acquire_of_lt (d := t.device) (n := t.count s * d.width) (ho.lt hb)
  have hbound' : t.isBound (s.acquire t.device (t.count s * d.width)).2 = true := by
    rw [isBound_of_block hb, hold, ← isBound_of_block hb]
    exact hbound
  have hf := ho.valid.filled b hb
  have hcount : t.count (s.acquire t.device (t.count s * d.width)).2 = t.count s :=
    ((hf.mono (s.extends_acquire t.device _)).count hb).trans (hf.count hb).symm
  rw [castTo_of_bound hbound', hcount]

include haddressable

variable (hcasts : s.CastsOnHost t.dtype t.device)

include hcasts

theorem canCast_in_place (hplace : castsInPlace b (t.count s * d.width) s = true) :
    CanCast t b d s b s where
  run := castTo_of_bound hbound
  casts := hcasts
  source := seen_stored ho hb haddressable
  place := ⟨_, seen_of_addressable ho.valid hb haddressable
    (Nat.le_of_eq (of_castsInPlace hplace).1)⟩
  room := by
    obtain ⟨bytes, hm, hsize⟩ := exists_bound ho hb hbound
    refine ⟨ho.lt hb, ho.live hb, ?_⟩
    unfold Block.contents
    rw [hm, (of_castsInPlace hplace).1]
    exact Nat.le_of_eq hsize.symm
  unhindered := Invocation.not_stops fun c hc => by
    obtain rfl : c = b := by simpa [castInvocation, Invocation.blocks] using hc
    exact supplies_of_bound hb hbound

theorem canCast_afresh (hlimit : t.count s * d.width < Size.limit)
    (hn : ¬(castInvocation t.device b s.blocks.size (t.count s) d).Stops
      (launch .cast t.dtype (castInvocation t.device b s.blocks.size (t.count s) d))
      (s.acquire t.device (t.count s * d.width)).2) :
    CanCast t b d s s.blocks.size (s.acquire t.device (t.count s * d.width)).2 := by
  have hsight := (s.shows_acquire t.device (t.count s * d.width)).sight b (ho.lt hb)
  constructor
  · exact castTo_afresh ho hb hbound
  · exact hcasts
  · rw [Block.seen_congr hsight]
    exact seen_stored ho hb haddressable
  · exact (Store.seen_acquired_iff hlimit (Nat.le_refl _)).mpr haddressable
  · exact s.receives_acquired t.device _
  · exact hn

end Bound

/-! ## Outcomes of casts -/

section Outcomes

variable {s₁ : Store} (h : CanCast t b d s target s₁)

include h

/-- Elements that all have conversions are converted; the other blocks keep their bytes. -/
theorem CanCast.of_convertible
    (hall : Kernel.Convertible (Elem.cast t.dtype d) (t.stored t.dtype s)) :
    ∃ s₂, t.castTo b d target s₁ = (.ok (), s₂) ∧ s₁.Keeps s₂ ∧
      ∀ k, k < t.count s → ∃ x y, (t.stored t.dtype s)[k]? = some x ∧
        Elem.cast t.dtype d x = some y ∧
        (Elem.decode d (t.count s) (s₂.block target).contents)[k]? = some y := by
  obtain ⟨dst, hdst⟩ := h.place
  obtain ⟨hends, hconverted⟩ := launch_cast_of_convertible h.casts h.source hdst h.room
    h.unhindered hall
  rw [h.run]
  exact ⟨_, Prod.ext hends rfl, launch_keeps .cast t.dtype _ s₁, hconverted.elements⟩

/-- The first element without a conversion ends the cast; the other blocks keep their bytes. -/
theorem CanCast.of_first {i : Nat}
    (hfirst : Kernel.FirstUnconvertible (Elem.cast t.dtype d) (t.stored t.dtype s) i) :
    ∃ s₂, t.castTo b d target s₁ = (.error (.launch (.routineFailed
        (.onDevice t.dtype .cast t.device s₁) (.castOutOfRange i))), s₂) ∧
      EncodesUpTo d (t.stored t.dtype s) i (s₁.block target).contents
        (s₂.block target).contents ∧
      ∀ c, target ≠ c → (s₂.block c).contents = (s₁.block c).contents := by
  obtain ⟨dst, hdst⟩ := h.place
  obtain ⟨hends, hencodes⟩ := launch_cast_of_first h.casts h.source hdst h.room
    h.unhindered hfirst
  rw [h.run]
  exact ⟨_, Prod.ext hends rfl, hencodes, fun c hc => contents_launch_of_ne .cast t.dtype s₁ hc⟩

end Outcomes

/-! ## Outcomes of conversions -/

section Conversion

variable (ho : t.Owned s) (hb : t.block = some b) (hbound : t.isBound s = true)
  (haddressable : (s.device t.device).addressable = true)
  (hcasts : s.CastsOnHost t.dtype t.device) (hlimit : t.count s * d.width < Size.limit)
  (hne : d ≠ t.dtype)

/-- What a tensor stores in a block of the right size. -/
theorem stored_of_size {n : Nat} {s' : Store} (hb : t.block = some b)
    (hsize : (s'.block b).size = n * t.dtype.width) :
    t.count s' = n ∧ t.stored d s' = Elem.decode d n (s'.block b).contents := by
  have hcount : t.count s' = n := by
    unfold count
    rw [byteSize_of_block hb, hsize, Nat.mul_div_cancel n t.dtype.width_pos]
  refine ⟨hcount, ?_⟩
  rw [stored_of_block hb, hcount]

include hb hlimit hne

theorem refused_convert_afresh (hplace : castsInPlace b (t.count s * d.width) s = false) :
    Refused (t.convert d s).1 ↔
      Refused (t.castTo b d s.blocks.size (s.acquire t.device (t.count s * d.width)).2).1 := by
  rw [convert_afresh hne hb hlimit hplace]
  cases t.castTo b d s.blocks.size (s.acquire t.device (t.count s * d.width)).2 with
  | mk r s' => cases r <;> rfl

theorem refused_convert_in_place (hplace : castsInPlace b (t.count s * d.width) s = true) :
    Refused (t.convert d s).1 ↔ Refused (t.castTo b d b s).1 := by
  rw [convert_in_place hne hb hlimit hplace]
  cases t.castTo b d b s with
  | mk r s' => cases r <;> rfl

include ho hbound

/-- A conversion is refused memory only if it needs a new block, and the device may refuse it. -/
theorem of_refused_convert (h : Refused (t.convert d s).1) :
    castsInPlace b (t.count s * d.width) s = false ∧
      ¬(s.device t.device).Supplies (t.count s * d.width) := by
  cases hplace : castsInPlace b (t.count s * d.width) s with
  | true =>
    rw [refused_convert_in_place hb hlimit hne hplace, castTo_of_bound hbound] at h
    obtain ⟨c, hc, hshort⟩ := not_supplied_of_refused h
    obtain rfl : c = b := by simpa [castInvocation, Invocation.blocks] using hc
    exact absurd (supplies_of_bound hb hbound) hshort
  | false =>
    refine ⟨rfl, fun hsupplies => ?_⟩
    rw [refused_convert_afresh hb hlimit hne hplace, castTo_afresh ho hb hbound] at h
    exact launch_supplied (List.forall_mem_singleton.mpr
      ⟨ho.lt hb, supplies_of_bound hb hbound⟩) rfl hsupplies h

include haddressable hcasts

/-- A conversion that is not refused memory can cast into its new block. -/
theorem canCast_of_not_refused (hplace : castsInPlace b (t.count s * d.width) s = false)
    (hn : ¬Refused (t.convert d s).1) :
    CanCast t b d s s.blocks.size (s.acquire t.device (t.count s * d.width)).2 := by
  rw [refused_convert_afresh hb hlimit hne hplace, castTo_afresh ho hb hbound] at hn
  exact canCast_afresh ho hb hbound haddressable hcasts hlimit
    (Invocation.not_stops_of_not_refused hn)

/-- If all elements have conversions, they are stored. -/
theorem convert_of_convertible (hn : ¬Refused (t.convert d s).1)
    (hall : Kernel.Convertible (Elem.cast t.dtype d) (t.stored t.dtype s)) :
    ∃ s', t.convert d s = (.ok (t.converted d s), s') ∧ (t.converted d s).count s' = t.count s ∧
      ∀ k, k < t.count s → ∃ x y, (t.stored t.dtype s)[k]? = some x ∧
        Elem.cast t.dtype d x = some y ∧ ((t.converted d s).stored d s')[k]? = some y := by
  have hlt := ho.lt hb
  cases hplace : castsInPlace b (t.count s * d.width) s with
  | true =>
    obtain ⟨s₂, hrun, hkeeps, helements⟩ :=
      (canCast_in_place ho hb hbound haddressable hcasts hplace).of_convertible hall
    have hsize : (s₂.block b).size = t.count s * d.width := by
      rw [hkeeps.extend.size b hlt]
      exact (of_castsInPlace hplace).1.symm
    obtain ⟨hcount, hstored⟩ := stored_of_size (block_converted_in_place hb hplace) hsize
    refine ⟨s₂, ?_, hcount, ?_⟩
    · rw [convert_in_place hne hb hlimit hplace, hrun]
    · rw [hstored]
      exact helements
  | false =>
    obtain ⟨s₂, hrun, hkeeps, helements⟩ :=
      (canCast_of_not_refused ho hb hbound haddressable hcasts hlimit hne hplace hn).of_convertible
        hall
    have hblock : (s₂.release b).block s.blocks.size = s₂.block s.blocks.size :=
      Store.block_release_of_ne (Nat.ne_of_lt hlt)
    have hsize : ((s₂.release b).block s.blocks.size).size = t.count s * d.width := by
      rw [hblock, hkeeps.extend.size _ (s.receives_acquired t.device _).lt,
        Store.block_acquire_self]
    obtain ⟨hcount, hstored⟩ := stored_of_size (block_converted_afresh hb hplace) hsize
    refine ⟨s₂.release b, ?_, hcount, ?_⟩
    · rw [convert_afresh hne hb hlimit hplace, hrun]
    · rw [hstored, hblock]
      exact helements

/-- The first element without a conversion ends the conversion.  In place the elements before it have
been converted; in a new block nothing is left of them. -/
theorem convert_of_first (hn : ¬Refused (t.convert d s).1) {i : Nat}
    (hfirst : Kernel.FirstUnconvertible (Elem.cast t.dtype d) (t.stored t.dtype s) i) :
    ∃ s', t.convert d s = (.error (.launch (.routineFailed
        (.onDevice t.dtype .cast t.device s) (.castOutOfRange i))), s') ∧
      (castsInPlace b (t.count s * d.width) s = true →
        EncodesUpTo d (t.stored t.dtype s) i (s.block b).contents (s'.block b).contents) ∧
      ∀ c, c < s.blocks.size → (castsInPlace b (t.count s * d.width) s = true → c ≠ b) →
        (s'.block c).contents = (s.block c).contents := by
  cases hplace : castsInPlace b (t.count s * d.width) s with
  | true =>
    obtain ⟨s₂, hrun, hencodes, hothers⟩ :=
      (canCast_in_place ho hb hbound haddressable hcasts hplace).of_first hfirst
    refine ⟨s₂, ?_, fun _ => hencodes, fun c _ hc => hothers c (hc rfl).symm⟩
    rw [convert_in_place hne hb hlimit hplace, hrun]
  | false =>
    obtain ⟨s₂, hrun, -, hothers⟩ :=
      (canCast_of_not_refused ho hb hbound haddressable hcasts hlimit hne hplace hn).of_first hfirst
    refine ⟨s₂.release s.blocks.size, ?_, nofun, fun c hc _ => ?_⟩
    · rw [convert_afresh hne hb hlimit hplace, hrun]
      rfl
    · rw [Store.block_release_of_ne (Nat.ne_of_gt hc), hothers c (Nat.ne_of_gt hc),
        Store.block_acquire_of_lt hc]

end Conversion

end DeviceTensor.Tensor
