import DeviceTensor.Proofs.Session.Sharing
import DeviceTensor.Proofs.Session.Transparency
import DeviceTensor.Proofs.Tensor.Conversion
set_option autoImplicit false

/-!
# Conversions in a session

A conversion converts every element or says which is the first one that it cannot convert.  It writes
over its own elements only if nothing else holds them, so that every other holder of the block reads
what it read before; in place, what was converted before the failure stays converted.
-/

namespace DeviceTensor

/-- The tensor `t'` has the shape, the storage order and the device of `t`, and element type `d`. -/
structure Tensor.Retyped (t : Tensor) (d : ElemType) (t' : Tensor) : Prop where
  dtype : t'.dtype = d
  shape : t'.shape = t.shape
  transposed : t'.transposed = t.transposed
  device : t'.device = t.device

theorem Tensor.retyped_converted (t : Tensor) (d : ElemType) (s : Store) :
    t.Retyped d (t.converted d s) :=
  ⟨rfl, rfl, rfl, rfl⟩

namespace Session

open Tensor

variable {σ : Session} {allowed : Command → Prop} {name : String} {t : Tensor} {d : ElemType}

/-! ## The command -/

theorem step_convert_of_ok (hget : σ.tensors.get? name = some t) {t' : Tensor} {s' : Store}
    (hrun : t.convert d σ.store = (.ok t', s')) :
    step (.convert name d) σ =
      (.tensor (t'.report s'), { σ with store := s', tensors := σ.tensors.put name t' }) :=
  changeTensor_of_ok (x := (·.convert d)) hget hrun

theorem step_convert_of_error (hget : σ.tensors.get? name = some t) {f : Fault} {s' : Store}
    (hrun : t.convert d σ.store = (.error f, s')) :
    step (.convert name d) σ = (.failed (.fault f), { σ with store := s' }) :=
  changeTensor_of_error (x := (·.convert d)) hget hrun

/-- A conversion says that memory was refused if it was. -/
theorem step_convert_refusesMemory (hget : σ.tensors.get? name = some t) :
    (step (.convert name d) σ).1.refusesMemory = true ↔ Except.Refused (t.convert d σ.store).1 := by
  cases hrun : t.convert d σ.store with
  | mk r s' =>
    cases r with
    | ok t' =>
      rw [step_convert_of_ok hget hrun]
      exact iff_of_false nofun id
    | error f =>
      rw [step_convert_of_error hget hrun]
      exact Iff.rfl

/-- However a conversion ends, every other slot holds the block that it held, with its bytes. -/
theorem convert_spares_others (h : σ.Sound (fun _ => True) []) {w : Slot} {b : BlockId}
    (hw : w ≠ .tensor name) (hb : σ.block? w = some b) :
    (step (.convert name d) σ).2.block? w = some b ∧
      ((step (.convert name d) σ).2.store.block b).contents = (σ.store.block b).contents := by
  have hframes := step_frames h (.convert name d) fun _ => trivial
  have hsound := step_sound h (.convert name d) fun _ => trivial
  have hfilled : (Command.convert name d).filled? ≠ some w := fun he => hw (Option.some.inj he).symm
  have hafter : (step (.convert name d) σ).2.block? w = some b :=
    (step_block?_of_ne h hfilled).trans hb
  refine ⟨hafter, hframes.bytes.contents b (lt_of_block? h hb) ?_ ?_⟩
  · intro hdst
    obtain ⟨u, hu, hsole⟩ := Option.bind_eq_some_iff.mp hdst
    obtain ⟨hblock, hone⟩ := Option.filter_eq_some_iff.mp hsole
    exact sole_of_handles h ((tensorBlock?_of_get? hu).trans hblock) (of_decide_eq_true hone) hw hb
  · intro hreleased
    exact hsound.holds.released b hreleased (mem_handles_of_block? hsound hafter)

/-! ## Outcomes -/

/-- A conversion is in place exactly if it keeps the size of the block and nothing else holds it. -/
theorem castsInPlace_iff (h : σ.Sound (fun _ => True) []) (hget : σ.tensors.get? name = some t)
    {b : BlockId} (hb : t.block = some b) {n : Nat} :
    castsInPlace b n σ.store = true ↔ n = t.byteSize σ.store ∧ σ.Alone (.tensor name) := by
  have hslot : σ.block? (.tensor name) = some b := (tensorBlock?_of_get? hget).trans hb
  rw [byteSize_of_block hb, alone_tensor_iff h hslot]
  unfold castsInPlace
  rw [Bool.and_eq_true, decide_eq_true_iff, decide_eq_true_iff]

/-- If the slots hold what they held, the blocks have as many handles as they had. -/
theorem handles_of_same_slots {σ' : Session} (h : σ.Sound (fun _ => True) [])
    (h' : σ'.Sound (fun _ => True) []) (htensors : σ'.tensors = σ.tensors)
    (hblocks : σ'.blocks = σ.blocks) {b : BlockId} (hb : b < σ.store.blocks.size)
    (hle : σ.store.blocks.size ≤ σ'.store.blocks.size) :
    (σ'.store.block b).handles = (σ.store.block b).handles := by
  have hsame : σ'.handles = σ.handles := by
    unfold handles
    rw [htensors, hblocks]
  have hcount : (σ'.store.block b).handles = σ'.handles.count b :=
    h'.holds.handles b (Nat.lt_of_lt_of_le hb hle)
  rw [hcount, hsame]
  exact (h.holds.handles b hb).symm

/-- A tensor with memory has a block. -/
theorem exists_block_of_isBound {s : Store} (h : t.isBound s = true) : ∃ b, t.block = some b := by
  unfold isBound at h
  cases hb : t.block with
  | some b => exact ⟨b, rfl⟩
  | none =>
    rw [hb] at h
    cases h

/-- The block of a converted tensor is the old one exactly if the conversion was in place. -/
theorem block_converted_iff (h : σ.Sound (fun _ => True) []) (hget : σ.tensors.get? name = some t)
    {b : BlockId} (hb : t.block = some b) :
    (t.converted d σ.store).block = t.block ↔
      t.count σ.store * d.width = t.byteSize σ.store ∧ σ.Alone (.tensor name) := by
  have hlt := ((h.valid t (Slots.mem_of_get? hget)).filled b hb).lt
  rw [← castsInPlace_iff h hget hb, hb]
  cases hplace : castsInPlace b (t.count σ.store * d.width) σ.store with
  | true =>
    rw [block_converted_in_place hb hplace]
    exact iff_of_true rfl rfl
  | false =>
    rw [block_converted_afresh hb hplace]
    refine iff_of_false (fun hsame => ?_) nofun
    exact Nat.ne_of_lt hlt (Option.some.inj hsame).symm

/-- What a conversion leaves.  Without memory the tensor is described anew.  With memory, either all
elements have conversions, which are then stored, or the first one without a conversion is named, the
slots stay as they are, and bytes change in place only: those of the elements before it.  The block
stays exactly if it has the right size and no other holder.  Other holders keep their bytes.  Memory
is asked for only if the tensor has some and the block does not stay, and it is not refused where the
device supplies the new size. -/
theorem conversion_outcomes (h : Reachable allowed σ) (hget : σ.tensors.get? name = some t)
    (hne : d ≠ t.dtype) (haddressable : (σ.store.device t.device).addressable = true)
    (hcasts : σ.store.CastsOnHost t.dtype t.device)
    (hlimit : t.count σ.store * d.width < Size.limit) :
    let after := step (.convert name d) σ
    let elements := t.stored t.dtype σ.store
    let inPlace := t.count σ.store * d.width = t.byteSize σ.store ∧ σ.Alone (.tensor name)
    (t.isBound σ.store = false → after.1.failure? = none ∧
      ∃ t', after.2.tensors.get? name = some t' ∧ t.Retyped d t' ∧
        t'.isBound after.2.store = false ∧
        t'.byteSize after.2.store = t.count σ.store * d.width) ∧
    (t.isBound σ.store = true → after.1.refusesMemory = false →
      Kernel.Convertible (Elem.cast t.dtype d) elements → after.1.failure? = none ∧
      ∃ t', after.2.tensors.get? name = some t' ∧ t.Retyped d t' ∧
        t'.count after.2.store = t.count σ.store ∧
        (∀ k, k < t.count σ.store → ∃ x y, elements[k]? = some x ∧
          Elem.cast t.dtype d x = some y ∧ (t'.stored d after.2.store)[k]? = some y) ∧
        (t'.block = t.block ↔ inPlace)) ∧
    (t.isBound σ.store = true → after.1.refusesMemory = false →
      ¬Kernel.Convertible (Elem.cast t.dtype d) elements →
      ∃ i, Kernel.FirstUnconvertible (Elem.cast t.dtype d) elements i ∧
        after.1 = .failed (.fault (.launch (.routineFailed
          (.onDevice t.dtype .cast t.device σ.store) (.castOutOfRange i)))) ∧
        after.2.tensors = σ.tensors ∧ after.2.blocks = σ.blocks ∧
        (∀ c, c < σ.store.blocks.size →
          (after.2.store.block c).handles = (σ.store.block c).handles) ∧
        (inPlace → ∀ b, t.block = some b →
          EncodesUpTo d elements i (σ.store.block b).contents (after.2.store.block b).contents) ∧
        ∀ c, c < σ.store.blocks.size → (inPlace → t.block ≠ some c) →
          (after.2.store.block c).contents = (σ.store.block c).contents) ∧
    (after.1.refusesMemory = true → t.isBound σ.store = true ∧ ¬inPlace ∧
      ¬(σ.store.device t.device).Supplies (t.count σ.store * d.width)) ∧
    ∀ w c, w ≠ .tensor name → σ.block? w = some c → after.2.block? w = some c ∧
      (after.2.store.block c).contents = (σ.store.block c).contents := by
  intro after elements inPlace
  have ho : t.Owned σ.store := h.owned (Slots.mem_of_get? hget)
  have hretyped := retyped_converted t d σ.store
  have hput (t' : Tensor) : (σ.tensors.put name t').get? name = some t' := Slots.get?_put_self _ _ _
  have hcalm (hr : after.1.refusesMemory = false) : ¬Except.Refused (t.convert d σ.store).1 :=
    fun hrefused => Bool.noConfusion (((step_convert_refusesMemory hget).mpr hrefused).symm.trans hr)
  refine ⟨fun hbound => ?_, fun hbound hr hall => ?_, fun hbound hr hnot => ?_, fun hr => ?_,
    fun w c hw hc => convert_spares_others h.sound hw hc⟩
  · obtain ⟨s', hrun, hunbound, hbytes⟩ := convert_of_unbound ho.valid hne hlimit hbound
    have hafter : after = _ := step_convert_of_ok hget hrun
    rw [hafter]
    exact ⟨rfl, _, hput _, hretyped, hunbound, hbytes⟩
  · obtain ⟨b, hb⟩ := exists_block_of_isBound hbound
    obtain ⟨s', hrun, hcount, hconverted⟩ := convert_of_convertible ho hb hbound haddressable hcasts
      hlimit hne (hcalm hr) hall
    have hafter : after = _ := step_convert_of_ok hget hrun
    rw [hafter]
    exact ⟨rfl, _, hput _, hretyped, hcount, hconverted, block_converted_iff h.sound hget hb⟩
  · obtain ⟨b, hb⟩ := exists_block_of_isBound hbound
    obtain ⟨i, hfirst⟩ := (Kernel.convertible_or_first _ elements).resolve_left hnot
    obtain ⟨s', hrun, hencodes, hothers⟩ := convert_of_first ho hb hbound haddressable hcasts hlimit
      hne (hcalm hr) hfirst
    have hplace := castsInPlace_iff h.sound hget hb (n := t.count σ.store * d.width)
    have hafter : after = _ := step_convert_of_error hget hrun
    have hsound := step_sound h.sound (.convert name d) fun _ => trivial
    have hle := (step_frames h.sound (.convert name d) fun _ => trivial).bytes.blocks_le
    change after.2.Sound _ _ at hsound
    change _ ≤ after.2.store.blocks.size at hle
    rw [hafter] at hsound hle ⊢
    refine ⟨i, hfirst, rfl, rfl, rfl, ?_, ?_, ?_⟩
    · intro c hc
      exact handles_of_same_slots h.sound hsound rfl rfl hc hle
    · intro hin c hc
      rw [hb] at hc
      cases hc
      exact hencodes (hplace.mpr hin)
    · intro c hc hother
      refine hothers c hc fun hin => ?_
      rintro rfl
      exact hother (hplace.mp hin) hb
  · have hrefused := (step_convert_refusesMemory hget).mp hr
    have hbound : t.isBound σ.store = true := by
      by_contra hunbound
      obtain ⟨s', hrun, -⟩ :=
        convert_of_unbound ho.valid hne hlimit (Bool.eq_false_of_not_eq_true hunbound)
      rw [hrun] at hrefused
      exact hrefused
    obtain ⟨b, hb⟩ := exists_block_of_isBound hbound
    obtain ⟨hplace, hshort⟩ := of_refused_convert ho hb hbound hlimit hne hrefused
    refine ⟨hbound, fun hin => ?_, hshort⟩
    exact Bool.noConfusion (((castsInPlace_iff h.sound hget hb).mpr hin).symm.trans hplace)

/-- A conversion in place that fails at the second of three elements, and the conversion of a tensor
that shares its block with a clone. -/
theorem conversion_fails_in_place_and_leaves_clone :
    ∃ (σ : Session) (t u : Tensor), (Reachable HostOnly σ ∧ σ.tensors.get? "a" = some t ∧
        σ.tensors.get? "u" = some u ∧ t.dtype = .float32 ∧ u.dtype = .float32 ∧
        (σ.store.device 0).addressable = true ∧ σ.store.CastsOnHost .float32 0 ∧
        t.isBound σ.store = true ∧ u.isBound σ.store = true) ∧
      (∃ e, (step (.convert "a" .int32) σ).1 = .failed (.fault (.launch (.routineFailed e
          (.castOutOfRange 1)))) ∧
        t.stored .int32 (step (.convert "a" .int32) σ).2.store = #[1, 0x4F32D05E, 0x40000000]) ∧
      ∃ u', (step (.convert "u" .int32) σ).2.tensors.get? "u" = some u' ∧ u'.dtype = .int32 ∧
        u'.block ≠ u.block ∧
        ((step (.convert "u" .int32) σ).2.store.block 1).contents =
          (σ.store.block 1).contents := by
  let program := [Command.ofElements "a" [3] .float32 #[0x3FC00000, 0x4F32D05E, 0x40000000],
    .ofElements "u" [2] .float32 #[0x3FC00000, 0x40000000], .share "u" "v"]
  let σ := (run program (start [])).2
  let t : Tensor := ⟨[3], .float32, false, 0, some 0⟩
  let u : Tensor := ⟨[2], .float32, false, 0, some 1⟩
  have hprogram : ∀ c ∈ program, HostOnly c := by
    intro c hc
    simp only [program, List.mem_cons, List.not_mem_nil, or_false] at hc
    rcases hc with rfl | rfl | rfl <;> trivial
  have hσ : Reachable HostOnly σ := (reachable_start []).run hprogram
  obtain ⟨ht, hu, hv, haddressable, hcasts, hlimit, hlimit', hgranted, hgranted', hbound, hbound',
      helements, helements', hstored⟩ :
      σ.tensors.get? "a" = some t ∧ σ.tensors.get? "u" = some u ∧ σ.tensors.get? "v" = some u ∧
      (σ.store.device 0).addressable = true ∧
      σ.store.registry.get? (.onDevice .float32 .cast 0 σ.store) = some (.catalog .float32 .cast) ∧
      t.count σ.store * 4 < Size.limit ∧ u.count σ.store * 4 < Size.limit ∧
      (step (.convert "a" .int32) σ).1.refusesMemory = false ∧
      (step (.convert "u" .int32) σ).1.refusesMemory = false ∧
      t.isBound σ.store = true ∧ u.isBound σ.store = true ∧
      t.stored .float32 σ.store = #[0x3FC00000, 0x4F32D05E, 0x40000000] ∧
      u.stored .float32 σ.store = #[0x3FC00000, 0x40000000] ∧
      t.stored .int32 (step (.convert "a" .int32) σ).2.store = #[1, 0x4F32D05E, 0x40000000] := by
    decide +kernel
  clear_value σ
  have hfirst : Kernel.FirstUnconvertible (Elem.cast .float32 .int32) (t.stored .float32 σ.store)
      1 := by
    rw [helements]
    refine ⟨fun k x hk hx => ?_, _, rfl, by decide +kernel⟩
    obtain rfl : k = 0 := by omega
    cases hx
    exact ⟨1, by decide +kernel⟩
  have hall : Kernel.Convertible (Elem.cast .float32 .int32) (u.stored .float32 σ.store) := by
    rw [helements']
    intro k x hx
    match k, hx with
    | 0, rfl => exact ⟨1, by decide +kernel⟩
    | 1, rfl => exact ⟨2, by decide +kernel⟩
  obtain ⟨-, -, hfails, -⟩ := conversion_outcomes (d := .int32) hσ ht nofun haddressable hcasts hlimit
  obtain ⟨i, hi, hreply, -⟩ := hfails hbound hgranted hfirst.not_convertible
  obtain rfl := hi.unique hfirst
  obtain ⟨-, hconverts, -, -, hothers⟩ := conversion_outcomes (d := .int32) hσ hu nofun haddressable
    hcasts hlimit'
  obtain ⟨-, u', hu', hretyped, -, -, hblock⟩ := hconverts hbound' hgranted' hall
  have hclone : σ.block? (.tensor "v") = some 1 := tensorBlock?_of_get? hv
  refine ⟨σ, t, u, ⟨hσ, ht, hu, rfl, rfl, haddressable, hcasts, hbound, hbound'⟩,
    ⟨_, hreply, hstored⟩, u', hu', hretyped.dtype, ?_, (hothers (.tensor "v") 1 nofun hclone).2⟩
  intro hsame
  obtain ⟨-, b, hb, hsole, -⟩ := hblock.mp hsame
  obtain rfl : 1 = b := Option.some.inj ((tensorBlock?_of_get? hu).symm.trans hb)
  exact hsole (.tensor "v") nofun hclone

end Session

end DeviceTensor
