import DeviceTensor.Proofs.Kernel.Softmax
import DeviceTensor.Proofs.Tensor.Dimensions
import DeviceTensor.Proofs.Tensor.Mapping
import DeviceTensor.Proofs.Tensor.Product
set_option autoImplicit false

/-!
# Softmax

Softmax multiplies the dimensions before its axis and those from the axis on, each product from the
left.  Dimensions before the axis are multiplied when a tensor is made as well; those from the axis
on are not, if one before them is zero.  If they can be multiplied then softmax succeeds, whatever
the elements are.
-/

namespace DeviceTensor.Tensor

open DeviceTensor.Except

variable {t out : Tensor} {s : Store} {src dst : BlockId} {axis : Nat} {F : Analysis (Elem t.dtype)}

/-- The launch of softmax on a grid. -/
def softmaxInvocation (t out : Tensor) (g : Grid) (src dst : BlockId) (s : Store) : Invocation where
  device := out.device
  inputs := [src]
  output := dst
  count := t.count s
  extents := .ofGrid g

theorem softmaxTo_eq (h : HostPair t out src dst s) (hlike : OutputLike t out s)
    (haxis : axis < t.rank) {rows cols : Nat} (hrows : Size.product (t.shape.take axis) = .ok rows)
    (hcols : Size.product (t.shape.drop axis) = .ok cols) :
    softmaxTo t axis out s = launch .softMax t.dtype
      (softmaxInvocation t out ⟨rows, cols, t.transposed⟩ src dst s) s := by
  have hplan : planSoftmax t axis out s =
      .ok (softmaxInvocation t out ⟨rows, cols, t.transposed⟩ src dst s) :=
    planSoftmax_eq_ok_iff.mpr ⟨haxis, hlike, _, hrows, _, hcols, dst, h.target, src, h.source, rfl⟩
  unfold softmaxTo
  rw [Action.examine_bind_apply hplan]

/-- Softmax succeeds if the dimensions from its axis on can be multiplied. -/
theorem softmaxTo_succeeds (h : HostPair t out src dst s) (hlike : OutputLike t out s)
    (haxis : axis < t.rank) (hcount : Size.product t.shape = .ok t.shape.prod)
    (hdrop : ∀ k, ((t.shape.drop axis).take k).prod < Size.limit)
    (htotal : (arithmetic t.dtype).Total)
    (hp : s.Provides .softMax out.device (.softmax F : Recipe t.dtype))
    (hn : ¬Refused (softmaxTo t axis out s).1) : (softmaxTo t axis out s).1 = .ok () := by
  have hrows := Size.product_take hcount axis
  obtain ⟨cols, hcols⟩ := Size.product_iff.mpr hdrop
  let g : Grid := ⟨(t.shape.take axis).prod, cols, t.transposed⟩
  let inv := softmaxInvocation t out g src dst s
  have hsize : t.count s = g.size := by
    rw [(h.input.valid.filled src h.source).count h.source]
    exact (Calculation.prod_of_split hrows hcols).symm
  have hlimit : g.size < Size.limit := hsize ▸ Calculation.count_lt_limit h.input h.source
  have hinput : Block.seen src t.dtype g.size s = .ok (t.stored t.dtype s) :=
    hsize ▸ seen_stored h.input h.source h.reads
  have houtput : Block.seen dst t.dtype g.size s = .ok (out.stored t.dtype s) := by
    rw [hlike.1.1.1, ← hsize, ← hlike.1.2]
    exact seen_stored h.output h.target h.writes
  have heffect := Recipe.effect_softmax inv (F := F) rfl hlimit hinput houtput
  have hseen := Store.Provides.launchSeen inv hp
  rw [heffect] at hseen
  have hin := Block.size_of_seen hinput
  have hends := Kernel.softmax_sure htotal F hlimit (hin.trans (Block.size_of_seen houtput).symm)
    hin.ge
  rw [softmaxTo_eq h hlike haxis hrows hcols] at hn ⊢
  rw [launch_result (Invocation.not_stops_of_not_refused hn), hseen]
  exact congrArg (Except.mapError _) (congrArg (Except.mapError _) hends.eq_ok)

/-- Softmax traps if the dimensions from its axis on cannot be multiplied. -/
theorem softmaxTo_traps (hlike : OutputLike t out s) (haxis : axis < t.rank)
    (hcount : Size.product t.shape = .ok t.shape.prod)
    (hdrop : ¬∀ k, ((t.shape.drop axis).take k).prod < Size.limit) :
    (softmaxTo t axis out s).1 = .error (.trap (.overflow .mul)) := by
  have hrows := Size.product_take hcount axis
  obtain ⟨k, hk⟩ := not_forall.mp hdrop
  have htrap := Size.product_of_le (Nat.le_of_not_lt hk)
  have hcheck : checkOutputLike t out s = .ok () := checkOutputLike_eq_ok_iff.mpr hlike
  have hplan : planSoftmax t axis out s = .error (.trap (.overflow .mul)) := by
    unfold planSoftmax
    rw [if_neg (Nat.not_le.mpr haxis), hcheck, hrows, htrap]
    rfl
  unfold softmaxTo
  rw [Action.bind_apply, Action.examine, hplan]

/-- Softmax of a tensor that the host addresses has its form.  It traps only if the dimensions from
the axis on cannot be multiplied, and then one of those before is zero.  It is refused memory only
where the device may refuse as much as the tensor has. -/
theorem softmax_exact (ho : t.Owned s) (hb : t.block = some src)
    (haddressable : (s.device t.device).addressable = true) (hsized : t.shape.Sized)
    (haxis : axis < t.rank) (htotal : (arithmetic t.dtype).Total)
    (hp : s.Provides .softMax t.device (.softmax F : Recipe t.dtype)) :
    ((∀ k, ((t.shape.drop axis).take k).prod < Size.limit) → ¬Refused (t.softmax axis s).1 →
      ∃ s₁, t.softmax axis s = (.ok { t with block := some s.blocks.size }, s₁)) ∧
    ((¬∀ k, ((t.shape.drop axis).take k).prod < Size.limit) →
      (t.softmax axis s).1 = .error (.trap (.overflow .mul)) ∧ 0 ∈ t.shape.take axis) ∧
    ((s.device t.device).Supplies (t.byteSize s) → ¬Refused (t.softmax axis s).1) := by
  have hf := ho.valid.filled src hb
  have hcounted : t.shape.count = .ok t.shape.prod := ho.counted hb hsized
  have hcount : Size.product t.shape = .ok t.shape.prod := by
    rw [Shape.count_eq] at hcounted
    exact Fault.ofTrap_eq_ok_iff.mp hcounted
  have hbytes : t.shape.byteSize t.dtype = .ok (t.byteSize s) :=
    byteSize_of_counted ho hb hcounted (hf.count hb).symm
  let out : Tensor := { t with block := some s.blocks.size }
  let s' := (s.acquire t.device (t.byteSize s)).2
  have hextends : s.Extends s' := s.extends_acquire t.device (t.byteSize s)
  have hpair : HostPair t out src s.blocks.size s' :=
    .made (f := .softmax t axis) rfl hbytes ho hb haddressable
  have hlike : OutputLike t out s' := by
    have hold := (hpair.input.valid.filled src hb).count hb
    have hnew := (hpair.output.valid.filled _ rfl).count rfl
    exact ⟨⟨⟨rfl, rfl⟩, hnew.trans hold.symm⟩, rfl⟩
  have hmade : t.blankLike s = (.ok out, s') := by
    rw [blankLike_eq, hbytes]
  have hsoftmax : t.softmax axis s = out.delivered (softmaxTo t axis out s') := building_apply hmade
  refine ⟨fun hdrop hn => ?_, fun hdrop => ⟨?_, ?_⟩, fun hsupplies => ?_⟩
  · rw [hsoftmax, refused_delivered] at hn
    have hrun := softmaxTo_succeeds hpair hlike haxis hcount hdrop htotal
      (hp.congr hextends.registry (hextends.backend t.device)) hn
    rw [hsoftmax, delivered_of_ok hrun]
    exact ⟨_, rfl⟩
  · rw [hsoftmax, delivered_of_error (softmaxTo_traps hlike haxis hcount hdrop)]
  · by_contra hzero
    exact hdrop (Size.product_drop hcount axis hzero)
  · rw [hsoftmax, refused_delivered]
    by_cases hdrop : ∀ k, ((t.shape.drop axis).take k).prod < Size.limit
    · obtain ⟨cols, hcols⟩ := Size.product_iff.mpr hdrop
      rw [softmaxTo_eq hpair hlike haxis (Size.product_take hcount axis) hcols]
      exact launch_supplied (List.forall_mem_singleton.mpr
        ⟨ho.lt hb, supplies_of_device ho.valid hb hsupplies⟩) rfl hsupplies
    · rw [softmaxTo_traps hlike haxis hcount hdrop]
      exact Bool.false_ne_true

end DeviceTensor.Tensor
