import DeviceTensor.Proofs.Kernel.Exactness
import DeviceTensor.Proofs.Routine.Summation
import DeviceTensor.Proofs.Tensor.Mapping
import DeviceTensor.Proofs.Tensor.Product
set_option autoImplicit false

/-!
# Means of integers

The sum along an axis has one element for each line of the tensor, and is exact if no sum from the
left leaves the range of the type.  The mean divides it in place by the number of elements in a
line, which must be in the range of the type as well.
-/

namespace DeviceTensor

open DeviceTensor.Except Kernel

/-! ## Lines -/

/-- The lines of a vector or a matrix along an axis: their number, the number of elements in each of
them, and the cell of element `p` of line `k`. -/
inductive AxisLines : Shape → Nat → Nat → Nat → (Nat → Nat → Nat × Nat) → Prop where
  | vector (n : Nat) : AxisLines [n] 0 1 n fun _ p => (0, p)
  | columns (rows cols : Nat) : AxisLines [rows, cols] 0 cols rows fun k p => (p, k)
  | rows (rows cols : Nat) : AxisLines [rows, cols] 1 rows cols fun k p => (k, p)

theorem AxisLines.ne_nil {shape : Shape} {axis length depth : Nat} {cell : Nat → Nat → Nat × Nat}
    (h : AxisLines shape axis length depth cell) : shape ≠ [] := by
  cases h <;> exact List.cons_ne_nil _ _

/-- A result with one element for each line is not larger than the tensor. -/
theorem byteSize_of_axisLines {shape : Shape} {axis length depth : Nat}
    {cell : Nat → Nat → Nat × Nat} (h : AxisLines shape axis length depth cell) (hdepth : 0 < depth)
    {d : ElemType} (hsmall : shape.prod * d.width < Size.limit) :
    Shape.byteSize [length] d = .ok (length * d.width) := by
  have hprod : shape.prod = length * depth := by
    cases h with
    | vector n => simp
    | columns rows cols => simp [Nat.mul_comm]
    | rows rows cols => simp
  have hle : length * d.width < Size.limit := by
    refine Nat.lt_of_le_of_lt (Nat.mul_le_mul_right _ ?_) hsmall
    rw [hprod]
    exact Nat.le_mul_of_pos_right _ hdepth
  have hlength : length < Size.limit :=
    Nat.lt_of_le_of_lt (Nat.le_mul_of_pos_right _ d.width_pos) hle
  have hsingle : List.prod [length] = length := List.prod_singleton
  have hcount : Shape.count [length] = .ok length := by
    have hcounted := Shape.count_of_sized (.inl rfl)
      (List.forall_mem_singleton.mpr hlength) (hsingle.symm ▸ hlength)
    rwa [hsingle] at hcounted
  unfold Shape.byteSize
  rw [hcount]
  change Fault.ofTrap (Size.mul length d.width) = _
  rw [Size.mul_of_lt hle]
  rfl

namespace Tensor

/-- Cell `p` of line `k` of a matrix whose rows or columns are summed. -/
def Summation.line (which : Summation) (k p : Nat) : Nat × Nat :=
  match which with
  | .rows => (p, k)
  | .columns => (k, p)

/-- The number of elements in each sum of a matrix. -/
def Summation.depth (which : Summation) (rows cols : Nat) : Nat :=
  match which with
  | .rows => rows
  | .columns => cols

/-- Sums of words are exact, or overflow. -/
theorem Summation.kernel_storesExactly (which : Summation) {w : Nat} {m dst : Array (BitVec w)}
    {g : Grid} (hdst : dst.size = which.length g.rows g.cols)
    (hm : requireHolds m.size g = .ok ()) :
    StoresExactly (List.range (which.length g.rows g.cols)) id
      (fun k => LineFits m g (which.line k) (which.depth g.rows g.cols))
      (fun k => lineSum m g (which.line k) (which.depth g.rows g.cols)) dst
      (which.kernel (Word.arithmetic w) m g dst) := by
  cases which with
  | rows => exact sumRows_storesExactly hdst hm
  | columns => exact sumColumns_storesExactly hdst hm

/-- A collapse along an axis sums the lines of the axis. -/
structure Collapse.Sums (c : Collapse) (t : Tensor) (length depth : Nat)
    (cell : Nat → Nat → Nat × Nat) : Prop where
  lines : c.which.length c.grid.rows c.grid.cols = length
  elements : c.which.depth c.grid.rows c.grid.cols = depth
  sum {w : Nat} (m : Array (BitVec w)) {k : Nat} (hk : k < length) (n : Nat) :
    lineSum m c.grid (c.which.line k) n = lineSum m t.grid (cell k) n

variable {t out : Tensor} {s : Store} {src dst : BlockId} {axis length depth : Nat}
  {cell : Nat → Nat → Nat × Nat} {c : Collapse}

theorem collapse_of_axisLines (h : AxisLines t.shape axis length depth cell) :
    ∃ c, t.collapse axis = .ok c ∧ c.length = length ∧ c.collapsed = depth ∧
      c.Sums t length depth cell := by
  unfold Tensor.collapse
  generalize hshape : t.shape = shape at h
  cases h with
  | vector n =>
    refine ⟨_, rfl, rfl, rfl, rfl, rfl, fun m k hk n => ?_⟩
    obtain rfl := Nat.lt_one_iff.mp hk
    refine Finset.sum_congr rfl fun p _ => congrArg (Word.intAt m) ?_
    unfold placeOf Grid.offset grid
    rw [hshape]
    simp [Summation.line]
  | columns rows cols =>
    refine ⟨_, rfl, rfl, rfl, rfl, rfl, fun m k hk n => ?_⟩
    unfold grid
    rw [hshape]
    rfl
  | rows rows cols =>
    refine ⟨_, rfl, rfl, rfl, rfl, rfl, fun m k hk n => ?_⟩
    unfold grid
    rw [hshape]
    rfl

/-! ## Sums -/

/-- What a tensor holds of the sums of lines. -/
structure HoldsLines (out : Tensor) (d : ElemType) (s : Store) (n : Nat) (value : Nat → Int) :
    Prop where
  size : (out.stored d s).size = n
  value : ∀ k, k < n → ∃ v, (out.stored d s)[k]? = some v ∧ v.toInt = value k

/-- Sums along an axis are one launch. -/
theorem sumAxisTo_eq (h : HostPair t out src dst s) (hc : t.collapse axis = .ok c)
    (hof : OutputOf t out c.length s) :
    sumAxisTo t axis out s =
      launch c.which.op t.dtype (sumInvocation src out.device dst (t.count s) c.grid) s := by
  have hplan : planSums t out c.length c.grid s =
      .ok (sumInvocation src out.device dst (t.count s) c.grid) :=
    planSums_eq_ok_iff.mpr ⟨hof, dst, h.target, src, h.source, rfl⟩
  unfold sumAxisTo
  rw [Action.ofExcept_bind_apply hc, Action.examine_bind_apply hplan]

/-- If no sum from the left leaves the range of the type, the sums are stored. -/
theorem sumAxisTo_exact (h : HostPair t out src dst s) (hd : t.dtype.IsInteger)
    (hc : t.collapse axis = .ok c) (hof : OutputOf t out c.length s)
    (hn : ¬Refused (sumAxisTo t axis out s).1)
    (hp : s.Provides c.which.op out.device (c.which.recipe : Recipe t.dtype))
    (hsums : c.Sums t length depth cell)
    (hfits : ∀ k, k < length → LineFits (t.stored t.dtype s) t.grid (cell k) depth) :
    ∃ s₁, sumAxisTo t axis out s = (.ok (), s₁) ∧ s.Keeps s₁ ∧
      out.HoldsLines t.dtype s₁ length fun k =>
        lineSum (t.stored t.dtype s) t.grid (cell k) depth := by
  obtain ⟨hprod, hlength⟩ := size_of_collapse hc
  have hf := h.input.valid.filled src h.source
  have hcount : t.count s = c.grid.size := (hf.count h.source).trans hprod.symm
  have hsize : c.grid.size < Size.limit := hcount ▸ Calculation.count_lt_limit h.input h.source
  let inv := sumInvocation src out.device dst (t.count s) c.grid
  have hinput : Block.seen src t.dtype c.grid.size s = .ok (t.stored t.dtype s) :=
    hcount ▸ seen_stored h.input h.source h.reads
  have houtput : Block.seen dst t.dtype (c.which.length c.grid.rows c.grid.cols) s =
      .ok (out.stored t.dtype s) := by
    rw [hof.1.1, ← hlength, ← hof.2]
    exact seen_stored h.output h.target h.writes
  have hseen : launchSeen c.which.op t.dtype inv s = .ok (.ofOutcome (c.which.kernel
      (arithmetic t.dtype) (t.stored t.dtype s) c.grid (out.stored t.dtype s))) := by
    rw [launchSeen_sums _ _ _ hsize hp, sumsSeen_eq_ok_iff.mpr ⟨_, hinput, _, houtput, rfl⟩]
    rfl
  have hexact := c.which.kernel_storesExactly (m := t.stored t.dtype s)
    (Block.size_of_seen houtput) (requireHolds_of_le hsize (Block.size_of_seen hinput).ge)
  rw [← arithmetic_of_isInteger hd, hsums.lines, hsums.elements] at hexact
  have hends := hexact.ends.mpr fun k hk => by
    have hlt := List.mem_range.mp hk
    intro p hp'
    rw [hsums.sum _ hlt]
    exact hfits k hlt p hp'
  have hroom := hexact.size.trans
    ((Block.size_of_seen houtput).trans (hlength.symm.trans hof.2.symm))
  rw [sumAxisTo_eq h hc hof] at hn ⊢
  obtain ⟨hrun, hkeeps, hstored⟩ := launch_outcome inv h.output h.target hof.1.1.symm hroom hn
    hseen
  rw [hends] at hrun
  refine ⟨_, Prod.ext hrun rfl, hkeeps, ?_, fun k hk => ?_⟩
  · rw [hstored, hexact.size, Block.size_of_seen houtput, hsums.lines]
  · obtain ⟨v, hv, hvalue⟩ := hexact.stored hends k (List.mem_range.mpr hk)
    rw [hstored]
    exact ⟨v, hv, hvalue.trans (hsums.sum _ hk depth)⟩

/-! ## Means -/

/-- A tensor that is divided in place by a number that is in the range of its type.  Other numbers
are refused. -/
theorem divideBy_exact (h : HostPair out out dst dst s) (hd : out.dtype.IsInteger)
    (hp : s.Provides .divScalar out.device
      (.mapScalar (arithmetic out.dtype).div : Recipe out.dtype))
    {n : Nat} (hpos : 0 < n) (hn : ¬Refused (mapTo .divScalar out (Double.ofInt n) out s).1)
    {value : Nat → Int} (hholds : out.HoldsLines out.dtype s length value) :
    (Word.Fits (8 * out.dtype.width) n →
      ∃ s₁, mapTo .divScalar out (Double.ofInt n) out s = (.ok (), s₁) ∧
        out.HoldsLines out.dtype s₁ length fun k => (value k).tdiv n) ∧
    (¬Word.Fits (8 * out.dtype.width) n →
      (mapTo .divScalar out (Double.ofInt n) out s).1 = .error (.launch
        (.routineFailed (.onDevice out.dtype .divScalar out.device s) (.castOutOfRange 0)))) := by
  have hlike : OutputLike out out s := ⟨⟨⟨rfl, rfl⟩, rfl⟩, rfl⟩
  have hcast := Elem.cast_ofInt hd n
  refine ⟨fun hin => ?_, fun hout =>
    mapTo_of_cast_none h hlike hp (hcast.trans (if_neg hout)) hn⟩
  have hinteger := Word.toInt_ofInt_of_fits hin
  have hquotient (y : Elem out.dtype) := Word.div_of_pos y (y := BitVec.ofInt _ n) (by
    rw [hinteger]
    exact Int.natCast_pos.mpr hpos)
  have hdiv (y : Elem out.dtype) :
      (arithmetic out.dtype).div y (BitVec.ofInt _ n) = Word.div y (BitVec.ofInt _ n) := by
    rw [arithmetic_of_isInteger hd]
    rfl
  obtain ⟨s₁, hrun, -, hstored⟩ := mapTo_of_cast_some h hlike hp (hcast.trans (if_pos hin))
    (fun y => (hdiv y).trans (hquotient y).1) hn
  refine ⟨s₁, hrun, ?_, fun k hk => ?_⟩
  · rw [hstored, Array.size_map]
    exact hholds.size
  · obtain ⟨y, hy, hvalue⟩ := hholds.value k hk
    rw [hstored, Array.getElem?_map, hy]
    refine ⟨_, rfl, ?_⟩
    rw [(hquotient y).2, hvalue, hinteger]

/-- The tensor that is made for one element of each line. -/
def lineResult (t : Tensor) (length : Nat) (s : Store) : Tensor :=
  ⟨[length], t.dtype, false, t.device, some s.blocks.size⟩

/-- A mean is refused memory if its sums are. -/
theorem not_refused_sumAxis (hlines : AxisLines t.shape axis length depth cell)
    (hn : ¬Refused (t.average axis s).1) : ¬Refused (t.sumAxis axis s).1 := by
  obtain ⟨c, hc, -⟩ := collapse_of_axisLines hlines
  unfold average building at hn
  rw [Action.ofExcept_bind_apply hc] at hn
  exact Action.not_refused_of_bind hn

/-- The sums are divided in place. -/
theorem average_eq (hlines : AxisLines t.shape axis length depth cell) {s₁ : Store}
    (hsum : t.sumAxis axis s = (.ok out, s₁)) :
    t.average axis s = out.delivered (mapTo .divScalar out (Double.ofInt depth) out s₁) := by
  obtain ⟨c, hc, -, rfl, -⟩ := collapse_of_axisLines hlines
  unfold average
  rw [Action.ofExcept_bind_apply hc, building_apply hsum]
  rfl

section Average

variable (ho : t.Owned s) (hb : t.block = some src)
  (haddressable : (s.device t.device).addressable = true) (hd : t.dtype.IsInteger)
  (hlines : AxisLines t.shape axis length depth cell)
  (hbytes : Shape.byteSize [length] t.dtype = .ok (length * t.dtype.width))
  (hsums : ∀ which : Summation,
    s.Provides which.op t.device (which.recipe : Recipe t.dtype))
  (hfits : ∀ k, k < length → LineFits (t.stored t.dtype s) t.grid (cell k) depth)

include ho hb haddressable hlines hbytes

/-- Sums along an axis are written into a tensor that is made for them. -/
theorem sumAxis_made :
    let s' := (s.acquire t.device (length * t.dtype.width)).2
    HostPair t (t.lineResult length s) src s.blocks.size s' ∧
      OutputOf t (t.lineResult length s) length s' ∧
      t.sumAxis axis s =
        (t.lineResult length s).delivered (sumAxisTo t axis (t.lineResult length s) s') := by
  intro s'
  obtain ⟨c, hc, hlength, -, -⟩ := collapse_of_axisLines hlines
  have hform : Calculation.form (.sumAxis t axis) = .ok ([length], false) :=
    bind_eq_ok_iff.mpr ⟨c, hc, by rw [hlength]; rfl⟩
  have hcount := (fills_acquire hbytes t.device false s).count rfl
  have hmade : onDevice [c.length] t.device t.dtype s = (.ok (t.lineResult length s), s') := by
    rw [onDevice_eq, hlength, hbytes]
    rfl
  refine ⟨.made hform hbytes ho hb haddressable, ⟨⟨rfl, rfl⟩, hcount.trans List.prod_singleton⟩, ?_⟩
  unfold sumAxis
  rw [Action.ofExcept_bind_apply hc, building_apply hmade]

/-- Sums are not refused memory that is supplied to the tensor and to the result. -/
theorem sumAxis_supplied (hsupplies : s.Supplies src)
    (hresult : (s.device t.device).Supplies (length * t.dtype.width)) :
    ¬Refused (t.sumAxis axis s).1 := by
  obtain ⟨c, hc, rfl, -, -⟩ := collapse_of_axisLines hlines
  obtain ⟨hpair, hof, hsum⟩ := sumAxis_made ho hb haddressable hlines hbytes
  rw [hsum, refused_delivered, sumAxisTo_eq hpair hc hof]
  exact launch_supplied (List.forall_mem_singleton.mpr ⟨ho.lt hb, hsupplies⟩) rfl hresult

include hd hsums hfits

/-- The sums along an axis, in a tensor that is made for them. -/
theorem sumAxis_exact (hn : ¬Refused (t.sumAxis axis s).1) :
    ∃ s₁, t.sumAxis axis s = (.ok (t.lineResult length s), s₁) ∧ s.Extends s₁ ∧
      HostPair (t.lineResult length s) (t.lineResult length s) s.blocks.size s.blocks.size s₁ ∧
      (t.lineResult length s).HoldsLines t.dtype s₁ length fun k =>
        lineSum (t.stored t.dtype s) t.grid (cell k) depth := by
  obtain ⟨c, hc, rfl, -, hlined⟩ := collapse_of_axisLines hlines
  obtain ⟨hpair, hof, hsum⟩ := sumAxis_made ho hb haddressable hlines hbytes
  have hextends := s.extends_acquire t.device (c.length * t.dtype.width)
  have hstored := stored_acquire ho.valid t.dtype t.device (c.length * t.dtype.width)
  have hprovides := (hsums c.which).congr hextends.registry (hextends.backend t.device)
  rw [hsum, refused_delivered] at hn
  obtain ⟨s₁, hrun, hkeeps, hholds⟩ := sumAxisTo_exact hpair hd hc hof hn hprovides hlined
    (hstored.symm ▸ hfits)
  rw [hstored] at hholds
  refine ⟨s₁, ?_, hextends.trans hkeeps.extend, hpair.inPlace hkeeps, hholds⟩
  rw [hsum, hrun]
  rfl

/-- The mean along an axis is the sum of each line divided by the number of its elements, truncated
toward zero, if that number is in the range of the type.  If it is not, the mean is refused. -/
theorem average_exact (hn : ¬Refused (t.average axis s).1) (hdepth : 0 < depth)
    (hdiv : s.Provides .divScalar t.device (.mapScalar (arithmetic t.dtype).div : Recipe t.dtype)) :
    (Word.Fits (8 * t.dtype.width) depth →
      ∃ s₁, t.average axis s = (.ok (t.lineResult length s), s₁) ∧
        (t.lineResult length s).HoldsLines t.dtype s₁ length fun k =>
          (lineSum (t.stored t.dtype s) t.grid (cell k) depth).tdiv depth) ∧
    (¬Word.Fits (8 * t.dtype.width) depth → (t.average axis s).1 = .error (.launch
      (.routineFailed (.onDevice t.dtype .divScalar t.device s) (.castOutOfRange 0)))) := by
  obtain ⟨s₁, hsum, hextends, hpair, hholds⟩ := sumAxis_exact ho hb haddressable hd hlines hbytes
    hsums hfits (not_refused_sumAxis hlines hn)
  have haverage := average_eq hlines hsum
  rw [haverage, refused_delivered] at hn
  have hprovides := hdiv.congr hextends.registry (hextends.backend t.device)
  obtain ⟨hdivides, hrefuses⟩ := divideBy_exact hpair hd hprovides hdepth hn hholds
  refine ⟨fun hin => ?_, fun hout => ?_⟩
  · obtain ⟨s₂, hrun, hmeans⟩ := hdivides hin
    rw [haverage, hrun]
    exact ⟨s₂, rfl, hmeans⟩
  · rw [haverage, delivered_of_error (hrefuses hout)]
    unfold RoutineKey.onDevice
    rw [hextends.backend]
    rfl

/-- A mean is not refused memory that is supplied to the tensor and to the result. -/
theorem average_supplied (hsupplies : s.Supplies src)
    (hresult : (s.device t.device).Supplies (length * t.dtype.width)) :
    ¬Refused (t.average axis s).1 := by
  obtain ⟨s₁, hsum, hextends, hpair, -⟩ := sumAxis_exact ho hb haddressable hd hlines hbytes
    hsums hfits (sumAxis_supplied ho hb haddressable hlines hbytes hsupplies hresult)
  have hlike : OutputLike (t.lineResult length s) (t.lineResult length s) s₁ :=
    ⟨⟨⟨rfl, rfl⟩, rfl⟩, rfl⟩
  have hf := hpair.output.valid.filled _ hpair.target
  have hsize : (t.lineResult length s).byteSize s₁ = length * t.dtype.width := by
    have hprod : (t.lineResult length s).shape.prod = length := List.prod_singleton
    rw [byteSize_of_block hpair.target, hf.size, hprod]
    rfl
  rw [average_eq hlines hsum, refused_delivered, mapTo_eq hpair hlike]
  intro h
  obtain ⟨k, hk, hshort⟩ := not_supplied_of_refused h
  obtain rfl : k = s.blocks.size := by simpa [mapInvocation, Invocation.blocks] using hk
  refine hshort (supplies_of_device hpair.output.valid hpair.target ?_)
  rw [hsize]
  exact (Device.supplies_of_description (hextends.device t.device)).mpr hresult

end Average

end Tensor

end DeviceTensor
