import DeviceTensor.Proofs.Routine.Product
import DeviceTensor.Proofs.Tensor.Doubling
import DeviceTensor.Proofs.Tensor.Result
set_option autoImplicit false

/-!
# Products

A product is one launch, on a tensor that is made for it.  A vector on the left of a product is a
row, and one on the right is a column: reshaped to matrices they have the same product, as the same
launch.
-/

namespace DeviceTensor

open DeviceTensor.Except

/-! ## A second handle on an operand -/

namespace Store

variable {s : Store} {b : BlockId}

theorem acquire_retain (hb : b < s.blocks.size) (d : DeviceId) (n : Nat) :
    ((s.retain b).acquire d n).2 = (s.acquire d n).2.retain b := by
  have hblocks : (s.blocks.modify b fun k => { k with handles := k.handles + 1 }).push
      ⟨d, n, 1, .unbound⟩ =
      (s.blocks.push ⟨d, n, 1, .unbound⟩).modify b fun k => { k with handles := k.handles + 1 } := by
    apply Array.ext_getElem?
    intro i
    rw [Array.getElem?_push, Array.getElem?_modify, Array.getElem?_modify, Array.getElem?_push,
      Array.size_modify]
    by_cases hi : i = s.blocks.size
    · rw [if_pos hi, if_neg (Nat.ne_of_lt (hi ▸ hb)), if_pos hi]
    · rw [if_neg hi, if_neg hi]
  unfold acquire retain modifyBlock
  dsimp only
  rw [hblocks]

end Store

namespace Tensor

variable {a b a' b' : Tensor} {shape shape' : Shape} {x : Extents} {left right : BlockId}
  {s : Store} {n : Nat}

theorem stored_retain (t : Tensor) (d : ElemType) (s : Store) (c : BlockId) :
    t.stored d (s.retain c) = t.stored d s := by
  unfold stored
  rw [t.count_retain]
  cases t.block with
  | none => rfl
  | some k => exact congrArg (Elem.decode d _) (Store.modifyBlock_keeps Block.contents rfl k)

/-! ## Runs of a product -/

/-- The tensors, on these blocks, have a product of this shape and these extents. -/
structure HaveProduct (a b : Tensor) (shape : Shape) (x : Extents) (left right : BlockId)
    (s : Store) : Prop where
  kind : SameKind a b s
  extents : productExtents a b = .ok (shape, x)
  left : a.block = some left
  right : b.block = some right

/-- The tensor, if the work on it succeeded; if not, it is let go of. -/
def delivered (t : Tensor) (run : Except Fault Unit × Store) : Except Fault Tensor × Store :=
  match run with
  | (.ok (), s) => (.ok t, s)
  | (.error f, s) => (.error f, t.release s)

theorem delivered_of_ok {t : Tensor} {run : Except Fault Unit × Store} {u : Unit}
    (h : run.1 = .ok u) : t.delivered run = (.ok t, run.2) := by
  obtain ⟨r, s⟩ := run
  subst h
  rfl

theorem delivered_of_error {t : Tensor} {run : Except Fault Unit × Store} {f : Fault}
    (h : run.1 = .error f) : t.delivered run = (.error f, t.release run.2) := by
  obtain ⟨r, s⟩ := run
  subst h
  rfl

theorem refused_delivered {t : Tensor} {run : Except Fault Unit × Store} :
    Refused (t.delivered run).1 ↔ Refused run.1 := by
  obtain ⟨r, s⟩ := run
  cases r <;> rfl

theorem building_apply {make : Action Fault Tensor} {work : Tensor → Action Fault Unit}
    {t : Tensor} {s₁ : Store} (h : make s = (.ok t, s₁)) :
    building make work s = t.delivered (work t s₁) := by
  unfold building
  rw [Action.bind_apply_of_ok h, Action.bind_apply]
  unfold Action.onFailure delivered
  cases work t s₁ with
  | mk r s₂ => cases r <;> rfl

/-- The tensor that is made for a product. -/
def productResult (a : Tensor) (shape : Shape) (s : Store) : Tensor :=
  ⟨shape, a.dtype, false, a.device, some s.blocks.size⟩

theorem HaveProduct.prod (h : HaveProduct a b shape x left right s) :
    a.shape.prod = x.rows * x.inner ∧ b.shape.prod = x.inner * x.cols ∧
      shape.prod = x.rows * x.cols := by
  obtain ⟨rows, cols, inner, hdims, hextents⟩ := productExtents_eq_ok_iff.mp h.extents
  obtain ⟨hleft, hright, hresult⟩ := size_of_productDims hdims
  dsimp only at hextents hresult
  rw [hextents]
  exact ⟨hleft.symm, hright.symm, hresult⟩

theorem productTo_made (h : HaveProduct a b shape x left right s)
    (hn : shape.byteSize a.dtype = .ok n) :
    productTo a b (productResult a shape s) (s.acquire a.device n).2 =
      launch .gemm a.dtype (productInvocation left right a.device s.blocks.size x)
        (s.acquire a.device n).2 := by
  obtain ⟨-, -, hprod⟩ := h.prod
  obtain ⟨-, hbytes, hsmall⟩ := Shape.of_byteSize hn
  have hcount : (productResult a shape s).count (s.acquire a.device n).2 = x.rows * x.cols :=
    ((fills_acquire hn a.device false s).count rfl).trans hprod
  have hlimit : x.rows * x.cols < Size.limit := by
    rw [hbytes, hprod] at hsmall
    exact Nat.lt_of_le_of_lt (Nat.le_mul_of_pos_right _ a.dtype.width_pos) hsmall
  have hplan : planProduct Double.one a b Double.zero (productResult a shape s)
      (s.acquire a.device n).2 =
        .ok (productInvocation left right a.device s.blocks.size x) := by
    refine planProduct_eq_ok_iff.mpr ⟨h.kind, (shape, x), h.extents, x.rows * x.cols,
      Size.mul_of_lt hlimit, ⟨⟨rfl, rfl⟩, hcount⟩, rfl, ?_⟩
    refine ⟨s.blocks.size, rfl, left, h.left, right, h.right, ?_⟩
    rw [hcount]
    rfl
  unfold productTo productScaled
  rw [Action.examine_bind_apply hplan]

/-- A product is one launch, on a tensor that is made for it. -/
theorem product_eq (h : HaveProduct a b shape x left right s) :
    a.product b s =
      match shape.byteSize a.dtype with
      | .ok n => (productResult a shape s).delivered
          (launch .gemm a.dtype (productInvocation left right a.device s.blocks.size x)
            (s.acquire a.device n).2)
      | .error f => (.error f, s) := by
  have hcheck : checkSameKind a b s = .ok () := checkSameKind_eq_ok_iff.mpr h.kind
  have hproduct : a.product b s =
      building (onDevice shape a.device a.dtype) (productTo a b ·) s := by
    unfold product
    rw [Action.examine_bind_apply hcheck, h.extents]
    rfl
  rw [hproduct]
  cases hn : shape.byteSize a.dtype with
  | error f =>
    unfold building
    rw [Action.bind_apply, onDevice_eq, hn]
  | ok n =>
    have hmade : onDevice shape a.device a.dtype s =
        (.ok (productResult a shape s), (s.acquire a.device n).2) := by
      rw [onDevice_eq, hn]
      rfl
    rw [building_apply hmade, productTo_made h hn]

/-! ## Vectors as matrices -/

/-- Two results, of the shapes `shape` and `shape'`, that store the same elements in the same
order. -/
structure SameResult (shape shape' : Shape) (c : Tensor) (s : Store) (c' : Tensor) (s' : Store) :
    Prop where
  shape : c.shape = shape
  shape' : c'.shape = shape'
  flag : c.transposed = false
  flag' : c'.transposed = false
  dtype : c'.dtype = c.dtype
  stored : ∀ d, c'.stored d s' = c.stored d s

/-- Both products fail alike, or both have results with the same elements. -/
def SameElements (shape shape' : Shape) (run run' : Except Fault Tensor × Store) : Prop :=
  Relates Eq (fun c c' => SameResult shape shape' c run.2 c' run'.2) run.1 run'.1

theorem SameElements.refused_iff {x y : Except Fault Tensor × Store}
    (h : SameElements shape shape' x y) : Refused x.1 ↔ Refused y.1 := by
  rcases h.ends with ⟨c, c', hc, hc', -⟩ | ⟨f, f', hf, hf', rfl⟩
  · rw [hc, hc']
    exact Iff.rfl
  · rw [hf, hf']

/-- Results of the same shape have the same elements at each place. -/
theorem SameResult.element {c c' : Tensor} {s' : Store} (h : SameResult shape shape c s c' s')
    (d : ElemType) (i j : Nat) : c'.element d s' i j = c.element d s i j := by
  have hgrid : c'.grid = c.grid := by
    unfold grid
    rw [h.shape, h.shape', h.flag, h.flag']
  unfold Tensor.element
  rw [hgrid, h.stored]

theorem SameResult.trans {shape'' : Shape} {c c' c'' : Tensor} {s' s'' : Store}
    (h : SameResult shape shape' c s c' s') (h' : SameResult shape' shape'' c' s' c'' s'') :
    SameResult shape shape'' c s c'' s'' :=
  ⟨h.shape, h'.shape', h.flag, h'.flag', h'.dtype.trans h.dtype,
    fun d => (h'.stored d).trans (h.stored d)⟩

theorem SameElements.trans {shape'' : Shape} {x y z : Except Fault Tensor × Store}
    (h : SameElements shape shape' x y) (h' : SameElements shape' shape'' y z) :
    SameElements shape shape'' x z := by
  unfold SameElements at *
  rcases h.ends with ⟨c, c', hc, hc', hsame⟩ | ⟨f, f', hf, hf', rfl⟩
  · rcases h'.ends with ⟨_, c'', hy, hc'', hsame'⟩ | ⟨_, _, hy, -⟩
    · cases hc'.symm.trans hy
      rw [hc, hc'']
      exact hsame.trans hsame'
    · cases hc'.symm.trans hy
  · rcases h'.ends with ⟨_, _, hy, -⟩ | ⟨_, f'', hy, hf'', rfl⟩
    · cases hf'.symm.trans hy
    · cases hf'.symm.trans hy
      rw [hf, hf'']
      rfl

/-- Works that end alike and leave the same elements deliver the same. -/
theorem SameElements.delivered {c c' : Tensor} {run run' : Except Fault Unit × Store}
    (hends : run'.1 = run.1) (h : SameResult shape shape' c run.2 c' run'.2) :
    SameElements shape shape' (c.delivered run) (c'.delivered run') := by
  cases hrun : run.1 with
  | error f =>
    rw [delivered_of_error hrun, delivered_of_error (hends.trans hrun)]
    rfl
  | ok u =>
    rw [delivered_of_ok hrun, delivered_of_ok (hends.trans hrun)]
    exact h

/-- Another handle on a block makes no difference to a product. -/
theorem product_retain (h : HaveProduct a b shape x left right s) {k : BlockId}
    (hk : k < s.blocks.size) :
    SameElements shape shape (a.product b s) (a.product b (s.retain k)) := by
  have h' : HaveProduct a b shape x left right (s.retain k) := ⟨h.kind, h.extents, h.left, h.right⟩
  have hmade : productResult a shape (s.retain k) = productResult a shape s := by
    unfold productResult
    rw [Store.size_blocks_retain]
  rw [product_eq h, product_eq h', hmade, Store.size_blocks_retain]
  cases shape.byteSize a.dtype with
  | error f => rfl
  | ok n =>
    dsimp only
    rw [Store.acquire_retain hk, launch_heedless]
    exact .delivered rfl ⟨rfl, rfl, rfl, rfl, rfl, fun d => stored_retain _ d _ k⟩

/-- Tensors with the same extents have the same product but for its shape. -/
theorem product_congr (h : HaveProduct a b shape x left right s)
    (h' : HaveProduct a' b' shape' x left right s) (hdtype : a'.dtype = a.dtype)
    (hdevice : a'.device = a.device) (hbytes : shape'.byteSize a.dtype = shape.byteSize a.dtype) :
    SameElements shape shape' (a.product b s) (a'.product b' s) := by
  rw [product_eq h, product_eq h', hdtype, hdevice, hbytes]
  cases shape.byteSize a.dtype with
  | error f => rfl
  | ok n =>
    refine .delivered rfl ⟨rfl, rfl, rfl, rfl, hdtype, fun d => ?_⟩
    unfold stored count byteSize productResult
    dsimp only
    rw [hdtype]

/-- The shape of a vector as a single row; other shapes as they are. -/
def rowShape : Shape → Shape
  | [k] => [1, k]
  | shape => shape

/-- The shape of a vector as a single column; other shapes as they are. -/
def columnShape : Shape → Shape
  | [k] => [k, 1]
  | shape => shape

/-- The product of the operands reshaped to matrices: a vector on the left is a row, and one on the
right is a column. -/
def matrixProduct (a b : Tensor) : Action Fault Tensor := do
  let row ← a.reshaped (rowShape a.shape)
  let column ← b.reshaped (columnShape b.shape)
  row.product column

theorem count_rowShape (shape : Shape) : (rowShape shape).count = shape.count := by
  unfold rowShape
  split
  · rename_i k
    have hone : Size.mul 1 1 = .ok 1 := by decide
    rw [Shape.count_eq, Shape.count_eq]
    unfold Size.product
    rw [List.foldlM_cons, hone]
    rfl
  · rfl

theorem count_columnShape (shape : Shape) : (columnShape shape).count = shape.count := by
  unfold columnShape
  split
  · rename_i k
    rw [Shape.count_eq, Shape.count_eq]
    unfold Size.product
    simp only [List.foldlM_cons, List.foldlM_nil]
    cases hk : Size.mul 1 k with
    | error t => rfl
    | ok m =>
      obtain ⟨hlt, rfl⟩ := Size.mul_eq_ok_iff.mp hk
      have hone : Size.mul (1 * k) 1 = .ok (1 * k) := by
        rw [Size.mul_of_lt (by omega), Nat.mul_one]
      change Fault.ofTrap (Size.mul (1 * k) 1 >>= pure) = _
      rw [hone]
  · rfl

/-- A matrix has the shape of a matrix already. -/
theorem matrixShape_of_rank {t : Tensor} (h : t.rank = 2) :
    rowShape t.shape = t.shape ∧ columnShape t.shape = t.shape := by
  obtain ⟨rows, cols, hs⟩ := matrix_of_rank h
  rw [hs]
  exact ⟨rfl, rfl⟩

theorem share_of_block (hb : a.block = some left) (s : Store) :
    a.share s = (.ok a, s.retain left) := by
  rw [← retain_of_block hb]
  rfl

/-- A tensor takes a shape with as many elements, if it is not transposed. -/
theorem reshaped_eq (hb : a.block = some left) (hflag : a.transposed = true → shape = a.shape)
    (hcount : shape.count = a.shape.count) {m : Nat} (hold : a.shape.count = .ok m) :
    a.reshaped shape s = (.ok { a with shape := shape }, s.retain left) := by
  have hcheck : a.checkReshape shape = .ok () := by
    unfold checkReshape
    split
    · rename_i htransposed
      exact if_pos (hflag htransposed)
    · rw [hcount, hold]
      exact unless_ne_last_eq_ok_iff.mpr rfl
  have hreshape : a.reshape shape (s.retain left) =
      (.ok { a with shape := shape }, s.retain left) := by
    unfold reshape
    rw [hb]
    dsimp only
    rw [hcheck]
    rfl
  unfold reshaped
  rw [Action.bind_apply_of_ok (share_of_block hb s)]
  unfold Action.onFailure
  rw [hreshape]

theorem matrixProduct_eq (ha : a.Owned s) (hb : b.Owned s) (hsized : a.shape.Sized)
    (hsized' : b.shape.Sized) (hleft : a.block = some left) (hright : b.block = some right) :
    a.matrixProduct b s =
      ({ a with shape := rowShape a.shape } : Tensor).product
        { b with shape := columnShape b.shape } ((s.retain left).retain right) := by
  have hrow := reshaped_eq (s := s) hleft
    (fun h => (matrixShape_of_rank (ha.valid.rank h)).1) (count_rowShape a.shape)
    (ha.counted hleft hsized)
  have hcolumn := reshaped_eq (s := s.retain left) hright
    (fun h => (matrixShape_of_rank (hb.valid.rank h)).2) (count_columnShape b.shape)
    (hb.counted hright hsized')
  unfold matrixProduct
  rw [Action.bind_apply_of_ok hrow, Action.bind_apply_of_ok hcolumn]

/-- The dimensions of the matrices that are multiplied. -/
theorem matrices_of_productDims {rows cols inner inner' : Nat}
    (h : productDims a b = .ok (shape, rows, cols, inner, inner')) :
    rowShape a.shape = [rows, inner] ∧ columnShape b.shape = [inner', cols] ∧
      Shape.count [rows, cols] = shape.count := by
  unfold productDims at h
  split at h
  · rename_i ha hb
    cases h
    rw [ha, hb]
    exact ⟨rfl, rfl, count_rowShape [1]⟩
  · rename_i ha hb
    cases h
    rw [ha, hb]
    exact ⟨rfl, rfl, count_columnShape [rows]⟩
  · rename_i ha hb
    cases h
    rw [ha, hb]
    exact ⟨rfl, rfl, count_rowShape [cols]⟩
  · rename_i ha hb
    cases h
    rw [ha, hb]
    exact ⟨rfl, rfl, rfl⟩
  · cases h

/-- A vector is not transposed, as a matrix neither. -/
theorem transposedMatrix_reshaped (hv : a.Valid s) {rows cols : Nat} :
    ({ a with shape := [rows, cols] } : Tensor).transposedMatrix = a.transposedMatrix := by
  unfold transposedMatrix
  cases hflag : a.transposed with
  | false => rw [Bool.and_false, Bool.and_false]
  | true =>
    have hrank : a.rank = 2 := hv.rank hflag
    rw [hrank]
    rfl

/-- Reshaped to matrices, the operands have a product with the same extents and as many elements. -/
theorem HaveProduct.matrices (h : HaveProduct a b shape x left right s) (ha : a.Valid s)
    (hb : b.Valid s) :
    HaveProduct { a with shape := rowShape a.shape } { b with shape := columnShape b.shape }
        [x.rows, x.cols] x left right s ∧
      Shape.count [x.rows, x.cols] = shape.count := by
  obtain ⟨rows, cols, inner, hdims, hx⟩ := productExtents_eq_ok_iff.mp h.extents
  obtain ⟨hrow, hcolumn, hcount⟩ := matrices_of_productDims hdims
  dsimp only at hx
  subst hx
  refine ⟨⟨h.kind, ?_, h.left, h.right⟩, hcount⟩
  rw [hrow, hcolumn]
  refine productExtents_eq_ok_iff.mpr ⟨rows, cols, inner, rfl, ?_⟩
  rw [transposedMatrix_reshaped ha, transposedMatrix_reshaped hb]

/-- A product is that of its operands reshaped to matrices. -/
theorem product_of_matrices (h : HaveProduct a b shape x left right s) (ha : a.Owned s)
    (hb : b.Owned s) (hsized : a.shape.Sized) (hsized' : b.shape.Sized) :
    SameElements shape [x.rows, x.cols] (a.product b s) (a.matrixProduct b s) := by
  obtain ⟨hmatrices, hcount⟩ := h.matrices ha.valid hb.valid
  have hbytes : Shape.byteSize [x.rows, x.cols] a.dtype = shape.byteSize a.dtype := by
    unfold Shape.byteSize
    rw [hcount]
  have hretained : HaveProduct { a with shape := rowShape a.shape }
      { b with shape := columnShape b.shape } [x.rows, x.cols] x left right (s.retain left) :=
    ⟨hmatrices.kind, hmatrices.extents, hmatrices.left, hmatrices.right⟩
  have hlt : right < (s.retain left).blocks.size := by
    rw [s.size_blocks_retain left]
    exact hb.lt h.right
  have hsame := product_congr h hmatrices rfl rfl hbytes
  have hfirst := product_retain hmatrices (ha.lt h.left)
  have hsecond := product_retain hretained hlt
  rw [matrixProduct_eq ha hb hsized hsized' h.left h.right]
  exact (hsame.trans hfirst).trans hsecond

end Tensor

end DeviceTensor
