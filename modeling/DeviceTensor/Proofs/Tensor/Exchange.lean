import DeviceTensor.Proofs.Tensor.Calculation
import DeviceTensor.Proofs.Tensor.Product
set_option autoImplicit false

/-!
# Products with exchanged operands

The product of the transposes in the other order is the transpose of the product, if arithmetic is
exact.  It is made on the device of the other operand, which may refuse memory where the first one
grants it.
-/

namespace DeviceTensor.Tensor

open DeviceTensor.Except

variable {a b : Tensor} {shape : Shape} {x : Extents} {left right : BlockId} {s : Store}

/-- The matrix on the same block with rows and columns exchanged. -/
def flipped (t : Tensor) : Tensor :=
  { t with shape := t.shape.reverse, transposed := !t.transposed }

theorem shape_flipped {rows cols : Nat} (hs : a.shape = [rows, cols]) :
    a.flipped.shape = [cols, rows] :=
  congrArg List.reverse hs

theorem Owned.flipped {rows cols : Nat} (h : a.Owned s) (hs : a.shape = [rows, cols])
    (hleft : a.block = some left) : a.flipped.Owned s where
  valid := by
    have hfills := h.valid.filled left hleft
    have hprod : a.flipped.shape.prod = a.shape.prod := List.prod_reverse _
    have hrank : a.flipped.rank = 2 := congrArg List.length (shape_flipped hs)
    refine Fills.valid (b := left) ?_ hleft fun _ => hrank
    refine ⟨hfills.lt, hfills.place, ?_, ?_, fun hne => absurd hrank hne⟩
    · rw [hprod]
      exact hfills.size
    · rw [hprod]
      exact hfills.small
  holds := h.holds

/-- The product of the transposes in the other order. -/
def exchangedProduct (a b : Tensor) : Action Fault Tensor := do
  let left ← b.transpose
  let right ← a.transpose
  left.product right

theorem transpose_eq {rows cols : Nat} (hs : a.shape = [rows, cols]) (hb : a.block = some left) :
    a.transpose s = (.ok a.flipped, s.retain left) := by
  unfold transpose flipped
  rw [hs, ← retain_of_block hb]
  rfl

section Matrices

variable {m k n : Nat} (hs : a.shape = [m, k]) (hs' : b.shape = [k, n])

include hs hs' in
theorem exchangedProduct_eq (hleft : a.block = some left) (hright : b.block = some right) :
    a.exchangedProduct b s = b.flipped.product a.flipped ((s.retain right).retain left) := by
  unfold exchangedProduct
  rw [Action.bind_apply_of_ok (transpose_eq hs' hright),
    Action.bind_apply_of_ok (transpose_eq hs hleft)]

/-- The extents of a product of matrices. -/
def matrixExtents (a b : Tensor) (m n k : Nat) : Extents := ⟨m, n, k, a.transposed, b.transposed⟩

include hs hs' in
theorem haveProduct_of_matrices (hkind : SameKind a b s) (hleft : a.block = some left)
    (hright : b.block = some right) :
    HaveProduct a b [m, n] (matrixExtents a b m n k) left right s ∧
      HaveProduct b.flipped a.flipped [n, m] (Kernel.exchanged (matrixExtents a b m n k)) right left
        s := by
  have hextents {c c' : Tensor} {rows inner cols : Nat} (hc : c.shape = [rows, inner])
      (hc' : c'.shape = [inner, cols]) : productExtents c c' =
        .ok ([rows, cols], ⟨rows, cols, inner, c.transposed, c'.transposed⟩) := by
    refine productExtents_eq_ok_iff.mpr ⟨rows, cols, inner, ?_, ?_⟩
    · unfold productDims
      rw [hc, hc']
    · unfold transposedMatrix rank
      rw [hc, hc']
      rfl
  refine ⟨⟨hkind, hextents hs hs', hleft, hright⟩, ?_⟩
  exact ⟨⟨hkind.1.symm, hkind.2.symm⟩, hextents (shape_flipped hs') (shape_flipped hs), hright, hleft⟩

/-- The bytes of a matrix. -/
theorem byteSize_of_matrix {rows cols : Nat} (hrows : rows < Size.limit) (d : ElemType) :
    Shape.byteSize [rows, cols] d =
      if rows * cols * d.width < Size.limit then .ok (rows * cols * d.width)
      else .error (.trap (.overflow .mul)) := by
  unfold Shape.byteSize
  by_cases hcount : rows * cols < Size.limit
  · rw [Shape.count_of_matrix hrows hcount]
    change Fault.ofTrap (Size.mul (rows * cols) d.width) = _
    unfold Size.mul
    split <;> rfl
  · have hlarge : ¬rows * cols * d.width < Size.limit := fun h =>
      hcount (Nat.lt_of_le_of_lt (Nat.le_mul_of_pos_right _ d.width_pos) h)
    have hone : Size.mul 1 rows = .ok rows := by
      rw [Size.mul_of_lt (by rwa [Nat.one_mul]), Nat.one_mul]
    have hmul : Size.mul rows cols = .error (.overflow .mul) := if_neg hcount
    have hproduct : Shape.count [rows, cols] = .error (.trap (.overflow .mul)) := by
      rw [Shape.count_eq]
      unfold Size.product
      simp only [List.foldlM_cons, List.foldlM_nil, hone]
      change Fault.ofTrap (Size.mul rows cols >>= pure) = _
      rw [hmul]
      rfl
    rw [hproduct, if_neg hlarge]
    rfl

/-- The elements of a result, after the launch that computes them. -/
theorem element_of_result {rows cols bytes : Nat} {s₁ : Store} {d : ElemType} (hd : a.dtype = d)
    (hbytes : bytes = rows * cols * d.width) (hs₁ : (s.acquire a.device bytes).2.Keeps s₁)
    {i j : Nat} {v : Elem d}
    (hv : (Elem.decode d (rows * cols) (s₁.block s.blocks.size).contents)[i * cols + j]? =
      some v) :
    (productResult a [rows, cols] s).element d s₁ i j = some v := by
  have hlt : s.blocks.size < (s.acquire a.device bytes).2.blocks.size := by
    rw [Store.size_blocks_acquire]
    exact Nat.lt_succ_self _
  have hsize : (s₁.block s.blocks.size).size = bytes := by
    rw [hs₁.extend.size _ hlt, Store.block_acquire_self]
  have hcount : (productResult a [rows, cols] s).count s₁ = rows * cols := by
    change (s₁.block s.blocks.size).size / a.dtype.width = rows * cols
    rw [hsize, hbytes, hd, Nat.mul_div_cancel _ d.width_pos]
  have hstored : (productResult a [rows, cols] s).stored d s₁ =
      Elem.decode d (rows * cols) (s₁.block s.blocks.size).contents := by
    rw [stored_of_block rfl, hcount]
  unfold element
  rw [hstored]
  exact hv

/-- The tensor `c'` of `s'` has the elements of `c` of `s` with rows and columns exchanged. -/
structure Transposes (m n : Nat) (d : ElemType) (c : Tensor) (s : Store) (c' : Tensor)
    (s' : Store) : Prop where
  shape : c.shape = [m, n]
  shape' : c'.shape = [n, m]
  elements : ∀ i j, i < m → j < n → ∃ v, c.element d s i j = some v ∧ c'.element d s' j i = some v

include hs hs' in
/-- The bytes of the operands are counted. -/
theorem matrices_small (hkind : SameKind a b s) (ha : a.Owned s) (hb : b.Owned s)
    (hleft : a.block = some left) (hright : b.block = some right) :
    m * k * a.dtype.width < Size.limit ∧ k * n * a.dtype.width < Size.limit := by
  have hsmall := (ha.valid.filled left hleft).small
  have hsmall' := (hb.valid.filled right hright).small
  rw [hs] at hsmall
  rw [hs', ← hkind.1] at hsmall'
  simpa using And.intro hsmall hsmall'

include hs hs' in
theorem productViews_of_matrices (hkind : SameKind a b s) (ha : a.Owned s) (hb : b.Owned s)
    (hleft : a.block = some left) (hright : b.block = some right) {bytes : Nat}
    (hbytes : bytes = m * n * a.dtype.width) (hlimit : bytes < Size.limit) :
    ProductViews a.dtype (matrixExtents a b m n k) left right s.blocks.size
      (s.acquire a.device bytes).2 s.blocks.size (s.acquire b.device bytes).2 where
  leftLimit := (matrices_small hs hs' hkind ha hb hleft hright).1
  rightLimit := (matrices_small hs hs' hkind ha hb hleft hright).2
  resultLimit := hbytes ▸ hlimit
  sameLeft count := by
    have hsight := (s.shows_acquire a.device bytes).sight left (ha.lt hleft)
    have hsight' := (s.shows_acquire b.device bytes).sight left (ha.lt hleft)
    exact Block.seen_congr (hsight'.trans hsight.symm) a.dtype count
  sameRight count := by
    have hsight := (s.shows_acquire a.device bytes).sight right (hb.lt hright)
    have hsight' := (s.shows_acquire b.device bytes).sight right (hb.lt hright)
    exact Block.seen_congr (hsight'.trans hsight.symm) a.dtype count
  place xs ys hxs hys := by
    have haddressable := addressable_of_seen (ha.acquire a.device bytes).valid hleft hxs
    have haddressable' := addressable_of_seen (hb.acquire a.device bytes).valid hright hys
    have hfits : m * n * a.dtype.width ≤ bytes := Nat.le_of_eq hbytes.symm
    refine (Store.seen_acquired_iff hlimit hfits).trans (Iff.trans ?_
      (Store.seen_acquired_iff hlimit hfits).symm)
    exact iff_of_true haddressable haddressable'

section Runs

variable (hkind : SameKind a b s) (hleft : a.block = some left) (hright : b.block = some right)
  (hm : m < Size.limit) (hn : n < Size.limit)

include hs hs' hkind hleft hright hm hn

/-- Both products are launches on new tensors, of the same number of bytes. -/
theorem exchanged_runs (hlimit : m * n * a.dtype.width < Size.limit) :
    a.product b s = (productResult a [m, n] s).delivered
        (launch .gemm a.dtype
          (productInvocation left right a.device s.blocks.size (matrixExtents a b m n k))
          (s.acquire a.device (m * n * a.dtype.width)).2) ∧
      b.flipped.product a.flipped s = (productResult b [n, m] s).delivered
        (launch .gemm a.dtype
          (productInvocation right left b.device s.blocks.size
            (Kernel.exchanged (matrixExtents a b m n k)))
          (s.acquire b.device (m * n * a.dtype.width)).2) := by
  obtain ⟨h, h'⟩ := haveProduct_of_matrices hs hs' hkind hleft hright
  have hbytes : Shape.byteSize [m, n] a.dtype = .ok (m * n * a.dtype.width) := by
    rw [byteSize_of_matrix hm, if_pos hlimit]
  have hdtype : b.flipped.dtype = a.dtype := hkind.1.symm
  have hbytes' : Shape.byteSize [n, m] b.flipped.dtype = .ok (m * n * a.dtype.width) := by
    rw [byteSize_of_matrix hn, hdtype, Nat.mul_comm n m, if_pos hlimit]
  constructor
  · rw [product_eq h, hbytes]
  · rw [product_eq h', hbytes', hdtype]
    rfl

/-- A result whose bytes cannot be counted overflows in either order. -/
theorem exchanged_overflow (hlimit : ¬m * n * a.dtype.width < Size.limit) :
    a.product b s = (.error (.trap (.overflow .mul)), s) ∧
      b.flipped.product a.flipped s = (.error (.trap (.overflow .mul)), s) := by
  obtain ⟨h, h'⟩ := haveProduct_of_matrices hs hs' hkind hleft hright
  have hdtype : b.flipped.dtype = a.dtype := hkind.1.symm
  constructor
  · rw [product_eq h, byteSize_of_matrix hm, if_neg hlimit]
  · rw [product_eq h', byteSize_of_matrix hn, hdtype, Nat.mul_comm n m, if_neg hlimit]

/-- A product is not refused memory that is supplied to the operands and to the result. -/
theorem product_supplied (ha : a.Owned s) (hb : b.Owned s) (hsupplies : s.Supplies left)
    (hsupplies' : s.Supplies right)
    (hresult : (s.device a.device).Supplies (m * n * a.dtype.width)) :
    ¬Refused (a.product b s).1 := by
  by_cases hlimit : m * n * a.dtype.width < Size.limit
  · obtain ⟨hrun, -⟩ := exchanged_runs hs hs' hkind hleft hright hm hn hlimit
    rw [hrun, refused_delivered]
    refine launch_supplied (fun k hk => ?_) rfl hresult
    have hcases : k = left ∨ k = right := by simpa [productInvocation] using hk
    rcases hcases with rfl | rfl
    · exact ⟨ha.lt hleft, hsupplies⟩
    · exact ⟨hb.lt hright, hsupplies'⟩
  · obtain ⟨hrun, -⟩ := exchanged_overflow hs hs' hkind hleft hright hm hn hlimit
    rw [hrun]
    exact Bool.false_ne_true

/-- If no device refuses it memory, a product of integers succeeds if that of the transposes in the
other order does, of which it is the transpose; it overflows if that overflows. -/
theorem product_flipped (hd : a.dtype.IsInteger) (hhost : s.ProductOnHost a.dtype a.device)
    (ha : a.Owned s) (hb : b.Owned s) (hrefused : ¬Refused (a.product b s).1)
    (hrefused' : ¬Refused (b.flipped.product a.flipped s).1) :
    Relates (fun f f' => f.Overflows ↔ f'.Overflows)
      (fun c c' => Transposes m n a.dtype c (a.product b s).2 c' (b.flipped.product a.flipped s).2)
      (a.product b s).1 (b.flipped.product a.flipped s).1 := by
  by_cases hlimit : m * n * a.dtype.width < Size.limit
  · obtain ⟨hrun, hrun'⟩ := exchanged_runs hs hs' hkind hleft hright hm hn hlimit
    have hviews := productViews_of_matrices hs hs' hkind ha hb hleft hright rfl hlimit
    rw [hrun, refused_delivered] at hrefused
    rw [hrun', refused_delivered] at hrefused'
    have hhost' : (s.acquire a.device (m * n * a.dtype.width)).2.ProductOnHost a.dtype a.device :=
      hhost
    have hregistry : (s.acquire b.device (m * n * a.dtype.width)).2.registry =
        (s.acquire a.device (m * n * a.dtype.width)).2.registry := rfl
    have hbackend : (s.acquire b.device (m * n * a.dtype.width)).2.backend b.device =
        (s.acquire a.device (m * n * a.dtype.width)).2.backend a.device := hkind.2.symm
    have hlaunches := launch_exchanged hd hhost' hregistry hbackend hviews
      (s.receives_acquired a.device _) (s.receives_acquired b.device _) hrefused hrefused'
    rcases hlaunches.ends with ⟨_, _, hok, hok', hsame⟩ | ⟨f, f', hf, hf', hover⟩
    · rw [hrun, hrun', delivered_of_ok hok, delivered_of_ok hok']
      refine ⟨rfl, rfl, fun i j hi hj => ?_⟩
      obtain ⟨v, hv, hv'⟩ := hsame i j hi hj
      refine ⟨v, ?_, ?_⟩
      · exact element_of_result rfl rfl (launch_keeps ..) hv
      · exact element_of_result hkind.1.symm (Nat.mul_comm m n ▸ rfl) (launch_keeps ..)
          (Nat.mul_comm m n ▸ hv')
    · rw [hrun, hrun', delivered_of_error hf, delivered_of_error hf']
      exact hover
  · obtain ⟨hrun, hrun'⟩ := exchanged_overflow hs hs' hkind hleft hright hm hn hlimit
    rw [hrun, hrun']
    exact iff_of_true ⟨.mul, rfl⟩ ⟨.mul, rfl⟩

omit hm hn in
/-- The transposes are views with handles of their own, which make no difference. -/
theorem exchangedProduct_same (ha : a.Owned s) (hb : b.Owned s) :
    SameElements [n, m] [n, m] (b.flipped.product a.flipped s) (a.exchangedProduct b s) := by
  obtain ⟨-, h⟩ := haveProduct_of_matrices hs hs' hkind hleft hright
  have hretained : HaveProduct b.flipped a.flipped [n, m]
      (Kernel.exchanged (matrixExtents a b m n k)) right left (s.retain right) :=
    ⟨h.kind, h.extents, h.left, h.right⟩
  have hlt : left < (s.retain right).blocks.size := by
    rw [s.size_blocks_retain right]
    exact ha.lt hleft
  rw [exchangedProduct_eq hs hs' hleft hright]
  exact (product_retain h (hb.lt hright)).trans (product_retain hretained hlt)

variable (ha : a.Owned s) (hb : b.Owned s)

include ha hb

/-- If no device fails to supply memory, the products in both orders are not refused it. -/
theorem supplied_products (hsupplies : s.Supplies left) (hsupplies' : s.Supplies right)
    (hresult : (s.device a.device).Supplies (m * n * a.dtype.width))
    (hresult' : (s.device b.device).Supplies (m * n * a.dtype.width)) :
    ¬Refused (a.product b s).1 ∧ ¬Refused (a.exchangedProduct b s).1 := by
  have hbytes : n * m * b.flipped.dtype.width = m * n * a.dtype.width := by
    rw [Nat.mul_comm n m, hkind.1]
    rfl
  constructor
  · exact product_supplied hs hs' hkind hleft hright hm hn ha hb hsupplies hsupplies' hresult
  · rw [← (exchangedProduct_same hs hs' hkind hleft hright ha hb).refused_iff]
    exact product_supplied (shape_flipped hs') (shape_flipped hs) ⟨hkind.1.symm, hkind.2.symm⟩
      hright hleft hn hm (hb.flipped hs' hright) (ha.flipped hs hleft) hsupplies' hsupplies
      (hbytes ▸ hresult')

variable (hd : a.dtype.IsInteger) (hhost : s.ProductOnHost a.dtype a.device)

include hd hhost

theorem product_exchanged (hrefused : ¬Refused (a.product b s).1)
    (hrefused' : ¬Refused (a.exchangedProduct b s).1) :
    Relates (fun f f' => f.Overflows ↔ f'.Overflows)
      (fun c c' => Transposes m n a.dtype c (a.product b s).2 c' (a.exchangedProduct b s).2)
      (a.product b s).1 (a.exchangedProduct b s).1 := by
  have hsame := exchangedProduct_same hs hs' hkind hleft hright ha hb
  have hflipped := product_flipped hs hs' hkind hleft hright hm hn hd hhost ha hb hrefused
    (mt hsame.refused_iff.mp hrefused')
  rcases hflipped.ends with ⟨c, c', hc, hc', htransposes⟩ | ⟨f, f', hf, hf', hover⟩
  · rcases hsame.ends with ⟨_, c'', hy, hc'', hresult⟩ | ⟨_, _, hy, -⟩
    · cases hc'.symm.trans hy
      rw [hc, hc'']
      refine ⟨htransposes.shape, hresult.shape', fun i j hi hj => ?_⟩
      obtain ⟨v, hv, hv'⟩ := htransposes.elements i j hi hj
      exact ⟨v, hv, (hresult.element a.dtype j i).trans hv'⟩
    · cases hc'.symm.trans hy
  · rcases hsame.ends with ⟨_, _, hy, -⟩ | ⟨_, f'', hy, hf'', rfl⟩
    · cases hf'.symm.trans hy
    · cases hf'.symm.trans hy
      rw [hf, hf'']
      exact hover

/-- If both products are refused memory or none of them is, then they succeed together and overflow
together. -/
theorem products_agree (hrefused : Refused (a.product b s).1 ↔ Refused (a.exchangedProduct b s).1) :
    ((∃ c, (a.product b s).1 = .ok c) ↔ ∃ c', (a.exchangedProduct b s).1 = .ok c') ∧
      ((∃ f, (a.product b s).1 = .error f ∧ f.Overflows) ↔
        ∃ f, (a.exchangedProduct b s).1 = .error f ∧ f.Overflows) := by
  by_cases hone : Refused (a.product b s).1
  · have hother := hrefused.mp hone
    obtain ⟨f, hf⟩ := hone.exists_error
    obtain ⟨f', hf'⟩ := hother.exists_error
    rw [hf] at hone
    rw [hf'] at hother
    have hfail : Relates (fun f f' => f.Overflows ↔ f'.Overflows) (fun _ _ => True)
        (a.product b s).1 (a.exchangedProduct b s).1 := by
      rw [hf, hf']
      exact iff_of_false (Fault.not_overflows_of_refuses hone) (Fault.not_overflows_of_refuses hother)
    exact hfail.agree
  · exact (product_exchanged hs hs' hkind hleft hright hm hn ha hb hd hhost hone
      (mt hrefused.mpr hone)).agree

/-- If both products succeed, one is the transpose of the other. -/
theorem transposes_of_products {c c' : Tensor} (hc : (a.product b s).1 = .ok c)
    (hc' : (a.exchangedProduct b s).1 = .ok c') :
    Transposes m n a.dtype c (a.product b s).2 c' (a.exchangedProduct b s).2 := by
  have hproducts := product_exchanged hs hs' hkind hleft hright hm hn ha hb hd hhost
    (hc ▸ id) (hc' ▸ id)
  rw [hc, hc'] at hproducts
  exact hproducts

end Runs

end Matrices

end DeviceTensor.Tensor
