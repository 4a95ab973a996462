import DeviceTensor.Kernel.Product
import DeviceTensor.Proofs.Grid.Order
import DeviceTensor.Proofs.Kernel.Stores
set_option autoImplicit false

/-!
# What a product kernel computes

Every element of a product is made of one row of the first operand, one column of the second and
its own old value, so that the cells of the sweep do not see each other.  Strides lead to the
elements of both operands, in whichever order they are stored; operands may be longer than their
matrices.
-/

namespace DeviceTensor.Kernel

open DeviceTensor.Except

variable {α : Type}

/-- Element `(i, j)` of the matrix that a buffer stores. -/
def entry (zero : α) (xs : Array α) (g : Grid) (i j : Nat) : α := xs.getD (g.offset i j) zero

/-- The grid of the destination of a product. -/
def resultGrid (x : Extents) : Grid := ⟨x.rows, x.cols, false⟩

theorem resultGrid_offset (x : Extents) (i j : Nat) :
    (resultGrid x).offset i j = i * x.cols + j := rfl

/-- The buffers hold the matrices of a product, whose elements can be counted. -/
structure HoldsProduct (x : Extents) (a b c : Array α) : Prop where
  left : x.rows * x.inner ≤ a.size
  right : x.inner * x.cols ≤ b.size
  result : x.rows * x.cols ≤ c.size
  leftLimit : x.rows * x.inner < Size.limit
  rightLimit : x.inner * x.cols < Size.limit
  resultLimit : x.rows * x.cols < Size.limit

/-- An element of a matrix is read from any buffer that holds it. -/
theorem read_entry (zero : α) {xs : Array α} {g : Grid} (h : g.size ≤ xs.size) {i j : Nat}
    (hi : i < g.rows) (hj : j < g.cols) :
    Buffer.read xs (g.offset i j) = .ok (entry zero xs g i j) := by
  have hlt : g.offset i j < xs.size := Nat.lt_of_lt_of_le (Grid.offset_lt_size hi hj) h
  rw [Buffer.read_of_lt hlt]
  simp [entry, hlt]

/-! ## One element of a product -/

/-- Adds the product of element `p` of row `i` and of column `j`. -/
def addProduct (A : Arithmetic α) (a b : Array α) (x : Extents) (i j : Nat) (acc : α) (p : Nat) :
    Except Trap α := do
  let summand ← A.mul (entry A.zero a x.leftGrid i p) (entry A.zero b x.rightGrid p j)
  A.add acc summand

/-- The sum from zero of the products of row `i` and column `j`, in order. -/
def dotProduct (A : Arithmetic α) (a b : Array α) (x : Extents) (i j : Nat) : Except Trap α :=
  (List.range x.inner).foldlM (addProduct A a b x i j) A.zero

/-- What a product leaves at element `(i, j)`. -/
def productEntry (A : Arithmetic α) (alpha : α) (a b : Array α) (beta : α) (x : Extents)
    (c : Array α) (cell : Nat × Nat) : Except Trap α := do
  let sum ← dotProduct A a b x cell.1 cell.2
  let scaled ← A.mul alpha sum
  if A.isZero beta then
    return scaled
  else
    let kept ← A.mul beta (entry A.zero c (resultGrid x) cell.1 cell.2)
    A.add scaled kept

/-- What a product does at one element. -/
def productAt (A : Arithmetic α) (alpha : α) (a b : Array α) (beta : α) (x : Extents)
    (cell : Nat × Nat) (c : Array α) : Except Halt (Nat × α) := do
  let acc ← innerProduct A x a b cell.1 cell.2
  let place ← Extents.strided (x.cols, 1) cell.1 cell.2
  let old ← Buffer.read c place
  let scaled ← A.mul alpha acc
  if A.isZero beta then
    return (place, scaled)
  else
    let kept ← A.mul beta old
    let new ← A.add scaled kept
    return (place, new)

theorem product_eq (A : Arithmetic α) (alpha : α) (a b : Array α) (beta : α) (x : Extents)
    (c : Array α) :
    product A alpha a b beta x c =
      checked (requireProduct x a.size b.size c.size) c
        (sweep (productAt A alpha a b beta x) (resultGrid x).cells) := rfl

section Elements

variable {A : Arithmetic α} {alpha beta : α} {a b c : Array α} {x : Extents} {i j : Nat}

theorem addSummand_eq (h : HoldsProduct x a b c) (hi : i < x.rows) (hj : j < x.cols) (acc : α)
    {p : Nat} (hp : p < x.inner) :
    addSummand A x a b i j acc p = addProduct A a b x i j acc p := by
  have hleft := read_entry A.zero (g := x.leftGrid) h.left hi hp
  have hright := read_entry A.zero (g := x.rightGrid) h.right hp hj
  unfold addSummand addProduct
  rw [Extents.strided_left h.leftLimit hi hp, Extents.strided_right h.rightLimit hp hj]
  simp only [bind, Except.bind, hleft, hright]

theorem innerProduct_eq (h : HoldsProduct x a b c) (hi : i < x.rows) (hj : j < x.cols) :
    innerProduct A x a b i j = dotProduct A a b x i j := by
  apply foldlM_congr
  intro acc p hp
  exact addSummand_eq h hi hj acc (List.mem_range.mp hp)

/-- Strides lead to the place of an element of a product. -/
theorem strided_result (h : x.rows * x.cols < Size.limit) (hi : i < x.rows) (hj : j < x.cols) :
    Extents.strided (x.cols, 1) i j = .ok ((resultGrid x).offset i j) := by
  have hlt := Nat.lt_trans (Grid.offset_lt_size (g := resultGrid x) hi hj) h
  rw [resultGrid_offset] at hlt ⊢
  rw [Extents.strided_of_lt (by rwa [Nat.mul_one]), Nat.mul_one]

/-- The elements of a product have places of their own, and each is computed by itself. -/
theorem productAt_sited (h : HoldsProduct x a b c) :
    Sited (productAt A alpha a b beta x) (resultGrid x).cells
      (fun cell => (resultGrid x).offset cell.1 cell.2)
      (fun cell => Halt.ofTrap (productEntry A alpha a b beta x c cell)) c := by
  refine .of_cells h.result fun i j hi hj m hsame hat => ?_
  have hplace := strided_result h.resultLimit hi hj
  have hread : Buffer.read m ((resultGrid x).offset i j) =
      .ok (entry A.zero c (resultGrid x) i j) := by
    rw [Buffer.read_congr hsame hat]
    exact read_entry A.zero (g := resultGrid x) h.result hi hj
  simp only [productAt, productEntry, Halt.liftM_eq, Halt.ofTrap_bind, bind_assoc,
    innerProduct_eq h hi hj, hplace, hread, Halt.ofTrap_ok_bind]
  apply bind_congr
  intro sum
  apply bind_congr
  intro scaled
  by_cases hbeta : A.isZero beta = true
  · rw [if_pos hbeta, if_pos hbeta]
    rfl
  · rw [if_neg hbeta, if_neg hbeta]
    simp only [Halt.ofTrap_bind, bind_assoc]
    rfl

/-! ## Sizes -/

theorem requireOperand_of_le {size rows cols : Nat} (hlimit : rows * cols < Size.limit)
    (h : rows * cols ≤ size) : requireOperand size rows cols = .ok () := by
  unfold requireOperand
  rw [Size.mul_of_lt hlimit]
  exact if_neg (Nat.not_lt.mpr h)

theorem requireOperand_of_lt {size rows cols : Nat} (hlimit : rows * cols < Size.limit)
    (h : size < rows * cols) :
    requireOperand size rows cols = .error (.refused (.matrixTooSmall size rows cols)) := by
  unfold requireOperand
  rw [Size.mul_of_lt hlimit]
  exact if_pos h

theorem requireProduct_of_holds (h : HoldsProduct x a b c) :
    requireProduct x a.size b.size c.size = .ok () := by
  unfold requireProduct
  rw [requireOperand_of_le h.leftLimit h.left, requireOperand_of_le h.rightLimit h.right,
    requireOperand_of_le h.resultLimit h.result]
  rfl

theorem requireOperand_eq_ok {size rows cols : Nat} (h : requireOperand size rows cols = .ok ()) :
    rows * cols < Size.limit ∧ rows * cols ≤ size := by
  obtain ⟨needed, hneeded, hfits⟩ := bind_eq_ok_iff.mp h
  obtain ⟨hlimit, rfl⟩ := Size.mul_eq_ok_iff.mp (Halt.ofTrap_eq_ok_iff.mp hneeded)
  refine ⟨hlimit, Nat.le_of_not_lt fun hlt => ?_⟩
  rw [if_pos hlt] at hfits
  cases hfits

/-- The check of a product passes for buffers that hold their matrices only. -/
theorem holdsProduct_of_require (h : requireProduct x a.size b.size c.size = .ok ()) :
    HoldsProduct x a b c := by
  obtain ⟨⟨⟩, hleft, h⟩ := bind_eq_ok_iff.mp h
  obtain ⟨⟨⟩, hright, hresult⟩ := bind_eq_ok_iff.mp h
  obtain ⟨hleftLimit, hleft⟩ := requireOperand_eq_ok hleft
  obtain ⟨hrightLimit, hright⟩ := requireOperand_eq_ok hright
  obtain ⟨hresultLimit, hresult⟩ := requireOperand_eq_ok hresult
  exact ⟨hleft, hright, hresult, hleftLimit, hrightLimit, hresultLimit⟩

/-- A product whose elements all have values. -/
theorem product_of_forall (h : HoldsProduct x a b c)
    (hok : ∀ cell ∈ (resultGrid x).cells, ∃ new, productEntry A alpha a b beta x c cell = .ok new) :
    (product A alpha a b beta x c).2 = .ok () ∧
      Placed (resultGrid x).cells (fun cell => (resultGrid x).offset cell.1 cell.2)
        (fun cell => Halt.ofTrap (productEntry A alpha a b beta x c cell)) c
        (product A alpha a b beta x c).1 := by
  have hsited : Sited (productAt A alpha a b beta x) (resultGrid x).cells
      (fun cell => (resultGrid x).offset cell.1 cell.2)
      (fun cell => Halt.ofTrap (productEntry A alpha a b beta x c cell)) c := productAt_sited h
  obtain ⟨hends, hplaced, -⟩ := hsited.sweep_of_forall (Halt.ofTrap_forall_ok hok)
  rw [product_eq, requireProduct_of_holds h]
  exact ⟨hends, hplaced⟩

/-- A product of which an element has no value traps as such an element does. -/
theorem product_of_not_forall (h : HoldsProduct x a b c) {cell : Nat × Nat} {t : Trap}
    (hcell : cell ∈ (resultGrid x).cells) (ht : productEntry A alpha a b beta x c cell = .error t) :
    ∃ cell' t', productEntry A alpha a b beta x c cell' = .error t' ∧
      (product A alpha a b beta x c).2 = .error (.trap t') := by
  rcases forall_or_first (productEntry A alpha a b beta x c) (resultGrid x).cells with
    hall | ⟨before, cell', later, t', hcells, hbefore, ht'⟩
  · obtain ⟨new, hnew⟩ := hall cell hcell
    rw [hnew] at ht
    cases ht
  · have hsited : Sited (productAt A alpha a b beta x) (before ++ cell' :: later)
        (fun cell => (resultGrid x).offset cell.1 cell.2)
        (fun cell => Halt.ofTrap (productEntry A alpha a b beta x c cell)) c :=
      hcells ▸ productAt_sited h
    have htrap : Halt.ofTrap (productEntry A alpha a b beta x c cell') = .error (.trap t') :=
      Halt.ofTrap_eq_error_iff.mpr ⟨t', ht', rfl⟩
    obtain ⟨hends, -⟩ := hsited.sweep_of_first (Halt.ofTrap_forall_ok hbefore) htrap
    rw [product_eq, requireProduct_of_holds h, hcells]
    exact ⟨cell', t', ht', hends⟩

end Elements

/-! ## Exchanged operands -/

/-- The extents of the product of the transposes, in the other order. -/
def exchanged (x : Extents) : Extents := ⟨x.cols, x.rows, x.inner, !x.transB, !x.transA⟩

theorem leftGrid_exchanged (x : Extents) : (exchanged x).leftGrid = x.rightGrid.transpose := rfl

theorem rightGrid_exchanged (x : Extents) : (exchanged x).rightGrid = x.leftGrid.transpose := rfl

section Exchanged

variable {A : Arithmetic α} (hcomm : ∀ y z, A.mul y z = A.mul z y)

include hcomm

/-- Column `j` and row `i` are multiplied as row `i` and column `j` are. -/
theorem dotProduct_exchanged (a b : Array α) (x : Extents) (i j : Nat) :
    dotProduct A b a (exchanged x) j i = dotProduct A a b x i j := by
  apply foldlM_congr
  intro acc p _
  have hleft : entry A.zero b (exchanged x).leftGrid j p = entry A.zero b x.rightGrid p j := by
    unfold entry
    rw [leftGrid_exchanged, Grid.offset_transpose]
  have hright : entry A.zero a (exchanged x).rightGrid p i = entry A.zero a x.leftGrid i p := by
    unfold entry
    rw [rightGrid_exchanged, Grid.offset_transpose]
  unfold addProduct
  rw [hleft, hright, hcomm]

/-- With a zero `beta`, element `(j, i)` of the one product is element `(i, j)` of the other. -/
theorem productEntry_exchanged (alpha : α) (a b : Array α) {beta : α}
    (hbeta : A.isZero beta = true) (x : Extents) (c c' : Array α) (i j : Nat) :
    productEntry A alpha b a beta (exchanged x) c' (j, i) =
      productEntry A alpha a b beta x c (i, j) := by
  unfold productEntry
  rw [dotProduct_exchanged hcomm]
  simp only [hbeta, if_true]

end Exchanged

/-! ## Products of words -/

section Words

variable {w : Nat}

theorem word_mul_comm (y z : BitVec w) : Word.mul y z = Word.mul z y := by
  unfold Word.mul
  rw [Int.mul_comm]

theorem exact_overflows (op : ArithmeticOp) (n : Int) :
    FailsIn (fun t => ∃ op, t = .overflow op) (Word.exact op n : Except Trap (BitVec w)) :=
  .ite (fun _ => .ok _) fun _ => .error ⟨op, rfl⟩

/-- The elements of a product of words fail by overflow only. -/
theorem productEntry_overflows (alpha : BitVec w) (a b : Array (BitVec w)) (beta : BitVec w)
    (x : Extents) (c : Array (BitVec w)) (cell : Nat × Nat) :
    FailsIn (fun t => ∃ op, t = .overflow op)
      (productEntry (Word.arithmetic w) alpha a b beta x c cell) := by
  refine .bind (.foldlM fun acc p _ => ?_) fun sum _ => ?_
  · exact .bind (exact_overflows _ _) fun _ _ => exact_overflows _ _
  · refine .bind (exact_overflows _ _) fun scaled _ => .ite (fun _ => .ok _) fun _ => ?_
    exact .bind (exact_overflows _ _) fun _ _ => exact_overflows _ _

theorem HoldsProduct.exchanged {α : Type} {x : Extents} {a b dst dst' : Array α}
    (h : HoldsProduct x a b dst) (hsize : x.rows * x.cols ≤ dst'.size) :
    HoldsProduct (exchanged x) b a dst' where
  left := Nat.mul_comm .. ▸ h.right
  right := Nat.mul_comm .. ▸ h.left
  result := Nat.mul_comm .. ▸ hsize
  leftLimit := Nat.mul_comm .. ▸ h.rightLimit
  rightLimit := Nat.mul_comm .. ▸ h.leftLimit
  resultLimit := Nat.mul_comm .. ▸ h.resultLimit

/-- Either both products end, one with the elements of the other exchanged, or both overflow. -/
def Exchanges {α : Type} (x : Extents) (o o' : Outcome α) : Prop :=
  (o.2 = .ok () ∧ o'.2 = .ok () ∧ ∀ i j, i < x.rows → j < x.cols →
    ∃ v, o.1[i * x.cols + j]? = some v ∧ o'.1[j * x.rows + i]? = some v) ∨
  ∃ op op', o.2 = .error (.trap (.overflow op)) ∧ o'.2 = .error (.trap (.overflow op'))

theorem product_exchanged (alpha : BitVec w) {beta : BitVec w}
    (hbeta : (Word.arithmetic w).isZero beta = true) {a b dst dst' : Array (BitVec w)} {x : Extents}
    (h : HoldsProduct x a b dst) (hsize : x.rows * x.cols ≤ dst'.size) :
    Exchanges x (product (Word.arithmetic w) alpha a b beta x dst)
      (product (Word.arithmetic w) alpha b a beta (exchanged x) dst') := by
  have h' := h.exchanged hsize
  have hsame (i j : Nat) := productEntry_exchanged (A := Word.arithmetic w) word_mul_comm alpha a b
    hbeta x dst dst' i j
  by_cases hall : ∀ cell ∈ (resultGrid x).cells, ∃ new,
      productEntry (Word.arithmetic w) alpha a b beta x dst cell = .ok new
  · left
    have hall' : ∀ cell ∈ (resultGrid (exchanged x)).cells, ∃ new,
        productEntry (Word.arithmetic w) alpha b a beta (exchanged x) dst' cell = .ok new := by
      rintro ⟨j, i⟩ hji
      obtain ⟨hj, hi⟩ := Grid.mem_cells_iff.mp hji
      rw [hsame]
      exact hall (i, j) (Grid.mem_cells_iff.mpr ⟨hi, hj⟩)
    obtain ⟨hends, hplaced⟩ := product_of_forall h hall
    obtain ⟨hends', hplaced'⟩ := product_of_forall h' hall'
    refine ⟨hends, hends', ?_⟩
    intro i j hi hj
    obtain ⟨v, hv, hat⟩ := hplaced.placed (i, j) (Grid.mem_cells_iff.mpr ⟨hi, hj⟩)
    obtain ⟨v', hv', hat'⟩ := hplaced'.placed (j, i) (Grid.mem_cells_iff.mpr ⟨hj, hi⟩)
    rw [hsame, hv] at hv'
    cases hv'
    exact ⟨v, hat, hat'⟩
  · right
    push Not at hall
    obtain ⟨⟨i, j⟩, hij, hnone⟩ := hall
    cases hentry : productEntry (Word.arithmetic w) alpha a b beta x dst (i, j) with
    | ok new => exact absurd hentry (hnone new)
    | error t =>
      obtain ⟨hi, hj⟩ := Grid.mem_cells_iff.mp hij
      have hij' : (j, i) ∈ (resultGrid (exchanged x)).cells := Grid.mem_cells_iff.mpr ⟨hj, hi⟩
      obtain ⟨cell, t₁, ht₁, hends⟩ := product_of_not_forall h hij hentry
      obtain ⟨cell', t₂, ht₂, hends'⟩ := product_of_not_forall h' hij' ((hsame i j).trans hentry)
      obtain ⟨op, rfl⟩ := productEntry_overflows _ _ _ _ _ _ _ t₁ ht₁
      obtain ⟨op', rfl⟩ := productEntry_overflows _ _ _ _ _ _ _ t₂ ht₂
      exact ⟨op, op', hends, hends'⟩

end Words

/-! ## Arithmetic that never traps -/

/-- The sum from zero of the products of row `i` and column `j`, in order. -/
def sumOfProducts (add mul : α → α → α) (zero : α) (a b : Array α) (x : Extents) (i j : Nat) : α :=
  (List.range x.inner).foldl
    (fun acc p => add acc (mul (entry zero a x.leftGrid i p) (entry zero b x.rightGrid p j))) zero

section Total

variable {A : Arithmetic α} {add mul : α → α → α} (hadd : ∀ y z, A.add y z = .ok (add y z))
  (hmul : ∀ y z, A.mul y z = .ok (mul y z))

include hadd hmul

theorem dotProduct_of_total (a b : Array α) (x : Extents) (i j : Nat) :
    dotProduct A a b x i j = .ok (sumOfProducts add mul A.zero a b x i j) := by
  have hstep : addProduct A a b x i j = fun acc p =>
      pure (add acc (mul (entry A.zero a x.leftGrid i p) (entry A.zero b x.rightGrid p j))) := by
    funext acc p
    unfold addProduct
    rw [hmul]
    exact hadd _ _
  unfold dotProduct
  rw [hstep, List.foldlM_pure]
  rfl

theorem productEntry_of_total (alpha : α) (a b : Array α) (beta : α) (x : Extents) (c : Array α)
    (cell : Nat × Nat) :
    productEntry A alpha a b beta x c cell = .ok (
      if A.isZero beta then mul alpha (sumOfProducts add mul A.zero a b x cell.1 cell.2)
      else add (mul alpha (sumOfProducts add mul A.zero a b x cell.1 cell.2))
        (mul beta (entry A.zero c (resultGrid x) cell.1 cell.2))) := by
  unfold productEntry
  rw [dotProduct_of_total hadd hmul]
  by_cases hbeta : A.isZero beta = true
  · simp only [hbeta, if_true, hmul]
    rfl
  · simp only [hbeta, hmul, hadd]
    rfl

/-- The elements of a product over buffers that hold its matrices. -/
theorem product_of_total (alpha beta : α) {a b dst : Array α} {x : Extents}
    (h : HoldsProduct x a b dst) :
    (product A alpha a b beta x dst).2 = .ok () ∧
      (product A alpha a b beta x dst).1.size = dst.size ∧
      (∀ i j, i < x.rows → j < x.cols → ∃ old, dst[i * x.cols + j]? = some old ∧
        (product A alpha a b beta x dst).1[i * x.cols + j]? = some (
          if A.isZero beta then mul alpha (sumOfProducts add mul A.zero a b x i j)
          else add (mul alpha (sumOfProducts add mul A.zero a b x i j)) (mul beta old))) ∧
      ∀ p, x.rows * x.cols ≤ p → (product A alpha a b beta x dst).1[p]? = dst[p]? := by
  have hentry := productEntry_of_total hadd hmul alpha a b beta x dst
  obtain ⟨hends, hplaced⟩ := product_of_forall h fun cell _ => ⟨_, hentry cell⟩
  refine ⟨hends, hplaced.size, ?_, ?_⟩
  · intro i j hi hj
    have hold : dst[i * x.cols + j]? = some (entry A.zero dst (resultGrid x) i j) :=
      Buffer.read_eq_ok_iff.mp (read_entry A.zero (g := resultGrid x) h.result hi hj)
    obtain ⟨new, hnew, hat⟩ := hplaced.placed (i, j) (Grid.mem_cells_iff.mpr ⟨hi, hj⟩)
    have hvalue := (hentry (i, j)).symm.trans (Halt.ofTrap_eq_ok_iff.mp hnew)
    rw [← Except.ok.inj hvalue] at hat
    exact ⟨_, hold, hat⟩
  · intro p hp
    apply hplaced.others p
    intro hmem
    have hlt := List.mem_range.mp ((Grid.offsets_perm (resultGrid x)).mem_iff.mp hmem)
    exact Nat.not_lt.mpr hp hlt

end Total

/-! ## The definition of a product -/

/-- Where every sum and every product has a value, the kernel refuses the first buffer that is too
short, and otherwise leaves `alpha * (a · b) + beta * dst`, or `alpha * (a · b)` alone if `beta` is
zero.  The matrix product is the sum from zero over the shared dimension, from its first element on;
what stands behind the matrix in the destination stays. -/
theorem product_spec (A : Arithmetic α) (add mul : α → α → α)
    (hadd : ∀ y z, A.add y z = .ok (add y z)) (hmul : ∀ y z, A.mul y z = .ok (mul y z))
    (alpha beta : α) (a b dst : Array α) (x : Extents) (hleft : x.rows * x.inner < Size.limit)
    (hright : x.inner * x.cols < Size.limit) (hresult : x.rows * x.cols < Size.limit) :
    (a.size < x.rows * x.inner →
      product A alpha a b beta x dst = refuse dst (.matrixTooSmall a.size x.rows x.inner)) ∧
    (x.rows * x.inner ≤ a.size → b.size < x.inner * x.cols →
      product A alpha a b beta x dst = refuse dst (.matrixTooSmall b.size x.inner x.cols)) ∧
    (x.rows * x.inner ≤ a.size → x.inner * x.cols ≤ b.size → dst.size < x.rows * x.cols →
      product A alpha a b beta x dst = refuse dst (.matrixTooSmall dst.size x.rows x.cols)) ∧
    (x.rows * x.inner ≤ a.size → x.inner * x.cols ≤ b.size → x.rows * x.cols ≤ dst.size →
      (product A alpha a b beta x dst).2 = .ok () ∧
      (product A alpha a b beta x dst).1.size = dst.size ∧
      (∀ i j, i < x.rows → j < x.cols → ∃ old, dst[i * x.cols + j]? = some old ∧
        (product A alpha a b beta x dst).1[i * x.cols + j]? = some (
          if A.isZero beta then mul alpha (sumOfProducts add mul A.zero a b x i j)
          else add (mul alpha (sumOfProducts add mul A.zero a b x i j)) (mul beta old))) ∧
      (∀ p, x.rows * x.cols ≤ p → (product A alpha a b beta x dst).1[p]? = dst[p]?) ∧
      (A.isZero beta = true → ∀ dst' : Array α, x.rows * x.cols ≤ dst'.size →
        (product A alpha a b beta x dst').2 = .ok () ∧ ∀ p, p < x.rows * x.cols →
          (product A alpha a b beta x dst').1[p]? = (product A alpha a b beta x dst).1[p]?)) := by
  refine ⟨?_, ?_, ?_, ?_⟩
  · intro ha
    rw [product_eq, requireProduct, requireOperand_of_lt hleft ha]
    rfl
  · intro ha hb
    rw [product_eq, requireProduct, requireOperand_of_le hleft ha, requireOperand_of_lt hright hb]
    rfl
  · intro ha hb hc
    rw [product_eq, requireProduct, requireOperand_of_le hleft ha, requireOperand_of_le hright hb,
      requireOperand_of_lt hresult hc]
    rfl
  · intro ha hb hc
    have hholds : HoldsProduct x a b dst := ⟨ha, hb, hc, hleft, hright, hresult⟩
    obtain ⟨hends, hsize, hentries, hbehind⟩ :=
      product_of_total hadd hmul alpha beta hholds
    refine ⟨hends, hsize, hentries, hbehind, ?_⟩
    intro hbeta dst' hc'
    have hholds' : HoldsProduct x a b dst' := ⟨ha, hb, hc', hleft, hright, hresult⟩
    obtain ⟨hends', -, hentries', -⟩ :=
      product_of_total hadd hmul alpha beta hholds'
    refine ⟨hends', ?_⟩
    intro p hp
    obtain ⟨i, j, hi, hj, rfl⟩ := Grid.exists_offset_eq (g := resultGrid x) hp
    obtain ⟨old, -, hat⟩ := hentries i j hi hj
    obtain ⟨old', -, hat'⟩ := hentries' i j hi hj
    rw [if_pos hbeta] at hat hat'
    rw [resultGrid_offset, hat, hat']

/-- Arithmetic of bytes that wraps. -/
def wrapping : Arithmetic (BitVec 8) :=
  { Word.arithmetic 8 with add := fun y z => .ok (y + z), mul := fun y z => .ok (y * z) }

/-- Two operands that are not square, both stored transposed, in buffers that are too long. -/
theorem product_spec_transposed_operands :
    let x : Extents := { rows := 2, cols := 2, inner := 3, transA := true, transB := true }
    let o := product wrapping 2 #[1, 4, 2, 5, 3, 6, 7] #[1, 3, 5, 2, 4, 6] 1 x #[10, 20, 30, 40, 50]
    x.rows * x.inner < Size.limit ∧ x.inner * x.cols < Size.limit ∧ x.rows * x.cols < Size.limit ∧
      o.2 = .ok () ∧ o.1[2]? = some (2 * 49 + 1 * 30) ∧ o.1[4]? = some 50 := by
  intro x o
  have hleft : x.rows * x.inner < Size.limit := by decide
  have hright : x.inner * x.cols < Size.limit := by decide
  have hresult : x.rows * x.cols < Size.limit := by decide
  obtain ⟨-, -, -, h⟩ := product_spec wrapping (· + ·) (· * ·) (fun _ _ => rfl) (fun _ _ => rfl) 2 1
    #[1, 4, 2, 5, 3, 6, 7] #[1, 3, 5, 2, 4, 6] #[10, 20, 30, 40, 50] x hleft hright hresult
  obtain ⟨hends, -, hentries, hbehind, -⟩ := h (by decide) (by decide) (by decide)
  obtain ⟨old, hold, hat⟩ := hentries 1 0 (by decide) (by decide)
  cases hold
  exact ⟨hleft, hright, hresult, hends, hat, hbehind 4 (by decide)⟩

end DeviceTensor.Kernel
