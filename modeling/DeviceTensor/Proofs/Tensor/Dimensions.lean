import Mathlib.Algebra.BigOperators.Ring.List
import Mathlib.Algebra.Order.Ring.Nat
import DeviceTensor.Proofs.Tensor.Valid
set_option autoImplicit false

/-!
# Products of dimensions

Dimensions are multiplied from the left, and every partial product has to be a size: whether a
product traps depends on the order of the dimensions, and not only on its value.  If no dimension
is zero, then every range of them has a product that is at most that of all.
-/

namespace DeviceTensor

open DeviceTensor.Except

/-! ## Partial products -/

namespace Size

variable {dims : List Nat} {a n : Nat}

theorem one_lt_limit : 1 < limit := by decide

/-- A product from the left is in range if all its partial products are. -/
theorem foldlM_mul_iff (ha : a < limit) :
    (∃ n, dims.foldlM mul a = .ok n) ↔ ∀ k, a * (dims.take k).prod < limit := by
  induction dims generalizing a with
  | nil => simp [ha, pure, Except.pure]
  | cons d dims ih =>
    rw [List.foldlM_cons]
    by_cases hd : a * d < limit
    · rw [mul_of_lt hd]
      refine (ih hd).trans ⟨fun h k => ?_, fun h k => ?_⟩
      · cases k with
        | zero => simpa using ha
        | succ k =>
          rw [List.take_succ_cons, List.prod_cons, ← Nat.mul_assoc]
          exact h k
      · have hk := h (k + 1)
        rwa [List.take_succ_cons, List.prod_cons, ← Nat.mul_assoc] at hk
    · refine iff_of_false ?_ fun h => hd ?_
      · rintro ⟨n, hn⟩
        obtain ⟨m, hm, -⟩ := bind_eq_ok_iff.mp hn
        exact hd (mul_eq_ok_iff.mp hm).1
      · simpa using h 1

theorem product_iff : (∃ n, product dims = .ok n) ↔ ∀ k, (dims.take k).prod < limit := by
  refine (foldlM_mul_iff one_lt_limit).trans (forall_congr' fun k => ?_)
  rw [Nat.one_mul]

/-- A product from the left that traps has overflowed. -/
theorem eq_overflow_of_product {t : Trap} (h : product dims = .error t) : t = .overflow .mul := by
  have hfails : FailsIn (· = Trap.overflow .mul) (product dims) :=
    .foldlM fun a d _ => .ite (fun _ => .ok _) fun _ => .error rfl
  exact hfails t h

/-- A product whose partial products are in range is exact. -/
theorem product_of_lt (h : ∀ k, (dims.take k).prod < limit) : product dims = .ok dims.prod := by
  obtain ⟨n, hn⟩ := product_iff.mpr h
  rw [hn, eq_prod_of_product hn]

/-- A product with a partial product that is out of range traps. -/
theorem product_of_le {k : Nat} (h : limit ≤ (dims.take k).prod) :
    product dims = .error (.overflow .mul) := by
  cases hn : product dims with
  | ok n => exact absurd (product_iff.mp ⟨n, hn⟩ k) (Nat.not_lt.mpr h)
  | error t => rw [eq_overflow_of_product hn]

section

variable (h : product dims = .ok n) (k : Nat)

include h

/-- If all dimensions can be multiplied from the left, then the first ones can. -/
theorem product_take : product (dims.take k) = .ok (dims.take k).prod := by
  refine product_of_lt fun l => ?_
  rw [List.take_take]
  exact product_iff.mp ⟨n, h⟩ (min l k)

/-- If none of the first ones is zero, then the others can be multiplied as well. -/
theorem product_drop (hk : 0 ∉ dims.take k) (l : Nat) : ((dims.drop k).take l).prod < limit := by
  have hpos : 0 < (dims.take k).prod := Nat.pos_of_ne_zero (List.prod_ne_zero hk)
  calc ((dims.drop k).take l).prod ≤ (dims.take k).prod * ((dims.drop k).take l).prod :=
        Nat.le_mul_of_pos_left _ hpos
    _ = (dims.take (k + l)).prod := by rw [List.take_add, List.prod_append]
    _ < limit := product_iff.mp ⟨n, h⟩ (k + l)

end

/-- Dimensions without a zero can be multiplied if their product is in range. -/
theorem product_of_pos (hpos : 0 ∉ dims) (h : dims.prod < limit) :
    product dims = .ok dims.prod := by
  refine product_of_lt fun k => ?_
  have hrest : 0 ∉ dims.drop k := fun hk => hpos (List.mem_of_mem_drop hk)
  calc (dims.take k).prod ≤ (dims.take k).prod * (dims.drop k).prod :=
        Nat.le_mul_of_pos_right _ (Nat.pos_of_ne_zero (List.prod_ne_zero hrest))
    _ = dims.prod := List.prod_take_mul_prod_drop dims k
    _ < limit := h

end Size

/-! ## Ranges of dimensions -/

namespace Shape

variable {shape : Shape} {start stop k : Nat}

/-- Where a range of dimensions ends: zero stands for the end of the shape. -/
def rangeEnd (shape : Shape) (stop : Nat) : Nat := if stop = 0 then shape.length else stop

/-- The dimensions from `start` up to, but without, `stop`. -/
def range (shape : Shape) (start stop : Nat) : List Nat :=
  (shape.take (shape.rangeEnd stop)).drop start

/-- Only a range that ends behind the last dimension is refused. -/
theorem product_of_lt (h : shape.length < stop) :
    shape.product start stop = .error (.rangeBeyondRank stop shape.length) := by
  have hstop : stop ≠ 0 := Nat.ne_of_gt (Nat.lt_of_le_of_lt (Nat.zero_le _) h)
  simp only [product, if_neg hstop, if_pos h]

theorem product_of_le (h : stop ≤ shape.length) :
    shape.product start stop = Fault.ofTrap (Size.product (shape.range start stop)) := by
  have hlast : ¬shape.length < shape.rangeEnd stop := by
    unfold rangeEnd
    split
    · exact Nat.lt_irrefl _
    · exact Nat.not_lt.mpr h
  exact if_neg hlast

/-- A range that starts at its end, or behind it, has no dimensions. -/
theorem range_eq_nil (h : shape.rangeEnd stop ≤ start) : shape.range start stop = [] :=
  List.drop_eq_nil_of_le (Nat.le_trans (List.length_take_le _ _) h)

theorem range_zero_left (hk : k ≠ 0) : shape.range 0 k = shape.take k := by
  rw [range, rangeEnd, if_neg hk, List.drop_zero]

theorem range_zero_right : shape.range start 0 = shape.drop start := by
  rw [range, rangeEnd, if_pos rfl, List.take_length]

/-- If no dimension is zero and all of them have a product, then so has every range of them. -/
theorem product_of_pos (hpos : 0 ∉ shape) (hfits : shape.prod < Size.limit)
    (h : stop ≤ shape.length) :
    shape.product start stop = .ok (shape.range start stop).prod := by
  have hall := Size.product_of_pos hpos hfits
  have hfirst := Size.product_take hall (shape.rangeEnd stop)
  have hzero : 0 ∉ (shape.take (shape.rangeEnd stop)).take start := fun hmem =>
    hpos (List.mem_of_mem_take (List.mem_of_mem_take hmem))
  rw [product_of_le h, range, Size.product_of_lt (Size.product_drop hfirst start hzero)]
  rfl

/-! ## Refused, out of range or exact -/

theorem product_eq_rangeBeyondRank_iff :
    (∃ last rank, shape.product start stop = .error (.rangeBeyondRank last rank)) ↔
      shape.length < stop := by
  refine ⟨fun ⟨last, rank, h⟩ => Nat.lt_of_not_le fun hstop => ?_,
    fun h => ⟨stop, shape.length, product_of_lt h⟩⟩
  rw [product_of_le hstop] at h
  cases hrange : Size.product (shape.range start stop) <;> rw [hrange] at h <;> cases h

theorem product_eq_prod (h : stop ≤ shape.length)
    (hfits : ∀ k, ((shape.range start stop).take k).prod < Size.limit) :
    shape.product start stop = .ok (shape.range start stop).prod := by
  rw [product_of_le h, Size.product_of_lt hfits]
  rfl

theorem product_eq_overflow_iff (h : stop ≤ shape.length) :
    shape.product start stop = .error (.trap (.overflow .mul)) ↔
      ∃ k, Size.limit ≤ ((shape.range start stop).take k).prod := by
  constructor
  · intro htrap
    by_contra hall
    have hfits (k : Nat) : ((shape.range start stop).take k).prod < Size.limit :=
      Nat.lt_of_not_le fun hk => hall ⟨k, hk⟩
    rw [product_eq_prod h hfits] at htrap
    cases htrap
  · rintro ⟨k, hk⟩
    rw [product_of_le h, Size.product_of_le hk]
    rfl

theorem product_of_empty_range (h : stop ≤ shape.length) (hempty : shape.rangeEnd stop ≤ start) :
    shape.product start stop = .ok 1 := by
  rw [product_of_le h, range_eq_nil hempty]
  rfl

/-- The products on both sides of a dimension multiply to that of all. -/
theorem product_mul_product (hpos : 0 ∉ shape) (hfits : shape.prod < Size.limit) (hk : 1 ≤ k)
    (hrank : k ≤ shape.length) :
    ∃ m n, shape.product 0 k = .ok m ∧ shape.product k 0 = .ok n ∧
      shape.product 0 0 = .ok (m * n) := by
  refine ⟨(shape.range 0 k).prod, (shape.range k 0).prod, product_of_pos hpos hfits hrank,
    product_of_pos hpos hfits (Nat.zero_le _), ?_⟩
  rw [product_of_pos hpos hfits (Nat.zero_le _), range_zero_left (Nat.ne_of_gt hk),
    range_zero_right, range_zero_right, List.drop_zero, List.prod_take_mul_prod_drop]

/-- A range that ends behind the last dimension is refused, and no other is.  Any other range has
its exact product, which is one for a range without dimensions; it traps just if a partial product
is out of range.  If no dimension is zero and all of them have a product, then every range has
one, and the products on both sides of a dimension multiply to that of all. -/
theorem product_is_refused_exact_or_out_of_range (shape : Shape) :
    (∀ start stop : Nat,
      ((∃ last rank, shape.product start stop = .error (.rangeBeyondRank last rank)) ↔
        shape.length < stop) ∧
      (shape.length < stop →
        shape.product start stop = .error (.rangeBeyondRank stop shape.length)) ∧
      (stop ≤ shape.length →
        (shape.product start stop = .error (.trap (.overflow .mul)) ↔
          ∃ k, Size.limit ≤ ((shape.range start stop).take k).prod) ∧
        ((∀ k, ((shape.range start stop).take k).prod < Size.limit) →
          shape.product start stop = .ok (shape.range start stop).prod) ∧
        (shape.rangeEnd stop ≤ start → shape.product start stop = .ok 1))) ∧
    (0 ∉ shape → shape.prod < Size.limit →
      (∀ start stop : Nat, stop ≤ shape.length →
        shape.product start stop = .ok (shape.range start stop).prod) ∧
      ∀ k, 1 ≤ k → k ≤ shape.length →
        ∃ m n, shape.product 0 k = .ok m ∧ shape.product k 0 = .ok n ∧
          shape.product 0 0 = .ok (m * n)) := by
  refine ⟨fun start stop => ⟨product_eq_rangeBeyondRank_iff, product_of_lt, fun h =>
    ⟨product_eq_overflow_iff h, product_eq_prod h, product_of_empty_range h⟩⟩,
    fun hpos hfits => ⟨fun start stop => product_of_pos hpos hfits, fun k => ?_⟩⟩
  exact product_mul_product hpos hfits

/-- A zero keeps a product in range only if it comes before the dimensions that overflow. -/
theorem product_of_four_dimensions :
    Shape.product [2, 2 ^ 63, 0, 3] 1 5 = .error (.rangeBeyondRank 5 4) ∧
    Shape.product [2, 2 ^ 63, 0, 3] 0 4 = .error (.trap (.overflow .mul)) ∧
    Shape.product [0, 2 ^ 63, 2, 3] 0 0 = .ok 0 ∧
    Shape.product [2, 2 ^ 63, 0, 3] 3 2 = .ok 1 ∧
    Shape.product [2, 2 ^ 61, 1, 3] 1 3 = .ok (2 ^ 61) ∧
    ∃ m n, Shape.product [2, 2 ^ 61, 1, 3] 0 1 = .ok m ∧
      Shape.product [2, 2 ^ 61, 1, 3] 1 0 = .ok n ∧
      Shape.product [2, 2 ^ 61, 1, 3] 0 0 = .ok (m * n) := by
  obtain ⟨hrefused, -⟩ := product_is_refused_exact_or_out_of_range [2, 2 ^ 63, 0, 3]
  obtain ⟨hzero, -⟩ := product_is_refused_exact_or_out_of_range [0, 2 ^ 63, 2, 3]
  obtain ⟨-, hpos⟩ := product_is_refused_exact_or_out_of_range [2, 2 ^ 61, 1, 3]
  obtain ⟨hexact, hsplit⟩ := hpos (by decide) (by decide)
  have hprefix (k : Nat) : ((Shape.range [0, 2 ^ 63, 2, 3] 0 0).take k).prod < Size.limit := by
    cases k with
    | zero => decide
    | succ k =>
      have hmem : 0 ∈ (Shape.range [0, 2 ^ 63, 2, 3] 0 0).take (k + 1) := List.mem_cons_self
      rw [List.prod_eq_zero hmem]
      decide
  exact ⟨(hrefused 1 5).2.1 (by decide), ((hrefused 0 4).2.2 (by decide)).1.mpr ⟨2, by decide⟩,
    ((hzero 0 0).2.2 (by decide)).2.1 hprefix, ((hrefused 3 2).2.2 (by decide)).2.2 (by decide),
    hexact 1 3 (by decide), hsplit 1 (by decide) (by decide)⟩

end Shape

end DeviceTensor
