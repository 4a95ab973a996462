import DeviceTensor.Proofs.Kernel.Halting
set_option autoImplicit false

/-!
# Kernels that do not fail

A function on elements that always has a value is applied to every element of a buffer.  Floating
point arithmetic always has a value; the quotient of a word and a positive word has one as well.
Zero adds nothing to a word, so that the sums of the columns of a single row are its elements.
-/

namespace DeviceTensor

open DeviceTensor.Except

/-! ## Computations that do not fail -/

/-- The computation has a result. -/
abbrev Except.Sure {ε α : Type} (x : Except ε α) : Prop := FailsIn (fun _ => False) x

theorem Except.Sure.of_ok {ε α : Type} {x : Except ε α} {a : α} (h : x = .ok a) : Sure x := by
  rw [h]
  exact .ok a

theorem Except.Sure.eq_ok {ε : Type} {x : Except ε Unit} (h : Sure x) : x = .ok () := by
  cases x with
  | ok u => rfl
  | error e => exact (h e rfl).elim

/-- Arithmetic whose sums, differences and quotients always have a value. -/
structure Arithmetic.Total {α : Type} (A : Arithmetic α) : Prop where
  add : ∀ x y, ∃ z, A.add x y = .ok z
  sub : ∀ x y, ∃ z, A.sub x y = .ok z
  div : ∀ x y, ∃ z, A.div x y = .ok z

theorem arithmetic_total {d : ElemType} (h : d.isFloat = true) : (arithmetic d).Total := by
  cases d with
  | float32 => exact ⟨fun _ _ => ⟨_, rfl⟩, fun _ _ => ⟨_, rfl⟩, fun _ _ => ⟨_, rfl⟩⟩
  | float16 => exact ⟨fun _ _ => ⟨_, rfl⟩, fun _ _ => ⟨_, rfl⟩, fun _ _ => ⟨_, rfl⟩⟩
  | float64 => exact ⟨fun _ _ => ⟨_, rfl⟩, fun _ _ => ⟨_, rfl⟩, fun _ _ => ⟨_, rfl⟩⟩
  | int32 => cases h
  | char => cases h

/-! ## Sums and quotients of words -/

namespace Word

variable {w : Nat} {x y : BitVec w}

theorem fits_toInt (x : BitVec w) : Fits w x.toInt := by
  refine ⟨BitVec.sle_iff_toInt_le.mp (BitVec.intMin_sle x), ?_⟩
  rw [BitVec.toInt_intMax]
  exact BitVec.toInt_le

theorem zero_add (x : BitVec w) : add 0 x = .ok x := by
  have hzero : (0 : BitVec w).toInt = 0 := BitVec.toInt_zero
  unfold add
  rw [hzero, Int.zero_add, exact_of_fits (fits_toInt x), BitVec.ofInt_toInt]

/-- A quotient by a positive number lies between the dividend and zero. -/
theorem fits_tdiv (x : BitVec w) {n : Int} (hn : 0 < n) : Fits w (x.toInt.tdiv n) := by
  have hx := fits_toInt x
  have hzero := fits_toInt (0#w)
  rw [BitVec.toInt_zero] at hzero
  rcases Int.le_total 0 x.toInt with hpos | hneg
  · exact ⟨hzero.1.trans (Int.tdiv_nonneg hpos hn.le), (Int.tdiv_le_self n hpos).trans hx.2⟩
  · have hopposite : 0 ≤ -x.toInt := Int.neg_nonneg_of_nonpos hneg
    have hle : (-x.toInt).tdiv n ≤ -x.toInt := Int.tdiv_le_self n hopposite
    have hnonneg : 0 ≤ (-x.toInt).tdiv n := Int.tdiv_nonneg hopposite hn.le
    rw [Int.neg_tdiv] at hle hnonneg
    exact ⟨hx.1.trans (Int.neg_le_neg_iff.mp hle), (Int.nonpos_of_neg_nonneg hnonneg).trans hzero.2⟩

theorem div_of_pos (x : BitVec w) (hy : 0 < y.toInt) :
    div x y = .ok (BitVec.ofInt w (x.toInt.tdiv y.toInt)) ∧
      (BitVec.ofInt w (x.toInt.tdiv y.toInt)).toInt = x.toInt.tdiv y.toInt := by
  have hfits := fits_tdiv x hy
  refine ⟨?_, toInt_ofInt_of_fits hfits⟩
  unfold div
  rw [if_neg (Int.ne_of_gt hy), exact_of_fits hfits]

end Word

namespace Kernel

variable {α β : Type}

/-! ## Maps and sums of single elements -/

/-- A kernel whose cells are the positions of the destination, and all have values. -/
theorem eq_of_values {value : Nat → Except Halt β} {n : Nat} {dst ys : Array β} {o : Outcome β}
    (h : LeavesPrefix (List.range n) (· < ·) id value dst o) (hdst : dst.size = n)
    (hys : ys.size = n) (hvalue : ∀ i, i < n → ∃ y, value i = .ok y ∧ ys[i]? = some y) :
    o = (ys, .ok ()) := by
  have hends : o.2 = .ok () := h.ends.mpr fun i hi =>
    (hvalue i (List.mem_range.mp hi)).imp fun _ => And.left
  have hplaced := h.placed hends
  refine Prod.ext (Array.ext_getElem? fun i => ?_) hends
  by_cases hi : i < n
  · obtain ⟨x, hx, hat⟩ := hplaced.placed i (List.mem_range.mpr hi)
    obtain ⟨y, hy, hys⟩ := hvalue i hi
    exact hat.trans ((Except.ok.inj (hx.symm.trans hy)) ▸ hys.symm)
  · have hle := Nat.le_of_not_lt hi
    have hsize : o.1.size = n := hplaced.size.trans hdst
    exact (Array.getElem?_eq_none (hsize.symm ▸ hle)).trans
      (Array.getElem?_eq_none (hys.symm ▸ hle)).symm

/-- A function that always has a value is applied to every element. -/
theorem map_of_total {f : α → Except Trap β} {g : α → β} (hf : ∀ x, f x = .ok (g x))
    {src : Array α} {dst : Array β} (h : src.size = dst.size) :
    map f src dst = (src.map g, .ok ()) := by
  refine eq_of_values (map_leavesPrefix f h) h.symm Array.size_map fun i hi => ⟨g src[i], ?_, ?_⟩
  · rw [Buffer.read_of_lt hi]
    exact congrArg Halt.ofTrap (hf src[i])
  · rw [Array.getElem?_map, Array.getElem?_eq_getElem hi]
    rfl

/-- The sums of the columns of a single row are its elements, if zero adds nothing. -/
theorem sumRows_single_row {A : Arithmetic α} (hzero : ∀ x, A.add A.zero x = .ok x) {n : Nat}
    (hn : n < Size.limit) {m dst : Array α} (hm : m.size = n) (hdst : dst.size = n) :
    sumRows A m ⟨1, n, false⟩ dst = (m, .ok ()) := by
  have hsize : (Grid.mk 1 n false).size = n := Nat.one_mul n
  have hholds : requireHolds m.size ⟨1, n, false⟩ = .ok () :=
    requireHolds_of_le (hsize.symm ▸ hn) (Nat.le_of_eq (hsize.trans hm.symm))
  refine eq_of_values (sumRows_leavesPrefix A hdst hholds) hdst hm fun j hj => ?_
  have hlt : j < m.size := hm.symm ▸ hj
  have hread : Buffer.read m (0 * n + j) = .ok m[j] := by
    rw [Nat.zero_mul, Nat.zero_add]
    exact Buffer.read_of_lt hlt
  have htotal : lineTotal A m ⟨1, n, false⟩ (fun i => (i, j)) 1 = .ok m[j] := by
    change (Buffer.read m (0 * n + j) >>= A.add A.zero) >>= pure = _
    rw [hread]
    exact (bind_pure _).trans (hzero _)
  exact ⟨m[j], congrArg Halt.ofTrap htotal, Array.getElem?_eq_getElem hlt⟩

end Kernel

end DeviceTensor
