import Mathlib.Algebra.BigOperators.Intervals
import DeviceTensor.Proofs.Kernel.Broadcast
import DeviceTensor.Proofs.Kernel.Product
set_option autoImplicit false

/-!
# Kernels on words are exact

Words do not wrap.  A computation on words passes through integers, one operation after the other;
if all of them are in the range of the words, it gives the integer of its formula, and if one of
them is not, it overflows: `Word.Exact`.  Sums are taken from the left, so that a sum may be in
range and yet overflow on the way.  A kernel on words runs to its end exactly if no element of its
destination overflows, and has then stored the integers of the formula: `StoresExactly`.
-/

namespace DeviceTensor

open DeviceTensor.Except

/-! ## Computations on words -/

namespace Word

variable {w k : Nat} {P Q : Prop} {m n : Int} {x : Except Trap (BitVec w)}

theorem toInt_ofInt_of_fits (h : Fits w n) : (BitVec.ofInt w n).toInt = n := by
  obtain ⟨hmin, hmax⟩ := h
  rw [BitVec.toInt_intMin] at hmin
  rw [BitVec.toInt_intMax] at hmax
  by_cases hw : w = 0
  · subst hw
    have hn : n = 0 := by
      simp only [Nat.zero_sub, Nat.pow_zero, Int.pow_zero] at hmin hmax
      omega
    rw [hn]
    rfl
  · have hpos : 0 < w := Nat.pos_of_ne_zero hw
    have hlt : 2 ^ (w - 1) < 2 ^ w :=
      Nat.pow_lt_pow_right Nat.one_lt_two (Nat.sub_lt hpos Nat.one_pos)
    rw [Nat.mod_eq_of_lt hlt] at hmin
    push_cast at hmin
    exact BitVec.toInt_ofInt_eq_self hpos hmin (Int.lt_of_le_sub_one hmax)

/-- If `P` holds, the computation gives the word that stands for `n`; otherwise it overflows. -/
structure Exact (P : Prop) (n : Int) (x : Except Trap (BitVec w)) : Prop where
  value : P → ∃ v, x = .ok v ∧ v.toInt = n
  overflows : ¬P → ∃ op, x = .error (.overflow op)

theorem exact_exact (op : ArithmeticOp) (n : Int) :
    Exact (Fits w n) n (exact op n : Except Trap (BitVec w)) where
  value h := ⟨_, exact_of_fits h, toInt_ofInt_of_fits h⟩
  overflows h := ⟨op, exact_of_not_fits h⟩

namespace Exact

theorem of_iff (h : Exact P n x) (hPQ : P ↔ Q) : Exact Q n x where
  value hq := h.value (hPQ.mpr hq)
  overflows hq := h.overflows fun hp => hq (hPQ.mp hp)

/-- A computation that goes on with an exact value. -/
theorem bind {f : BitVec w → Except Trap (BitVec w)} (hx : Exact P m x)
    (hf : ∀ v, v.toInt = m → Exact Q n (f v)) : Exact (P ∧ Q) n (x >>= f) where
  value := by
    rintro ⟨hp, hq⟩
    obtain ⟨v, rfl, hv⟩ := hx.value hp
    exact (hf v hv).value hq
  overflows hn := by
    by_cases hp : P
    · obtain ⟨v, rfl, hv⟩ := hx.value hp
      exact (hf v hv).overflows fun hq => hn ⟨hp, hq⟩
    · obtain ⟨op, rfl⟩ := hx.overflows hp
      exact ⟨op, rfl⟩

/-- A sum from the left: step `p` adds the integer `term p` to those before it. -/
theorem foldlM {f : BitVec w → Nat → Except Trap (BitVec w)} {term : Nat → Int}
    {fits : Nat → Prop}
    (hf : ∀ p, p < k → ∀ acc : BitVec w, acc.toInt = ∑ q ∈ Finset.range p, term q →
      Exact (fits p) (∑ q ∈ Finset.range (p + 1), term q) (f acc p)) :
    Exact (∀ p, p < k → fits p) (∑ q ∈ Finset.range k, term q)
      ((List.range k).foldlM f 0) := by
  induction k with
  | zero => exact ⟨fun _ => ⟨0, rfl, by simp⟩, fun h => absurd nofun h⟩
  | succ k ih =>
    have hinit := ih fun p hp => hf p (Nat.lt_succ_of_lt hp)
    have hsplit : (List.range (k + 1)).foldlM f 0 =
        (List.range k).foldlM f 0 >>= fun acc => f acc k := by
      simp [List.range_succ, List.foldlM_append]
    rw [hsplit]
    exact (hinit.bind (hf k (Nat.lt_succ_self k))).of_iff Nat.forall_lt_succ_right.symm

end Exact

theorem isZero_iff (beta : BitVec w) : (arithmetic w).isZero beta = true ↔ beta.toInt = 0 := by
  have hzero : (0 : BitVec w).toInt = 0 := BitVec.toInt_zero
  refine beq_iff_eq.trans ?_
  rw [← BitVec.toInt_inj, hzero]

theorem add_exact {x y : BitVec w} (hx : x.toInt = m) (hy : y.toInt = n) :
    Exact (Fits w (m + n)) (m + n) (add x y) := by
  rw [← hx, ← hy]
  exact exact_exact .add _

theorem mul_exact {x y : BitVec w} (hx : x.toInt = m) (hy : y.toInt = n) :
    Exact (Fits w (m * n)) (m * n) (mul x y) := by
  rw [← hx, ← hy]
  exact exact_exact .mul _

/-- The integer at a place of a buffer, zero behind its end. -/
def intAt (xs : Array (BitVec w)) (k : Nat) : Int := (xs.getD k 0).toInt

end Word

/-! ## Sweeps -/

/-- Steps of a kernel that are steps of a computation. -/
theorem Halt.foldlM_ofTrap {α β : Type} (f : α → β → Except Trap α) (l : List β) (a : α) :
    l.foldlM (fun a b => Halt.ofTrap (f a b)) a = Halt.ofTrap (l.foldlM f a) := by
  induction l generalizing a with
  | nil => rfl
  | cons b l ih =>
    rw [List.foldlM_cons, List.foldlM_cons, Halt.ofTrap_bind]
    exact bind_congr ih

/-- The run of a kernel ends exactly if the computations of all cells stay in range.  Every cell has
then stored its integer at its place, and nothing else has changed.  A run that does not end
overflows. -/
structure StoresExactly {ι : Type} {w : Nat} (cells : List ι) (site : ι → Nat) (fits : ι → Prop)
    (value : ι → Int) (dst : Array (BitVec w)) (o : Outcome (BitVec w)) : Prop where
  ends : o.2 = .ok () ↔ ∀ c ∈ cells, fits c
  overflows : (¬∀ c ∈ cells, fits c) → ∃ op, o.2 = .error (.trap (.overflow op))
  size : o.1.size = dst.size
  stored : o.2 = .ok () → ∀ c ∈ cells, ∃ v, o.1[site c]? = some v ∧ v.toInt = value c
  others : o.2 = .ok () → ∀ k, k ∉ cells.map site → o.1[k]? = dst[k]?

/-- Cells whose computations are exact. -/
theorem Sited.storesExactly {ι : Type} {w : Nat} {cells : List ι} {site : ι → Nat}
    {place : ι → Array (BitVec w) → Except Halt (Nat × BitVec w)} {fits : ι → Prop}
    {value : ι → Int} {entry : ι → Except Trap (BitVec w)} {dst : Array (BitVec w)}
    (h : Sited place cells site (fun c => Halt.ofTrap (entry c)) dst)
    (hentry : ∀ c ∈ cells, Word.Exact (fits c) (value c) (entry c)) :
    StoresExactly cells site fits value dst (sweep place cells dst) := by
  rcases forall_or_first entry cells with hall | ⟨before, c, later, t, hcells, hbefore, hc⟩
  · have hfits : ∀ c ∈ cells, fits c := by
      intro c hc
      obtain ⟨x, hx⟩ := hall c hc
      by_contra hnot
      obtain ⟨op, hop⟩ := (hentry c hc).overflows hnot
      cases hx.symm.trans hop
    obtain ⟨hends, hplaced, -⟩ := h.sweep_of_forall (Halt.ofTrap_forall_ok hall)
    refine ⟨iff_of_true hends hfits, fun hnot => absurd hfits hnot, hplaced.size, ?_,
      fun _ => hplaced.others⟩
    intro _ c hc
    obtain ⟨x, hx, hat⟩ := hplaced.placed c hc
    obtain ⟨v, hv, hvalue⟩ := (hentry c hc).value (hfits c hc)
    have hsame : x = v := Except.ok.inj ((Halt.ofTrap_eq_ok_iff.mp hx).symm.trans hv)
    exact ⟨x, hat, hsame ▸ hvalue⟩
  · have hmem : c ∈ cells := by simp [hcells]
    have hnot : ¬fits c := by
      intro hfits
      obtain ⟨v, hv, -⟩ := (hentry c hmem).value hfits
      cases hc.symm.trans hv
    obtain ⟨op, hop⟩ := (hentry c hmem).overflows hnot
    have htrap : Halt.ofTrap (entry c) = .error (.trap (.overflow op)) :=
      Halt.ofTrap_eq_error_iff.mpr ⟨_, hop, rfl⟩
    have hsited := hcells ▸ h
    obtain ⟨hends, hplaced, -⟩ := hsited.sweep_of_first (Halt.ofTrap_forall_ok hbefore) htrap
    rw [← hcells] at hends hplaced
    have hstops : (sweep place cells dst).2 ≠ .ok () := by
      rw [hends]
      nofun
    exact ⟨iff_of_false hstops fun hfits => hnot (hfits c hmem), fun _ => ⟨op, hends⟩,
      hplaced.size, fun hok => absurd hok hstops, fun hok => absurd hok hstops⟩

namespace Kernel

open Word (Fits Exact add_exact mul_exact intAt)

section

variable {w : Nat} {alpha beta : BitVec w} {a b c v m src dst : Array (BitVec w)} {x : Extents}
  {g : Grid} {i j : Nat}

/-! ## Products -/

/-- Summand `p` of element `(i, j)` of a product. -/
def summand (a b : Array (BitVec w)) (x : Extents) (i j p : Nat) : Int :=
  intAt a (x.leftGrid.offset i p) * intAt b (x.rightGrid.offset p j)

/-- The sum of the first `k` summands. -/
def partialProduct (a b : Array (BitVec w)) (x : Extents) (i j k : Nat) : Int :=
  ∑ p ∈ Finset.range k, summand a b x i j p

/-- The integer `alpha * (a · b) + beta * c` of a cell. -/
def productValue (alpha : BitVec w) (a b : Array (BitVec w)) (beta : BitVec w) (x : Extents)
    (c : Array (BitVec w)) (cell : Nat × Nat) : Int :=
  alpha.toInt * partialProduct a b x cell.1 cell.2 x.inner +
    beta.toInt * intAt c (placeOf (resultGrid x) cell)

/-- The integers that lead to the product at a cell are in range.  The old value counts only under a
`beta` other than zero. -/
structure ProductFits (alpha : BitVec w) (a b : Array (BitVec w)) (beta : BitVec w) (x : Extents)
    (c : Array (BitVec w)) (cell : Nat × Nat) : Prop where
  summands : ∀ p, p < x.inner → Fits w (summand a b x cell.1 cell.2 p)
  sums : ∀ p, p < x.inner → Fits w (partialProduct a b x cell.1 cell.2 (p + 1))
  scaled : Fits w (alpha.toInt * partialProduct a b x cell.1 cell.2 x.inner)
  kept : beta.toInt ≠ 0 → Fits w (beta.toInt * intAt c (placeOf (resultGrid x) cell))
  total : beta.toInt ≠ 0 → Fits w (productValue alpha a b beta x c cell)

theorem addProduct_exact {p : Nat} {acc : BitVec w}
    (hacc : acc.toInt = partialProduct a b x i j p) :
    Exact (Fits w (summand a b x i j p) ∧ Fits w (partialProduct a b x i j (p + 1)))
      (partialProduct a b x i j (p + 1)) (addProduct (Word.arithmetic w) a b x i j acc p) := by
  have hnext : partialProduct a b x i j (p + 1) =
      partialProduct a b x i j p + summand a b x i j p := Finset.sum_range_succ _ _
  rw [hnext]
  exact (mul_exact rfl rfl).bind fun v hv => add_exact hacc hv

theorem dotProduct_exact :
    Exact ((∀ p, p < x.inner → Fits w (summand a b x i j p)) ∧
        ∀ p, p < x.inner → Fits w (partialProduct a b x i j (p + 1)))
      (partialProduct a b x i j x.inner) (dotProduct (Word.arithmetic w) a b x i j) := by
  have hfold : Exact (∀ p, p < x.inner → Fits w (summand a b x i j p) ∧
      Fits w (partialProduct a b x i j (p + 1))) (partialProduct a b x i j x.inner)
      (dotProduct (Word.arithmetic w) a b x i j) :=
    Exact.foldlM fun p _ acc hacc => addProduct_exact hacc
  exact hfold.of_iff forall₂_and

/-- Under a zero `beta` a product ends with the scaled sum. -/
theorem productEntry_of_zero (hbeta : beta.toInt = 0) (cell : Nat × Nat) :
    productEntry (Word.arithmetic w) alpha a b beta x c cell =
      dotProduct (Word.arithmetic w) a b x cell.1 cell.2 >>= fun sum => Word.mul alpha sum := by
  unfold productEntry
  simp only [(Word.isZero_iff beta).mpr hbeta, if_true, bind_pure]
  rfl

/-- Under any other `beta` the old value is scaled and added. -/
theorem productEntry_of_ne_zero (hbeta : beta.toInt ≠ 0) (cell : Nat × Nat) :
    productEntry (Word.arithmetic w) alpha a b beta x c cell =
      dotProduct (Word.arithmetic w) a b x cell.1 cell.2 >>= fun sum =>
        Word.mul alpha sum >>= fun scaled =>
          Word.mul beta (c.getD (placeOf (resultGrid x) cell) 0) >>= fun kept =>
            Word.add scaled kept := by
  unfold productEntry
  simp only [if_neg (mt (Word.isZero_iff beta).mp hbeta)]
  rfl

theorem productEntry_exact (cell : Nat × Nat) :
    Exact (ProductFits alpha a b beta x c cell) (productValue alpha a b beta x c cell)
      (productEntry (Word.arithmetic w) alpha a b beta x c cell) := by
  by_cases hbeta : beta.toInt = 0
  · have hvalue : productValue alpha a b beta x c cell =
        alpha.toInt * partialProduct a b x cell.1 cell.2 x.inner := by
      unfold productValue
      rw [hbeta, Int.zero_mul, Int.add_zero]
    rw [productEntry_of_zero hbeta, hvalue]
    refine (dotProduct_exact.bind fun sum hsum => mul_exact rfl hsum).of_iff ?_
    constructor
    · rintro ⟨⟨hsummands, hsums⟩, hscaled⟩
      exact ⟨hsummands, hsums, hscaled, fun h => absurd hbeta h, fun h => absurd hbeta h⟩
    · intro h
      exact ⟨⟨h.summands, h.sums⟩, h.scaled⟩
  · rw [productEntry_of_ne_zero hbeta]
    refine (dotProduct_exact.bind fun sum hsum => (mul_exact rfl hsum).bind fun scaled hscaled =>
      (mul_exact rfl rfl).bind fun kept hkept => add_exact hscaled hkept).of_iff ?_
    constructor
    · rintro ⟨⟨hsummands, hsums⟩, hscaled, hkept, htotal⟩
      exact ⟨hsummands, hsums, hscaled, fun _ => hkept, fun _ => htotal⟩
    · intro h
      exact ⟨⟨h.summands, h.sums⟩, h.scaled, h.kept hbeta, h.total hbeta⟩

theorem product_storesExactly (h : requireProduct x a.size b.size c.size = .ok ()) :
    StoresExactly (resultGrid x).cells (placeOf (resultGrid x)) (ProductFits alpha a b beta x c)
      (productValue alpha a b beta x c) c (product (Word.arithmetic w) alpha a b beta x c) := by
  rw [product_eq, h]
  exact (productAt_sited (holdsProduct_of_require h)).storesExactly fun cell _ =>
    productEntry_exact cell

/-! ## Kernels with one position for every cell -/

/-- Cells that are positions of the destination. -/
theorem sited_range {α : Type} {place : Nat → Array α → Except Halt (Nat × α)} {n : Nat}
    {entry : Nat → Except Trap α} {dst : Array α} (hn : n = dst.size)
    (hplace : ∀ k, k < n → ∀ m : Array α, m.size = dst.size → m[k]? = dst[k]? →
      place k m = Halt.ofTrap (entry k) >>= fun y => .ok (k, y)) :
    Sited place (List.range n) id (fun k => Halt.ofTrap (entry k)) dst where
  inside _ hk := hn ▸ List.mem_range.mp hk
  own := List.map_id _ ▸ List.nodup_range
  place_eq k hk := hplace k (List.mem_range.mp hk)

theorem read_getD {α : Type} (zero : α) {xs : Array α} {k : Nat} (hk : k < xs.size) :
    Buffer.read xs k = .ok (xs.getD k zero) := by
  rw [Buffer.read_of_lt hk]
  simp [hk]

/-! ## Scaled additions -/

/-- The integer `alpha * src + dst` at a position. -/
def addScaledValue (alpha : BitVec w) (src dst : Array (BitVec w)) (k : Nat) : Int :=
  alpha.toInt * intAt src k + intAt dst k

/-- The integers that lead to a scaled sum are in range. -/
def AddScaledFits (alpha : BitVec w) (src dst : Array (BitVec w)) (k : Nat) : Prop :=
  Fits w (alpha.toInt * intAt src k) ∧ Fits w (addScaledValue alpha src dst k)

theorem addScaled_storesExactly (h : src.size = dst.size) :
    StoresExactly (List.range src.size) id (AddScaledFits alpha src dst)
      (addScaledValue alpha src dst) dst (addScaled (Word.arithmetic w) alpha src dst) := by
  have hsited : Sited (fun k dst => do
        let y ← Buffer.read src k
        let z ← Buffer.read dst k
        let scaled ← (Word.arithmetic w).mul alpha y
        let sum ← (Word.arithmetic w).add scaled z
        return (k, sum)) (List.range src.size) id
      (fun k => Halt.ofTrap (Word.mul alpha (src.getD k 0) >>= fun scaled =>
        Word.add scaled (dst.getD k 0))) dst := by
    refine sited_range h fun k hk m hsize hat => ?_
    simp only [Halt.liftM_eq, Buffer.read_congr hsize hat, read_getD 0 hk, read_getD 0 (h ▸ hk),
      Halt.ofTrap_ok_bind, Halt.ofTrap_bind, bind_assoc]
    rfl
  unfold addScaled requireEqual
  rw [if_pos h]
  exact hsited.storesExactly fun k _ =>
    (mul_exact rfl rfl).bind fun scaled hscaled => add_exact hscaled rfl

/-! ## Scaled broadcasts -/

theorem requireHolds_eq_ok {size : Nat} (h : requireHolds size g = .ok ()) :
    g.size < Size.limit ∧ g.size ≤ size := requireOperand_eq_ok h

/-- The integer `alpha * v + beta * m` of a cell, whose element of the vector is at `k`. -/
def broadcastValue (alpha : BitVec w) (v : Array (BitVec w)) (k : Nat × Nat → Nat)
    (beta : BitVec w) (g : Grid) (m : Array (BitVec w)) (cell : Nat × Nat) : Int :=
  alpha.toInt * intAt v (k cell) + beta.toInt * intAt m (placeOf g cell)

/-- The integers that lead to an element of a scaled broadcast are in range. -/
structure BroadcastFits (alpha : BitVec w) (v : Array (BitVec w)) (k : Nat × Nat → Nat)
    (beta : BitVec w) (g : Grid) (m : Array (BitVec w)) (cell : Nat × Nat) : Prop where
  vector : Fits w (alpha.toInt * intAt v (k cell))
  matrix : Fits w (beta.toInt * intAt m (placeOf g cell))
  total : Fits w (broadcastValue alpha v k beta g m cell)

/-- The operation of a scaled broadcast, on an element of the matrix and one of the vector. -/
def scaledSum (alpha beta : BitVec w) (old y : BitVec w) : Except Trap (BitVec w) :=
  (Word.arithmetic w).combine alpha y beta old

/-- A sweep that combines every element of a matrix with one of the vector. -/
theorem combine_storesExactly {k : Nat × Nat → Nat} (hsize : g.size < Size.limit)
    (hm : g.size ≤ m.size) (hk : ∀ cell ∈ g.cells, k cell < v.size) :
    StoresExactly g.cells (placeOf g) (BroadcastFits alpha v k beta g m)
      (broadcastValue alpha v k beta g m) m
      (sweep (combineAt (scaledSum alpha beta) v g k) g.cells m) := by
  refine (combineAt_sited hsize hm).storesExactly fun cell hcell => ?_
  obtain ⟨hi, hj⟩ := Grid.mem_cells_iff.mp hcell
  have hentry : combined (scaledSum alpha beta) v g k m cell =
      scaledSum alpha beta (m.getD (placeOf g cell) 0) (v.getD (k cell) 0) := by
    unfold combined
    rw [read_getD 0 (Nat.lt_of_lt_of_le (Grid.offset_lt_size hi hj) hm),
      read_getD 0 (hk cell hcell)]
    rfl
  rw [hentry]
  refine ((mul_exact rfl rfl).bind fun left hleft => (mul_exact rfl rfl).bind fun right hright =>
    add_exact hleft hright).of_iff ?_
  exact ⟨fun ⟨hvector, hmatrix, htotal⟩ => ⟨hvector, hmatrix, htotal⟩,
    fun h => ⟨h.vector, h.matrix, h.total⟩⟩

theorem broadcastRow_storesExactly (hv : v.size = g.cols) (hm : requireHolds m.size g = .ok ()) :
    StoresExactly g.cells (placeOf g) (BroadcastFits alpha v (·.2) beta g m)
      (broadcastValue alpha v (·.2) beta g m) m
      (broadcastRow (scaledSum alpha beta) v g m) := by
  obtain ⟨hsize, hle⟩ := requireHolds_eq_ok hm
  unfold broadcastRow requireEqual
  rw [if_pos hv, hm]
  exact combine_storesExactly hsize hle fun cell hcell => hv ▸ (Grid.mem_cells_iff.mp hcell).2

theorem broadcastColumn_storesExactly (hv : v.size = g.rows)
    (hm : requireHolds m.size g = .ok ()) :
    StoresExactly g.cells (placeOf g) (BroadcastFits alpha v (·.1) beta g m)
      (broadcastValue alpha v (·.1) beta g m) m
      (broadcastColumn (scaledSum alpha beta) v g m) := by
  obtain ⟨hsize, hle⟩ := requireHolds_eq_ok hm
  unfold broadcastColumn requireEqual
  rw [if_pos hv, hm]
  exact combine_storesExactly hsize hle fun cell hcell => hv ▸ (Grid.mem_cells_iff.mp hcell).1

/-! ## Sums of rows and columns -/

/-- The sum of the first `n` elements of a line of a matrix. -/
def lineSum (m : Array (BitVec w)) (g : Grid) (line : Nat → Nat × Nat) (n : Nat) : Int :=
  ∑ p ∈ Finset.range n, intAt m (placeOf g (line p))

/-- All sums from the left of a line of `n` elements are in range. -/
def LineFits (m : Array (BitVec w)) (g : Grid) (line : Nat → Nat × Nat) (n : Nat) : Prop :=
  ∀ p, p < n → Fits w (lineSum m g line (p + 1))

theorem foldlM_addElement_exact (hsize : g.size < Size.limit) (hm : g.size ≤ m.size)
    {line : Nat → Nat × Nat} {n : Nat} (hline : ∀ p, p < n → line p ∈ g.cells) :
    Exact (LineFits m g line n) (lineSum m g line n)
      ((List.range n).foldlM
        (fun acc p => addElement (Word.arithmetic w) m g acc (line p).1 (line p).2) 0) := by
  refine Exact.foldlM fun p hp acc hacc => ?_
  obtain ⟨hi, hj⟩ := Grid.mem_cells_iff.mp (hline p hp)
  have hadd : addElement (Word.arithmetic w) m g acc (line p).1 (line p).2 =
      Word.add acc (m.getD (placeOf g (line p)) 0) := by
    unfold addElement
    rw [Grid.checkedOffset_of_lt hsize hi hj]
    exact congrArg (· >>= Word.add acc)
      (read_getD 0 (Nat.lt_of_lt_of_le (Grid.offset_lt_size hi hj) hm))
  rw [hadd]
  unfold lineSum
  rw [Finset.sum_range_succ]
  exact add_exact hacc rfl

theorem sumRows_storesExactly (hdst : dst.size = g.cols) (hm : requireHolds m.size g = .ok ()) :
    StoresExactly (List.range g.cols) id (fun j => LineFits m g (fun i => (i, j)) g.rows)
      (fun j => lineSum m g (fun i => (i, j)) g.rows) dst
      (sumRows (Word.arithmetic w) m g dst) := by
  obtain ⟨hsize, hle⟩ := requireHolds_eq_ok hm
  unfold sumRows requireEqual
  rw [if_pos hdst, hm]
  refine Sited.storesExactly (sited_range hdst.symm fun j _ _ _ _ =>
    congrArg (· >>= _) (Halt.foldlM_ofTrap _ _ _)) fun j hj => ?_
  exact foldlM_addElement_exact hsize hle fun i hi =>
    Grid.mem_cells_iff.mpr ⟨hi, List.mem_range.mp hj⟩

theorem sumColumns_storesExactly (hdst : dst.size = g.rows)
    (hm : requireHolds m.size g = .ok ()) :
    StoresExactly (List.range g.rows) id (fun i => LineFits m g (fun j => (i, j)) g.cols)
      (fun i => lineSum m g (fun j => (i, j)) g.cols) dst
      (sumColumns (Word.arithmetic w) m g dst) := by
  obtain ⟨hsize, hle⟩ := requireHolds_eq_ok hm
  unfold sumColumns requireEqual
  rw [if_pos hdst, hm]
  refine Sited.storesExactly (sited_range hdst.symm fun i _ _ _ _ =>
    congrArg (· >>= _) (Halt.foldlM_ofTrap _ _ _)) fun i hi => ?_
  exact foldlM_addElement_exact hsize hle fun j hj =>
    Grid.mem_cells_iff.mpr ⟨List.mem_range.mp hi, hj⟩

end

/-! ## Kernels on words -/

/-- On buffers that pass their checks, kernels on words are exact or overflow: products, scaled
additions and scaled broadcasts, and the sums of rows and columns. -/
theorem word_kernels_exact (w : Nat) :
    (∀ (alpha : BitVec w) (a b : Array (BitVec w)) (beta : BitVec w) (x : Extents)
      (c : Array (BitVec w)), requireProduct x a.size b.size c.size = .ok () →
        StoresExactly (resultGrid x).cells (placeOf (resultGrid x)) (ProductFits alpha a b beta x c)
          (productValue alpha a b beta x c) c (product (Word.arithmetic w) alpha a b beta x c)) ∧
    (∀ (alpha : BitVec w) (src dst : Array (BitVec w)), src.size = dst.size →
      StoresExactly (List.range src.size) id (AddScaledFits alpha src dst)
        (addScaledValue alpha src dst) dst (addScaled (Word.arithmetic w) alpha src dst)) ∧
    (∀ (alpha beta : BitVec w) (v : Array (BitVec w)) (g : Grid) (m : Array (BitVec w)),
      requireHolds m.size g = .ok () →
        (v.size = g.cols → StoresExactly g.cells (placeOf g) (BroadcastFits alpha v (·.2) beta g m)
          (broadcastValue alpha v (·.2) beta g m) m
          (broadcastRow (scaledSum alpha beta) v g m)) ∧
        (v.size = g.rows → StoresExactly g.cells (placeOf g) (BroadcastFits alpha v (·.1) beta g m)
          (broadcastValue alpha v (·.1) beta g m) m
          (broadcastColumn (scaledSum alpha beta) v g m))) ∧
    ∀ (m : Array (BitVec w)) (g : Grid) (dst : Array (BitVec w)),
      requireHolds m.size g = .ok () →
        (dst.size = g.cols →
          StoresExactly (List.range g.cols) id (fun j => LineFits m g (fun i => (i, j)) g.rows)
            (fun j => lineSum m g (fun i => (i, j)) g.rows) dst
            (sumRows (Word.arithmetic w) m g dst)) ∧
        (dst.size = g.rows →
          StoresExactly (List.range g.rows) id (fun i => LineFits m g (fun j => (i, j)) g.cols)
            (fun i => lineSum m g (fun j => (i, j)) g.cols) dst
            (sumColumns (Word.arithmetic w) m g dst)) :=
  ⟨fun _ _ _ _ _ _ h => product_storesExactly h, fun _ _ _ h => addScaled_storesExactly h,
    fun _ _ _ _ _ hm => ⟨fun hv => broadcastRow_storesExactly hv hm,
      fun hv => broadcastColumn_storesExactly hv hm⟩,
    fun _ _ _ hm => ⟨fun hdst => sumRows_storesExactly hdst hm,
      fun hdst => sumColumns_storesExactly hdst hm⟩⟩

/-- The integer types are those of 32 and of 8 bits. -/
example : arithmetic .int32 = Word.arithmetic 32 ∧ arithmetic .char = Word.arithmetic 8 :=
  ⟨rfl, rfl⟩

/-- Rows with the sum 100: in one order of their elements all sums from the left are in range, in
another the second of them is not.  A scaled addition overflows in its last step, a scaled broadcast
with the same integers ends. -/
theorem word_kernels_exact_in_order :
    requireProduct { rows := 1, cols := 1, inner := 3 } 3 3 1 = .ok () ∧
      requireHolds 3 ⟨1, 3, false⟩ = .ok () ∧
      (product (Word.arithmetic 8) 1 #[100, -100, 100] #[1, 1, 1] 0
        { rows := 1, cols := 1, inner := 3 } #[7]).2 = .ok () ∧
      (∃ op, (sumColumns (Word.arithmetic 8) #[100, 100, -100] ⟨1, 3, false⟩ #[7]).2 =
        .error (.trap (.overflow op))) ∧
      (∃ op, (addScaled (Word.arithmetic 8) 2 #[60] #[10]).2 = .error (.trap (.overflow op))) ∧
      (broadcastRow (scaledSum (2 : BitVec 8) (-1)) #[60] ⟨1, 1, false⟩ #[10]).2 = .ok () := by
  have hx : requireProduct { rows := 1, cols := 1, inner := 3 } 3 3 1 = .ok () := rfl
  have hm : requireHolds 3 ⟨1, 3, false⟩ = .ok () := rfl
  obtain ⟨hproduct, hadd, hbroadcast, hsum⟩ := word_kernels_exact 8
  have hends := hproduct 1 #[100, -100, 100] #[1, 1, 1] 0 { rows := 1, cols := 1, inner := 3 }
    #[7] hx
  have hstops := (hsum #[100, 100, -100] ⟨1, 3, false⟩ #[7] hm).2 rfl
  refine ⟨hx, hm, hends.ends.mpr fun cell hcell => ?_, hstops.overflows fun h => ?_,
    (hadd 2 #[60] #[10] rfl).overflows fun h => ?_,
    ((hbroadcast 2 (-1) #[60] ⟨1, 1, false⟩ #[10] rfl).1 rfl).ends.mpr fun cell hcell => ?_⟩
  · rw [List.mem_singleton.mp hcell]
    exact ⟨by decide +kernel, by decide +kernel, by decide +kernel,
      fun h => absurd rfl h, fun h => absurd rfl h⟩
  · have hsecond := h 0 (List.mem_singleton_self 0) 1 (by decide)
    revert hsecond
    decide +kernel
  · have htotal := (h 0 (List.mem_singleton_self 0)).2
    revert htotal
    decide +kernel
  · rw [List.mem_singleton.mp hcell]
    exact ⟨by decide +kernel, by decide +kernel, by decide +kernel⟩

end Kernel

end DeviceTensor
