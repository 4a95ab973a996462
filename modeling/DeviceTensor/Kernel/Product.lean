import DeviceTensor.Kernel.Broadcast
import DeviceTensor.Grid.Extents
set_option autoImplicit false

/-!
# The matrix product kernel

The destination becomes `alpha * (a · b) + beta * c`.  Each element of the product is a sum from
zero over the shared dimension in order.  With a zero `beta` the old destination is not read, so
that whatever it held is discarded.

The wide floating point types leave the product to a library, which is handed addresses and strides.
The sizes are checked here; that the library keeps to the elements of the matrices is its contract,
`WideProduct`.
-/

namespace DeviceTensor.Kernel

variable {α : Type}

/-- Requires one operand of `size` elements to hold `rows × cols` elements. -/
def requireOperand (size rows cols : Nat) : Except Halt Unit := do
  let needed ← Size.mul rows cols
  if size < needed then throw (.refused (.matrixTooSmall size rows cols))

/-- Requires both operands and the destination to hold their matrices. -/
def requireProduct (x : Extents) (a b c : Nat) : Except Halt Unit := do
  requireOperand a x.rows x.inner
  requireOperand b x.inner x.cols
  requireOperand c x.rows x.cols

/-- Adds the `p`-th summand of element `(i, j)` of the product to a sum. -/
def addSummand (A : Arithmetic α) (x : Extents) (a b : Array α) (i j : Nat) (acc : α) (p : Nat) :
    Except Trap α := do
  let left ← Buffer.read a (← Extents.strided x.leftStrides i p)
  let right ← Buffer.read b (← Extents.strided x.rightStrides p j)
  let summand ← A.mul left right
  A.add acc summand

/-- Element `(i, j)` of the product. -/
def innerProduct (A : Arithmetic α) (x : Extents) (a b : Array α) (i j : Nat) : Except Trap α :=
  (List.range x.inner).foldlM (addSummand A x a b i j) A.zero

/-- Stores `alpha * (a · b) + beta * c`. -/
def product (A : Arithmetic α) (alpha : α) (a b : Array α) (beta : α) (x : Extents)
    (c : Array α) : Outcome α :=
  checked (requireProduct x a.size b.size c.size) c <|
    sweep (fun (i, j) c => do
      let acc ← innerProduct A x a b i j
      let place ← Extents.strided (x.cols, 1) i j
      let old ← Buffer.read c place
      let scaled ← A.mul alpha acc
      if A.isZero beta then
        return (place, scaled)
      else
        let kept ← A.mul beta old
        let new ← A.add scaled kept
        return (place, new)) (Grid.mk x.rows x.cols false).cells

/-! ## The product of a library -/

/-- A product of matrices as a library supplies it.  It is handed addresses, at which memory lies
without an end, and never learns how long a buffer is.  What it computes is its own business, as long
as it keeps its contract. -/
structure WideProduct (A : Arithmetic α) where
  /-- What lies at the places behind the address of the destination afterwards. -/
  run (alpha : α) (a b : Nat → α) (beta : α) (x : Extents) (c : Nat → α) : Nat → α
  /-- It writes to the places of elements of the result, and to no other ones. -/
  writes (alpha : α) (a b : Nat → α) (beta : α) (x : Extents) (c : Nat → α) (n : Nat) :
    (∀ i j, i < x.rows → j < x.cols → n ≠ i * x.cols + j) → run alpha a b beta x c n = c n
  /-- It reads the elements of the operands, in whatever order they are stored, and those of the
  destination only if `beta` is not zero.  The result depends on nothing else. -/
  reads (alpha beta : α) (x x' : Extents) (a a' b b' c c' : Nat → α) :
    x'.rows = x.rows → x'.inner = x.inner → x'.cols = x.cols →
    (∀ i p, i < x.rows → p < x.inner →
      a' (x'.leftGrid.offset i p) = a (x.leftGrid.offset i p)) →
    (∀ p j, p < x.inner → j < x.cols →
      b' (x'.rightGrid.offset p j) = b (x.rightGrid.offset p j)) →
    (A.isZero beta = false → ∀ i j, i < x.rows → j < x.cols →
      c' (i * x.cols + j) = c (i * x.cols + j)) →
    ∀ i j, i < x.rows → j < x.cols →
      run alpha a' b' beta x' c' (i * x.cols + j) = run alpha a b beta x c (i * x.cols + j)

/-- The memory that starts with a buffer.  Nobody knows what lies behind the end; here it is
`filler`. -/
def memoryFrom (filler : α) (xs : Array α) (n : Nat) : α := xs.getD n filler

namespace WideProduct

/-- The factors of the summands of element `(i, j)`, in order. -/
def factors (a b : Nat → α) (x : Extents) (i j : Nat) : List (α × α) :=
  (List.range x.inner).map fun p => (a (x.leftGrid.offset i p), b (x.rightGrid.offset p j))

/-- Element `(i, j)` of the plain product: `alpha * (a · b) + beta * c`, or `beta * c` alone if there
is nothing to sum. -/
def plainEntry (A : Arithmetic α) (alpha : α) (a b : Nat → α) (beta : α) (x : Extents)
    (c : Nat → α) (i j : Nat) : Except Trap α :=
  let old := c (i * x.cols + j)
  if x.inner = 0 then if A.isZero beta then pure A.zero else A.mul old beta
  else do
    let acc ← (factors a b x i j).foldlM (fun acc q => do
      let summand ← A.mul q.1 q.2
      A.add acc summand) A.zero
    let scaled ← A.mul alpha acc
    if A.isZero beta then
      return scaled
    else
      let kept ← A.mul beta old
      A.add scaled kept

/-- A product that adds up in order.  Programs are run with it where no other one is at hand. -/
def plain (A : Arithmetic α) : WideProduct A where
  run alpha a b beta x c n :=
    if n < x.rows * x.cols then
      match plainEntry A alpha a b beta x c (n / x.cols) (n % x.cols) with
      | .ok y => y
      | .error _ => A.zero
    else c n
  writes alpha a b beta x c n hn := by
    refine if_neg fun hlt => ?_
    have hcols : 0 < x.cols := Nat.pos_of_ne_zero fun h => by simp [h] at hlt
    refine hn (n / x.cols) (n % x.cols) ?_ (Nat.mod_lt n hcols) (Nat.div_add_mod' n x.cols).symm
    exact Nat.div_lt_of_lt_mul (Nat.mul_comm x.rows x.cols ▸ hlt)
  reads alpha beta x x' a a' b b' c c' hrows hinner hcols ha hb hc i j hi hj := by
    have hlt : i * x.cols + j < x.rows * x.cols :=
      Grid.offset_lt_size (g := ⟨x.rows, x.cols, false⟩) hi hj
    have hpos : 0 < x.cols := Nat.zero_lt_of_lt hj
    have hrow : (i * x.cols + j) / x.cols = i := by
      rw [Nat.add_comm, Nat.add_mul_div_right _ _ hpos, Nat.div_eq_of_lt hj, Nat.zero_add]
    have hcolumn : (i * x.cols + j) % x.cols = j := by
      rw [Nat.add_comm, Nat.add_mul_mod_self_right, Nat.mod_eq_of_lt hj]
    have hfactors : factors a' b' x' i j = factors a b x i j := by
      unfold factors
      rw [hinner]
      refine List.map_congr_left fun p hp => ?_
      have hp := List.mem_range.mp hp
      rw [ha i p hi hp, hb p j hp hj]
    have hentry : plainEntry A alpha a' b' beta x' c' i j = plainEntry A alpha a b beta x c i j := by
      unfold plainEntry
      rw [hfactors, hinner, hcols]
      cases hbeta : A.isZero beta with
      | true => rfl
      | false => rw [hc hbeta i j hi hj]
    simp only [hrows, hcols, if_pos hlt, hrow, hcolumn, hentry]

instance (A : Arithmetic α) : Inhabited (WideProduct A) := ⟨plain A⟩

end WideProduct

/-- Lets a library store `alpha * (a · b) + beta * c`. -/
def wideProduct (A : Arithmetic α) (P : WideProduct A := .plain A) (alpha : α) (a b : Array α)
    (beta : α) (x : Extents) (c : Array α) : Outcome α :=
  checked (requireProduct x a.size b.size c.size) c fun c =>
    let result := P.run alpha (memoryFrom A.zero a) (memoryFrom A.zero b) beta x
      (memoryFrom A.zero c)
    (Array.ofFn fun n : Fin c.size => result n, .ok ())

end DeviceTensor.Kernel
