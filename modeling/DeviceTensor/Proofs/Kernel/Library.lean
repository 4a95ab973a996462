import DeviceTensor.Proofs.Kernel.Product
set_option autoImplicit false

/-!
# What a library sees of a product

A library that multiplies matrices is handed addresses, and its contract confines it to the places of
the elements of three matrices.  A buffer that passes the check of its size holds all of these places.
Nothing that lies behind a buffer is read or written then, whatever it is, and the result is made of
the elements of the matrices alone.
-/

namespace DeviceTensor.Kernel

open DeviceTensor.Except

variable {α : Type}

/-! ## Places -/

/-- The places that a product opens to its library lie in buffers of these sizes. -/
structure Inside (x : Extents) (a b c : Nat) : Prop where
  left : ∀ i p, i < x.rows → p < x.inner → x.leftGrid.offset i p < a
  right : ∀ p j, p < x.inner → j < x.cols → x.rightGrid.offset p j < b
  result : ∀ i j, i < x.rows → j < x.cols → i * x.cols + j < c

theorem Inside.of_le {x : Extents} {a b c : Nat} (ha : x.rows * x.inner ≤ a)
    (hb : x.inner * x.cols ≤ b) (hc : x.rows * x.cols ≤ c) : Inside x a b c where
  left _ _ hi hp := Nat.lt_of_lt_of_le (Grid.offset_lt_size (g := x.leftGrid) hi hp) ha
  right _ _ hp hj := Nat.lt_of_lt_of_le (Grid.offset_lt_size (g := x.rightGrid) hp hj) hb
  result _ _ hi hj := Nat.lt_of_lt_of_le (Grid.offset_lt_size (g := resultGrid x) hi hj) hc

theorem HoldsProduct.inside {x : Extents} {a b c : Array α} (h : HoldsProduct x a b c) :
    Inside x a.size b.size c.size := .of_le h.left h.right h.result

/-- The memory starts with the elements of a buffer. -/
def StartsWith (m : Nat → α) (xs : Array α) : Prop := ∀ n, n < xs.size → xs[n]? = some (m n)

theorem memoryFrom_startsWith (filler : α) (xs : Array α) :
    StartsWith (memoryFrom filler xs) xs := by
  intro n hn
  simp [memoryFrom, hn]

/-- Memories that start with the same buffer hold the same at its places. -/
theorem StartsWith.eq {m m' : Nat → α} {xs : Array α} (h : StartsWith m xs)
    (h' : StartsWith m' xs) {n : Nat} (hn : n < xs.size) : m' n = m n :=
  Option.some.inj ((h' n hn).symm.trans (h n hn))

/-! ## Results -/

namespace WideProduct

variable {A : Arithmetic α} (P : WideProduct A) (alpha beta : α) {x x' : Extents}
  {a a' b b' c c' : Nat → α}

/-- Where the same is seen of the matrices, the same lies at every place afterwards that held the
same or belongs to the result. -/
theorem run_eq (hrows : x'.rows = x.rows) (hinner : x'.inner = x.inner) (hcols : x'.cols = x.cols)
    (ha : ∀ i p, i < x.rows → p < x.inner →
      a' (x'.leftGrid.offset i p) = a (x.leftGrid.offset i p))
    (hb : ∀ p j, p < x.inner → j < x.cols →
      b' (x'.rightGrid.offset p j) = b (x.rightGrid.offset p j))
    (hc : A.isZero beta = false → ∀ i j, i < x.rows → j < x.cols →
      c' (i * x.cols + j) = c (i * x.cols + j)) {n : Nat}
    (hn : n < x.rows * x.cols ∨ c' n = c n) :
    P.run alpha a' b' beta x' c' n = P.run alpha a b beta x c n := by
  by_cases hlt : n < x.rows * x.cols
  · obtain ⟨i, j, hi, hj, rfl⟩ := Grid.exists_offset_eq (g := resultGrid x) hlt
    exact P.reads alpha beta x x' a a' b b' c c' hrows hinner hcols ha hb hc i j hi hj
  · have houtside : ∀ i j, i < x.rows → j < x.cols → n ≠ i * x.cols + j := by
      rintro i j hi hj rfl
      exact hlt (Grid.offset_lt_size (g := resultGrid x) hi hj)
    have houtside' : ∀ i j, i < x'.rows → j < x'.cols → n ≠ i * x'.cols + j := by
      rw [hrows, hcols]
      exact houtside
    rw [P.writes alpha a' b' beta x' c' n houtside', P.writes alpha a b beta x c n houtside]
    exact hn.resolve_left hlt

end WideProduct

section

variable {A : Arithmetic α} (P : WideProduct A) (alpha beta : α) {x : Extents} {a b c : Array α}

theorem wideProduct_of_require (h : requireProduct x a.size b.size c.size = .ok ()) :
    wideProduct A P alpha a b beta x c =
      (Array.ofFn fun n : Fin c.size => P.run alpha (memoryFrom A.zero a) (memoryFrom A.zero b) beta x
        (memoryFrom A.zero c) n, .ok ()) := by
  unfold wideProduct
  rw [h]
  rfl

/-- A product that is left to the library keeps to its buffers.  The library never learns where they
end: their elements are at the start of memories that go on. -/
structure WideProduct.KeepsTo (P : WideProduct A) (alpha beta : α) (x : Extents)
    (a b c : Array α) : Prop where
  /-- Every place that the contract opens to the library lies in a buffer. -/
  inside : Inside x a.size b.size c.size
  /-- Whatever lies behind the buffers, the result is the same. -/
  result : ∀ left right dst, StartsWith left a → StartsWith right b → StartsWith dst c →
    StartsWith (P.run alpha left right beta x dst) (wideProduct A P alpha a b beta x c).1
  /-- Whatever lies behind the destination stays. -/
  behind : ∀ left right dst n, c.size ≤ n → P.run alpha left right beta x dst n = dst n

theorem HoldsProduct.keepsTo (h : HoldsProduct x a b c) : P.KeepsTo alpha beta x a b c where
  inside := h.inside
  result left right dst ha hb hc n hn := by
    rw [wideProduct_of_require P alpha beta (requireProduct_of_holds h)] at hn ⊢
    have hlt : n < c.size := by simpa using hn
    rw [Array.getElem?_ofFn, dif_pos hlt]
    refine congrArg some (P.run_eq alpha beta rfl rfl rfl ?_ ?_ ?_ ?_)
    · exact fun i p hi hp => ha.eq (memoryFrom_startsWith _ _) (h.inside.left i p hi hp)
    · exact fun p j hp hj => hb.eq (memoryFrom_startsWith _ _) (h.inside.right p j hp hj)
    · exact fun _ i j hi hj => hc.eq (memoryFrom_startsWith _ _) (h.inside.result i j hi hj)
    · exact .inr (hc.eq (memoryFrom_startsWith _ _) hlt)
  behind left right dst n hn := by
    refine P.writes alpha left right beta x dst n ?_
    rintro i j hi hj rfl
    exact absurd (h.inside.result i j hi hj) (Nat.not_lt.mpr hn)

end

end DeviceTensor.Kernel
