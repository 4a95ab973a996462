import DeviceTensor.Proofs.Session.Transparency
import DeviceTensor.Proofs.Tensor.Exchange
set_option autoImplicit false

/-!
# Laws of integer products

A product with a vector is the product of matrices: a vector is a row on the left and a column on the
right.  The product of the transposes in the other order is the transpose of the product, and both
overflow together; but it is made on the device of the other operand, which may refuse its memory.
-/

namespace DeviceTensor.Session

open DeviceTensor.Except Tensor

/-- Shapes of two operands whose inner dimensions agree, the shape of their product, and the
dimensions of the matrices that are multiplied: `m` by `k` and `k` by `n`. -/
inductive Conform : Shape → Shape → Shape → Nat → Nat → Nat → Prop where
  | vectors (k : Nat) : Conform [k] [k] [1] 1 k 1
  | vectorMatrix (k n : Nat) : Conform [k] [k, n] [n] 1 k n
  | matrixVector (m k : Nat) : Conform [m, k] [k] [m] m k 1
  | matrices (m k n : Nat) : Conform [m, k] [k, n] [m, n] m k n

variable {σ : Session} {a b : Tensor} {shape : Shape} {m k n : Nat}

theorem productExtents_of_conform (h : Conform a.shape b.shape shape m k n) :
    productExtents a b = .ok (shape, ⟨m, n, k, a.transposedMatrix, b.transposedMatrix⟩) := by
  refine productExtents_eq_ok_iff.mpr ⟨m, n, k, ?_, rfl⟩
  unfold productDims
  generalize a.shape = left at h
  generalize b.shape = right at h
  cases h <;> rfl

theorem Conform.ne_nil {left right : Shape} (h : Conform left right shape m k n) :
    left ≠ [] ∧ right ≠ [] := by
  cases h <;> exact ⟨nofun, nofun⟩

/-- A tensor of a reachable session has a block, if it has dimensions. -/
theorem Reachable.block {allowed : Command → Prop} (h : Reachable allowed σ) {t : Tensor}
    (ht : t ∈ σ.tensors.values) (hs : t.shape ≠ []) : ∃ b, t.block = some b := by
  cases hb : t.block with
  | some b => exact ⟨b, rfl⟩
  | none => exact absurd ((h.owned ht).valid.bare hb).1 hs

/-- A product of integers has the elements of the product of its operands as matrices, and fails as
that fails.  The product of the transposes in the other order is the transpose of the product; if
both products are refused memory, or none of them is, they succeed together and overflow together.
None is refused memory if it is supplied to the operands and to the results. -/
theorem integer_product_laws {allowed : Command → Prop} (h : Reachable allowed σ)
    (ha : a ∈ σ.tensors.values) (hb : b ∈ σ.tensors.values) (hkind : SameKind a b σ.store)
    (hd : a.dtype.IsInteger) (hhost : σ.store.ProductOnHost a.dtype a.device)
    (hsized : a.shape.Sized) (hsized' : b.shape.Sized)
    (hconform : Conform a.shape b.shape shape m k n) :
    let direct := a.product b σ.store
    let exchanged := a.exchangedProduct b σ.store
    SameElements shape [m, n] direct (a.matrixProduct b σ.store) ∧
      (a.shape = [m, k] → b.shape = [k, n] →
        (∀ c c', direct.1 = .ok c → exchanged.1 = .ok c' →
          Transposes m n a.dtype c direct.2 c' exchanged.2) ∧
        ((Refused direct.1 ↔ Refused exchanged.1) →
          ((∃ c, direct.1 = .ok c) ↔ ∃ c', exchanged.1 = .ok c') ∧
          ((∃ f, direct.1 = .error f ∧ f.Overflows) ↔
            ∃ f, exchanged.1 = .error f ∧ f.Overflows)) ∧
        ((∀ k, a.block = some k ∨ b.block = some k → σ.store.Supplies k) →
          (σ.store.device a.device).Supplies (m * n * a.dtype.width) →
          (σ.store.device b.device).Supplies (m * n * a.dtype.width) →
          ¬Refused direct.1 ∧ ¬Refused exchanged.1)) := by
  intro direct exchanged
  have hown := h.owned ha
  have hown' := h.owned hb
  obtain ⟨left, hleft⟩ := h.block ha hconform.ne_nil.1
  obtain ⟨right, hright⟩ := h.block hb hconform.ne_nil.2
  refine ⟨?_, fun hs hs' => ?_⟩
  · exact product_of_matrices ⟨hkind, productExtents_of_conform hconform, hleft, hright⟩ hown hown'
      hsized hsized'
  · have hm : m < Size.limit := hsized m (by rw [hs]; simp)
    have hn : n < Size.limit := hsized' n (by rw [hs']; simp)
    refine ⟨fun c c' hc hc' => ?_, fun hrefused => ?_, fun hsupplies hresult hresult' => ?_⟩
    · exact transposes_of_products hs hs' hkind hleft hright hm hn hown hown' hd hhost hc hc'
    · exact products_agree hs hs' hkind hleft hright hm hn hown hown' hd hhost hrefused
    · exact supplied_products hs hs' hkind hleft hright hm hn hown hown'
        (hsupplies left (.inl hleft)) (hsupplies right (.inr hright)) hresult hresult'

/-- A transposed view times a matrix, and the transposes in the other order. -/
theorem product_laws_transposed_view :
    ∃ (σ : Session) (a b : Tensor), (Reachable HostOnly σ ∧ a ∈ σ.tensors.values ∧
        b ∈ σ.tensors.values ∧ SameKind a b σ.store ∧ a.dtype.IsInteger ∧
        σ.store.ProductOnHost a.dtype a.device ∧ a.shape.Sized ∧ b.shape.Sized ∧
        a.transposed = true) ∧
      ∃ c c', (a.product b σ.store).1 = .ok c ∧ (a.exchangedProduct b σ.store).1 = .ok c' ∧
        c.stored .int32 (a.product b σ.store).2 = #[13, 18, 17, 24, 21, 30] ∧
        Transposes 3 2 .int32 c (a.product b σ.store).2 c' (a.exchangedProduct b σ.store).2 := by
  let program := [Command.ofElements "m" [2, 3] .int32 #[1, 2, 3, 4, 5, 6], .transpose "m" "v",
    .ofElements "n" [2, 2] .int32 #[1, 2, 3, 4]]
  let σ := (run program (start [])).2
  let v : Tensor := ⟨[3, 2], .int32, true, 0, some 0⟩
  let n : Tensor := ⟨[2, 2], .int32, false, 0, some 1⟩
  have hprogram : ∀ c ∈ program, HostOnly c := by
    intro c hc
    simp only [program, List.mem_cons, List.not_mem_nil, or_false] at hc
    rcases hc with rfl | rfl | rfl <;> trivial
  have hσ : Reachable HostOnly σ := (reachable_start []).run hprogram
  obtain ⟨hvalues, hok, hok', hstored⟩ :
      σ.tensors.values = [n, v, ⟨[2, 3], .int32, false, 0, some 0⟩] ∧
      (v.product n σ.store).1 = .ok ⟨[3, 2], .int32, false, 0, some 2⟩ ∧
      (v.exchangedProduct n σ.store).1 = .ok ⟨[2, 3], .int32, false, 0, some 2⟩ ∧
      (⟨[3, 2], .int32, false, 0, some 2⟩ : Tensor).stored .int32 (v.product n σ.store).2 =
        #[13, 18, 17, 24, 21, 30] := by decide +kernel
  clear_value σ
  have hv : v ∈ σ.tensors.values := hvalues ▸ List.mem_cons_of_mem n List.mem_cons_self
  have hn : n ∈ σ.tensors.values := hvalues ▸ List.mem_cons_self
  have hhost : σ.store.ProductOnHost .int32 0 := hσ.onHost.registry.product (.inl rfl) 0
  have hsized : v.shape.Sized := by decide
  have hsized' : n.shape.Sized := by decide
  obtain ⟨-, hlaw⟩ := integer_product_laws hσ hv hn ⟨rfl, rfl⟩ (.inl rfl) hhost hsized hsized'
    (.matrices 3 2 2)
  obtain ⟨htransposes, -⟩ := hlaw rfl rfl
  exact ⟨σ, v, n, ⟨hσ, hv, hn, ⟨rfl, rfl⟩, .inl rfl, hhost, hsized, hsized', rfl⟩, _, _, hok, hok',
    hstored, htransposes _ _ hok hok'⟩

/-- The device of the second operand may refuse the memory of the result that the device of the first
one grants: then only the direct product succeeds, and only the direct product overflows. -/
theorem product_granted_on_one_device :
    ∃ (σ : Session) (a b big : Tensor), (Reachable HostOnly σ ∧ a ∈ σ.tensors.values ∧
        b ∈ σ.tensors.values ∧ big ∈ σ.tensors.values ∧ SameKind a b σ.store ∧
        SameKind big b σ.store ∧ a.shape = [2, 1] ∧ big.shape = [2, 1] ∧ b.shape = [1, 2] ∧
        a.dtype = .int32) ∧
      ((∃ c, (a.product b σ.store).1 = .ok c) ∧ ¬∃ c, (a.exchangedProduct b σ.store).1 = .ok c) ∧
      (∃ f, (big.product b σ.store).1 = .error f ∧ f.Overflows) ∧
      ¬∃ f, (big.exchangedProduct b σ.store).1 = .error f ∧ f.Overflows := by
  let specs := [DeviceSpec.host "small" none (some 8)]
  let program := [Command.ofElements "a" [2, 1] .int32 #[1, 2],
    .ofElements "big" [2, 1] .int32 #[2147483647, 1],
    .create "b" [1, 2] "small" .int32, .upload "b" .int32 #[3, 4] 0]
  let σ := (run program (start specs)).2
  let a : Tensor := ⟨[2, 1], .int32, false, 0, some 0⟩
  let big : Tensor := ⟨[2, 1], .int32, false, 0, some 1⟩
  let b : Tensor := ⟨[1, 2], .int32, false, 1, some 2⟩
  have hprogram : ∀ c ∈ program, HostOnly c := by
    intro c hc
    simp only [program, List.mem_cons, List.not_mem_nil, or_false] at hc
    rcases hc with rfl | rfl | rfl | rfl <;> trivial
  have hσ : Reachable HostOnly σ := (reachable_start specs).run hprogram
  let refusal := Fault.allocationFailed 16 .cpp "small" (.outOfMemory 16)
  obtain ⟨hvalues, hbackend, hok, hrefused, hoverflow, hrefused'⟩ :
      σ.tensors.values = [b, big, a] ∧ σ.store.backend 0 = σ.store.backend 1 ∧
      (a.product b σ.store).1 = .ok ⟨[2, 2], .int32, false, 0, some 3⟩ ∧
      (a.exchangedProduct b σ.store).1 = .error refusal ∧
      (big.product b σ.store).1 = .error (.trap (.overflow .mul)) ∧
      (big.exchangedProduct b σ.store).1 = .error refusal := by decide +kernel
  clear_value σ
  have hmembers : a ∈ σ.tensors.values ∧ b ∈ σ.tensors.values ∧ big ∈ σ.tensors.values := by
    simp [hvalues]
  refine ⟨σ, a, b, big, ⟨hσ, hmembers.1, hmembers.2.1, hmembers.2.2, ⟨rfl, hbackend⟩,
    ⟨rfl, hbackend⟩, rfl, rfl, rfl, rfl⟩, ⟨⟨_, hok⟩, ?_⟩, ⟨_, hoverflow, .mul, rfl⟩, ?_⟩
  · rintro ⟨c, hc⟩
    cases hrefused.symm.trans hc
  · rintro ⟨f, hf, op, rfl⟩
    have hfault : refusal = .trap (.overflow op) := Except.error.inj (hrefused'.symm.trans hf)
    simp [refusal] at hfault

end DeviceTensor.Session
