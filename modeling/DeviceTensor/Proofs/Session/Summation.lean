import DeviceTensor.Proofs.Session.Reduction
import DeviceTensor.Proofs.Tensor.Summation
set_option autoImplicit false

/-!
# Ways to sum a tensor

The sums along an axis of a matrix, of its rows or columns and of the columns or rows of its
transpose agree on the host backend: they add the same elements in the same order, so that they also
trap alike.  A vector is a single column for one of them and a single row for the other.
-/

namespace DeviceTensor.Session

open DeviceTensor.Except Tensor

variable {σ : Session} {t : Tensor}

/-- Along an axis of a matrix its rows or its columns are summed, in the matrix itself as in its
transpose, where the same sums are those of the other kind: both fail with the same fault, or both
have results of the same shape with the same elements.  The sum of a vector along its axis is that
of its single row, and the sums of its columns are its integers. -/
theorem sums_agree (h : Reachable HostOnly σ) (ht : t ∈ σ.tensors.values)
    (hcpp : σ.store.backend t.device = .cpp) :
    (∀ rows cols, t.shape = [rows, cols] → ∀ which : Summation,
      t.sumAxis which.axis σ.store = t.sums which σ.store ∧
      SameElements [which.length rows cols] [which.length rows cols] (t.sums which σ.store)
        (sumsOfTranspose which.exchanged t σ.store) ∧
      sumAxisOfTranspose which.exchanged.axis t σ.store =
        sumsOfTranspose which.exchanged t σ.store) ∧
    ∀ n, t.shape = [n] →
      SameElements [1] [1] (t.sumAxis 0 σ.store) (t.sums .columns σ.store) ∧
      (t.dtype.IsInteger →
        let run := t.sums .rows σ.store
        ((∃ out, run.1 = .ok out) ↔
          (σ.store.device t.device).addressable = true ∧ ¬Refused run.1) ∧
        ∀ out, run.1 = .ok out → out.shape = [n] ∧ out.dtype = t.dtype ∧
          out.transposed = false ∧ out.stored t.dtype run.2 = t.stored t.dtype σ.store) := by
  have ho := h.owned ht
  have hp := h.sums hcpp t.dtype
  refine ⟨fun rows cols hs which => ?_, fun n hs => ?_⟩
  · obtain ⟨b, hb⟩ := h.block ht (hs ▸ List.cons_ne_nil _ _)
    exact ⟨congrFun (sumAxis_of_matrix hs which) σ.store, sums_exchanged hs ho hb hp which,
      sumAxisOfTranspose_eq hs hb which.exchanged⟩
  · obtain ⟨b, hb⟩ := h.block ht (hs ▸ List.cons_ne_nil _ _)
    exact ⟨sumAxis_of_vector_same hs ho hb hp, sums_rows_of_vector hs ho hb hp⟩

/-- The sums of the rows of a transposed view, and the integers of a vector. -/
theorem sums_of_view_agree :
    ∃ (σ : Session) (t v : Tensor), (Reachable HostOnly σ ∧ t ∈ σ.tensors.values ∧
        v ∈ σ.tensors.values ∧ σ.store.backend t.device = .cpp ∧ σ.store.backend v.device = .cpp ∧
        t.shape = [3, 2] ∧ t.transposed = true ∧ v.shape = [3] ∧ v.dtype.IsInteger ∧
        (σ.store.device v.device).addressable = true) ∧
      (∃ c c', (t.sums .rows σ.store).1 = .ok c ∧
        (sumsOfTranspose .columns t σ.store).1 = .ok c' ∧
        SameResult [2] [2] c (t.sums .rows σ.store).2 c' (sumsOfTranspose .columns t σ.store).2 ∧
        c.stored .char (t.sums .rows σ.store).2 = #[6, -16]) ∧
      ∃ out, (v.sums .rows σ.store).1 = .ok out ∧ out.shape = [3] ∧
        out.stored v.dtype (v.sums .rows σ.store).2 = v.stored v.dtype σ.store := by
  let program := [Command.ofElements "a" [2, 3] .char #[1, 2, 3, -4, -5, -7], .transpose "a" "t",
    .ofElements "v" [3] .int32 #[4, -5, 6]]
  let σ := (run program (start [])).2
  let t : Tensor := ⟨[3, 2], .char, true, 0, some 0⟩
  let v : Tensor := ⟨[3], .int32, false, 0, some 1⟩
  let c : Tensor := ⟨[2], .char, false, 0, some 2⟩
  have hprogram : ∀ c ∈ program, HostOnly c := by
    intro c hc
    simp only [program, List.mem_cons, List.not_mem_nil, or_false] at hc
    rcases hc with rfl | rfl | rfl <;> trivial
  have hσ : Reachable HostOnly σ := (reachable_start []).run hprogram
  obtain ⟨hvalues, hcpp, haddressable, hok, hcopy, hstored⟩ :
      σ.tensors.values = [v, t, ⟨[2, 3], .char, false, 0, some 0⟩] ∧
      σ.store.backend 0 = .cpp ∧ (σ.store.device 0).addressable = true ∧
      (t.sums .rows σ.store).1 = .ok c ∧
      (v.sums .rows σ.store).1 = .ok ⟨[3], .int32, false, 0, some 2⟩ ∧
      c.stored .char (t.sums .rows σ.store).2 = #[6, -16] := by decide +kernel
  clear_value σ
  have ht : t ∈ σ.tensors.values := hvalues ▸ List.mem_cons_of_mem v List.mem_cons_self
  have hv : v ∈ σ.tensors.values := hvalues ▸ List.mem_cons_self
  obtain ⟨-, hsame, -⟩ := (sums_agree hσ ht hcpp).1 3 2 rfl .rows
  obtain ⟨-, hvector⟩ := (sums_agree hσ hv hcpp).2 3 rfl
  obtain ⟨-, hcopies⟩ := hvector (.inl rfl)
  obtain ⟨hshape, -, -, hcopied⟩ := hcopies _ hcopy
  refine ⟨σ, t, v, ⟨hσ, ht, hv, hcpp, hcpp, rfl, rfl, rfl, .inl rfl, haddressable⟩, ?_,
    _, hcopy, hshape, hcopied⟩
  rcases hsame.ends with ⟨_, c', hc, hc', hresult⟩ | ⟨_, _, hfault, -⟩
  · cases hok.symm.trans hc
    exact ⟨c, c', hok, hc', hresult, hstored⟩
  · cases hok.symm.trans hfault

end DeviceTensor.Session
