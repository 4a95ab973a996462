import DeviceTensor.Proofs.Session.Product
import DeviceTensor.Proofs.Session.Transfer
import DeviceTensor.Proofs.Tensor.Mean
import DeviceTensor.Proofs.Tensor.Softmax
set_option autoImplicit false

/-!
# Means and softmax

On the host backend, the mean of integers is exact if the number of elements that are averaged is in
the range of their type, and softmax succeeds if the dimensions from its axis on can be multiplied
from the left.  The mean is refused and softmax traps if they are not, even where the result and all
sums are in range.
-/

namespace DeviceTensor.Session

open DeviceTensor.Except Kernel Tensor

variable {σ : Session} {t : Tensor}

/-- The registry of a session without probes has the host catalog for the host backend. -/
theorem Reachable.stocks (h : Reachable HostOnly σ) : σ.store.registry.Stocks .cpp := by
  have hsound : σ.Sound (fun r => r.Stocks .cpp) [] := by
    refine h.sound_of_keeps (Registry.stocks_registerCatalog .empty .cpp) fun c r hc hr => ?_
    cases c with
    | registerCatalog backend => exact hr.registerCatalog backend
    | registerProbe key p => exact hc.elim
    | _ => exact hr
  exact hsound.registry

/-- A device of the host backend provides the recipes of the catalog. -/
theorem Reachable.provides (h : Reachable HostOnly σ) {device : DeviceId}
    (hcpp : σ.store.backend device = .cpp) {d : ElemType} {op : Operation} {recipe : Recipe d}
    (hgemm : op ≠ .gemm) (hop : op ∈ Routine.operations d)
    (hrecipe : Recipe.ofOperation? d op = some recipe) : σ.store.Provides op device recipe := by
  refine Registry.Stocks.provides ?_ hgemm hop hrecipe
  rw [hcpp]
  exact h.stocks

/-- A device of the host backend sums lines. -/
theorem Reachable.sums (h : Reachable HostOnly σ) {device : DeviceId}
    (hcpp : σ.store.backend device = .cpp) (d : ElemType) (which : Summation) :
    σ.store.Provides which.op device (which.recipe : Recipe d) := by
  have hop : which.op ∈ Operation.general := by cases which <;> decide
  exact h.provides hcpp (by cases which <;> decide) (Routine.mem_operations_of_general hop d)
    (which.ofOperation?_op d)

/-- A device of the host backend divides by scalars. -/
theorem Reachable.divides (h : Reachable HostOnly σ) {device : DeviceId}
    (hcpp : σ.store.backend device = .cpp) (d : ElemType) :
    σ.store.Provides .divScalar device (.mapScalar (arithmetic d).div : Recipe d) :=
  h.provides hcpp (by decide) (Routine.mem_operations_of_general (by decide) d) rfl

/-! ## Means -/

/-- The mean of integers along an axis with at least one element in each line, if no sum from the
left leaves the range of the type and no memory is refused: it is the sum of each line divided by
the number of its elements, truncated toward zero, if that number is in the range of the type as
well.  If it is not, then the division is refused.  No memory is refused that is supplied to the
tensor and to the result. -/
theorem averages_are_truncated_means (h : Reachable HostOnly σ) (ht : t ∈ σ.tensors.values)
    (hd : t.dtype.IsInteger) (hcpp : σ.store.backend t.device = .cpp)
    (haddressable : (σ.store.device t.device).addressable = true) {axis length depth : Nat}
    {cell : Nat → Nat → Nat × Nat} (hlines : AxisLines t.shape axis length depth cell)
    (hdepth : 0 < depth)
    (hfits : ∀ k, k < length → LineFits (t.stored t.dtype σ.store) t.grid (cell k) depth) :
    let run := t.average axis σ.store
    (Word.Fits (8 * t.dtype.width) depth → ¬Refused run.1 → ∃ out, run.1 = .ok out ∧
      out.shape = [length] ∧ out.dtype = t.dtype ∧ out.transposed = false ∧ out.device = t.device ∧
      (out.stored t.dtype run.2).size = length ∧
      ∀ k, k < length → ∃ v, (out.stored t.dtype run.2)[k]? = some v ∧
        v.toInt = (lineSum (t.stored t.dtype σ.store) t.grid (cell k) depth).tdiv depth) ∧
    (¬Word.Fits (8 * t.dtype.width) depth → ¬Refused run.1 → run.1 = .error (.launch
      (.routineFailed ⟨t.dtype, .cpp, .divScalar⟩ (.castOutOfRange 0)))) ∧
    ((∀ b, t.block = some b → σ.store.Supplies b) →
      (σ.store.device t.device).Supplies (length * t.dtype.width) → ¬Refused run.1) := by
  intro run
  have ho := h.owned ht
  obtain ⟨b, hb⟩ := h.block ht hlines.ne_nil
  have hbytes := byteSize_of_axisLines hlines hdepth (ho.valid.filled b hb).small
  have hsums := h.sums hcpp t.dtype
  have hmean (hn : ¬Refused run.1) := average_exact ho hb haddressable hd hlines hbytes hsums hfits
    hn hdepth (h.divides hcpp t.dtype)
  refine ⟨fun hin hn => ?_, fun hout hn => ?_, fun hsupplies hresult => ?_⟩
  · obtain ⟨s₁, hrun, hholds⟩ := (hmean hn).1 hin
    have hstore : run.2 = s₁ := congrArg Prod.snd hrun
    rw [hstore]
    exact ⟨_, congrArg Prod.fst hrun, rfl, rfl, rfl, rfl, hholds.size, hholds.value⟩
  · rw [← hcpp]
    exact (hmean hn).2 hout
  · exact average_supplied ho hb haddressable hd hlines hbytes hsums hfits (hsupplies b hb) hresult

/-- Means of the columns of a transposed view: `-16 / 3` is truncated toward zero. -/
theorem average_of_view_truncates :
    ∃ (σ : Session) (t out : Tensor) (v : BitVec 8), (Reachable HostOnly σ ∧
        t ∈ σ.tensors.values ∧ t.dtype = .char ∧ t.transposed = true ∧
        σ.store.backend t.device = .cpp ∧ (σ.store.device t.device).addressable = true ∧
        AxisLines t.shape 0 2 3 (fun k p => (p, k)) ∧ ¬Refused (t.average 0 σ.store).1 ∧
        ∀ k, k < 2 → LineFits (t.stored .char σ.store) t.grid (fun p => (p, k)) 3) ∧
      (t.average 0 σ.store).1 = .ok out ∧ out.shape = [2] ∧
      (out.stored .char (t.average 0 σ.store).2)[1]? = some v ∧ v.toInt = -5 := by
  let program := [Command.ofElements "a" [2, 3] .char #[1, 2, 3, -4, -5, -7], .transpose "a" "v"]
  let σ := (run program (start [])).2
  let v : Tensor := ⟨[3, 2], .char, true, 0, some 0⟩
  have hprogram : ∀ c ∈ program, HostOnly c := by
    intro c hc
    simp only [program, List.mem_cons, List.not_mem_nil, or_false] at hc
    rcases hc with rfl | rfl <;> trivial
  have hσ : Reachable HostOnly σ := (reachable_start []).run hprogram
  obtain ⟨hvalues, hcpp, haddressable, hmade, hstored⟩ :
      σ.tensors.values = [v, ⟨[2, 3], .char, false, 0, some 0⟩] ∧
      σ.store.backend 0 = .cpp ∧ (σ.store.device 0).addressable = true ∧
      (v.average 0 σ.store).1 = .ok ⟨[2], .char, false, 0, some 1⟩ ∧
      v.stored .char σ.store = #[1, 2, 3, -4, -5, -7] := by decide +kernel
  clear_value σ
  have hv : v ∈ σ.tensors.values := hvalues ▸ List.mem_cons_self
  have hlines : AxisLines v.shape 0 2 3 fun k p => (p, k) := .columns 3 2
  have hfits : ∀ k, k < 2 → LineFits (v.stored .char σ.store) v.grid (fun p => (p, k)) 3 := by
    rw [hstored]
    have hall : ∀ k, k < 2 → ∀ p, p < 3 → Word.Fits 8
        (lineSum (w := 8) #[1, 2, 3, -4, -5, -7] ⟨3, 2, true⟩ (fun p => (p, k)) (p + 1)) := by
      decide +kernel
    exact hall
  have hn : ¬Refused (v.average 0 σ.store).1 := by
    rw [hmade]
    exact id
  obtain ⟨hmean, -⟩ := averages_are_truncated_means hσ hv (.inr rfl) hcpp haddressable hlines
    (by decide) hfits
  obtain ⟨out, hok, hshape, -, -, -, -, hvalue⟩ := hmean (by decide) hn
  obtain ⟨x, hx, hinteger⟩ := hvalue 1 (by decide)
  refine ⟨σ, v, out, x, ⟨hσ, hv, rfl, rfl, hcpp, haddressable, hlines, hn, hfits⟩, hok, hshape,
    hx, hinteger.trans ?_⟩
  have hsum : (lineSum (w := 8) #[1, 2, 3, -4, -5, -7] ⟨3, 2, true⟩ (fun p => (p, 1)) 3).tdiv 3 =
      -5 := by decide +kernel
  exact hstored ▸ hsum

/-- The mean of `128` zeros is refused, if their type ends at `127`. -/
theorem average_of_long_line_is_refused :
    ∃ (σ : Session) (t : Tensor), (Reachable HostOnly σ ∧ t ∈ σ.tensors.values ∧ t.dtype = .char ∧
        σ.store.backend t.device = .cpp ∧ (σ.store.device t.device).addressable = true ∧
        AxisLines t.shape 0 1 128 (fun _ p => (0, p)) ∧
        ∀ k, k < 1 → LineFits (t.stored .char σ.store) t.grid (fun p => (0, p)) 128) ∧
      (t.average 0 σ.store).1 =
        .error (.launch (.routineFailed ⟨.char, .cpp, .divScalar⟩ (.castOutOfRange 0))) := by
  let program := [Command.create "a" [128] "default" .char]
  let σ := (run program (start [])).2
  let a : Tensor := ⟨[128], .char, false, 0, some 0⟩
  have hprogram : ∀ c ∈ program, HostOnly c := by
    intro c hc
    obtain rfl := List.mem_singleton.mp hc
    trivial
  have hσ : Reachable HostOnly σ := (reachable_start []).run hprogram
  obtain ⟨hvalues, hcpp, haddressable, hunbound, hfault⟩ :
      σ.tensors.values = [a] ∧ σ.store.backend 0 = .cpp ∧
      (σ.store.device 0).addressable = true ∧ a.isBound σ.store = false ∧
      (a.average 0 σ.store).1 =
        .error (.launch (.routineFailed ⟨.char, .cpp, .divScalar⟩ (.castOutOfRange 0))) := by
    decide +kernel
  clear_value σ
  have ha : a ∈ σ.tensors.values := hvalues ▸ List.mem_cons_self
  have hlines : AxisLines a.shape 0 1 128 fun _ p => (0, p) := .vector 128
  have hzero (n : Nat) : lineSum (a.stored .char σ.store) a.grid (fun p => (0, p)) n = 0 := by
    rw [stored_of_unbound hunbound]
    refine Finset.sum_eq_zero fun p _ => ?_
    rw [Word.intAt, Array.getD_eq_getD_getElem?, Array.getElem?_replicate]
    split <;> rfl
  have hfits : ∀ k, k < 1 → LineFits (a.stored .char σ.store) a.grid (fun p => (0, p)) 128 := by
    intro k _ p _
    rw [hzero]
    decide
  exact ⟨σ, a, ⟨hσ, ha, rfl, hcpp, haddressable, hlines, hfits⟩, hfault⟩

/-! ## Softmax -/

/-- Softmax on the host backend.  If the dimensions from the axis on can be multiplied from the
left and no memory is refused, then it succeeds, and the result has the form of the tensor.  If they
cannot be multiplied, then it traps, and one of the dimensions before the axis is zero.  No memory
is refused where the device supplies as much as the tensor has. -/
theorem softmax_succeeds_or_overflows (h : Reachable HostOnly σ) (ht : t ∈ σ.tensors.values)
    (hd : t.dtype.isFloat = true) (hcpp : σ.store.backend t.device = .cpp)
    (haddressable : (σ.store.device t.device).addressable = true) (hsized : t.shape.Sized)
    (axis : Nat) (haxis : axis < t.rank) :
    let run := t.softmax axis σ.store
    ((∀ k, ((t.shape.drop axis).take k).prod < Size.limit) → ¬Refused run.1 →
      ∃ out, run.1 = .ok out ∧ out.shape = t.shape ∧ out.dtype = t.dtype ∧
        out.transposed = t.transposed ∧ out.device = t.device) ∧
    ((¬∀ k, ((t.shape.drop axis).take k).prod < Size.limit) →
      run.1 = .error (.trap (.overflow .mul)) ∧ 0 ∈ t.shape.take axis) ∧
    ((σ.store.device t.device).Supplies (t.byteSize σ.store) → ¬Refused run.1) := by
  intro run
  have hne : t.shape ≠ [] := List.ne_nil_of_length_pos (Nat.zero_lt_of_lt haxis)
  obtain ⟨b, hb⟩ := h.block ht hne
  obtain ⟨F, hF⟩ := exists_analysis hd
  have hop : Operation.softMax ∈ Routine.operations t.dtype := by
    unfold Routine.operations
    rw [if_pos hd]
    decide
  have hrecipe : Recipe.ofOperation? t.dtype .softMax = some (.softmax F) :=
    Option.map_eq_some_iff.mpr ⟨F, hF, rfl⟩
  obtain ⟨hsucceeds, hends⟩ := softmax_exact (h.owned ht) hb haddressable hsized haxis
    (arithmetic_total hd) (h.provides hcpp (by decide) hop hrecipe)
  refine ⟨fun hdrop hn => ?_, hends⟩
  obtain ⟨s₁, hrun⟩ := hsucceeds hdrop hn
  exact ⟨_, congrArg Prod.fst hrun, rfl, rfl, rfl, rfl⟩

/-- Softmax of a transposed view has its form. -/
theorem softmax_of_view_succeeds :
    ∃ (σ : Session) (t out : Tensor), (Reachable HostOnly σ ∧ t ∈ σ.tensors.values ∧
        t.dtype = .float16 ∧ t.transposed = true ∧ σ.store.backend t.device = .cpp ∧
        (σ.store.device t.device).addressable = true ∧ t.shape.Sized ∧ 1 < t.rank) ∧
      (t.softmax 1 σ.store).1 = .ok out ∧ out.shape = [0, 2] ∧ out.transposed = true := by
  let program := [Command.create "a" [2, 0] "default" .float16, .transpose "a" "v"]
  let σ := (run program (start [])).2
  let v : Tensor := ⟨[0, 2], .float16, true, 0, some 0⟩
  have hprogram : ∀ c ∈ program, HostOnly c := by
    intro c hc
    simp only [program, List.mem_cons, List.not_mem_nil, or_false] at hc
    rcases hc with rfl | rfl <;> trivial
  have hσ : Reachable HostOnly σ := (reachable_start []).run hprogram
  obtain ⟨hvalues, hcpp, haddressable, hmade⟩ :
      σ.tensors.values = [v, ⟨[2, 0], .float16, false, 0, some 0⟩] ∧
      σ.store.backend 0 = .cpp ∧ (σ.store.device 0).addressable = true ∧
      (v.softmax 1 σ.store).1 = .ok ⟨[0, 2], .float16, true, 0, some 1⟩ := by decide +kernel
  clear_value σ
  have hv : v ∈ σ.tensors.values := hvalues ▸ List.mem_cons_self
  have hsized : v.shape.Sized := by decide
  have hn : ¬Refused (v.softmax 1 σ.store).1 := by
    rw [hmade]
    exact id
  obtain ⟨hsucceeds, -⟩ := softmax_succeeds_or_overflows hσ hv rfl hcpp haddressable hsized 1
    (by decide)
  obtain ⟨out, hok, hshape, -, hflag, -⟩ := hsucceeds (Size.product_iff.mp ⟨2, rfl⟩) hn
  exact ⟨σ, v, out, ⟨hσ, hv, rfl, rfl, hcpp, haddressable, hsized, by decide⟩, hok, hshape, hflag⟩

/-- Softmax of a tensor without elements traps: its dimensions can be multiplied from the left, as
the first of them is zero, but not the others alone. -/
theorem softmax_of_empty_tensor_overflows :
    ∃ (σ : Session) (t : Tensor), (Reachable HostOnly σ ∧ t ∈ σ.tensors.values ∧
        t.dtype = .float32 ∧ t.shape = [0, 2 ^ 40, 2 ^ 40] ∧ t.shape.Sized ∧
        σ.store.backend t.device = .cpp ∧ (σ.store.device t.device).addressable = true) ∧
      (t.softmax 1 σ.store).1 = .error (.trap (.overflow .mul)) := by
  let program := [Command.create "a" [0, 2 ^ 40, 2 ^ 40] "default" .float32]
  let σ := (run program (start [])).2
  let a : Tensor := ⟨[0, 2 ^ 40, 2 ^ 40], .float32, false, 0, some 0⟩
  have hprogram : ∀ c ∈ program, HostOnly c := by
    intro c hc
    obtain rfl := List.mem_singleton.mp hc
    trivial
  have hσ : Reachable HostOnly σ := (reachable_start []).run hprogram
  obtain ⟨hvalues, hsized, hcpp, haddressable, htraps⟩ :
      σ.tensors.values = [a] ∧ a.shape.Sized ∧ σ.store.backend 0 = .cpp ∧
      (σ.store.device 0).addressable = true ∧
      (a.softmax 1 σ.store).1 = .error (.trap (.overflow .mul)) := by decide +kernel
  have ha : a ∈ σ.tensors.values := hvalues ▸ List.mem_cons_self
  exact ⟨σ, a, ⟨hσ, ha, rfl, rfl, hsized, hcpp, haddressable⟩, htraps⟩

end DeviceTensor.Session
