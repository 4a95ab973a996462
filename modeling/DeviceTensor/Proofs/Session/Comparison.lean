import DeviceTensor.Proofs.Session.Transparency
import DeviceTensor.Proofs.Tensor.Mapping
set_option autoImplicit false

/-!
# Comparisons of integers with a number

The number that integer tensors are compared with is cast to their element type first.  So their
elements are compared with its integer part: those that are equal to the integer part of a fraction
are taken to be equal to the fraction, and all others are compared as the numbers are.
-/

namespace DeviceTensor

/-! ## Comparisons -/

/-- A comparison of elements with a scalar. -/
inductive Comparison where
  | lt
  | le
  | gt
  | ge
  deriving DecidableEq, Repr

namespace Comparison

/-- The operation that compares. -/
def op : Comparison → Operation
  | .lt => .lt
  | .le => .le
  | .gt => .gt
  | .ge => .ge

/-- The comparison that holds where this one does not. -/
def opposite : Comparison → Comparison
  | .lt => .ge
  | .le => .gt
  | .gt => .le
  | .ge => .lt

/-- The comparison of two numbers. -/
def Holds {α : Type} [LinearOrder α] (c : Comparison) (x y : α) : Prop :=
  match c with
  | .lt => x < y
  | .le => x ≤ y
  | .gt => y < x
  | .ge => y ≤ x

instance {α : Type} [LinearOrder α] (c : Comparison) (x y : α) : Decidable (c.Holds x y) := by
  cases c <;> (unfold Holds; infer_instance)

/-- The comparison of two elements. -/
def test {α : Type} (c : Comparison) (A : Arithmetic α) (x y : α) : Bool :=
  match c with
  | .lt => A.lt x y
  | .le => A.le x y
  | .gt => A.lt y x
  | .ge => A.le y x

theorem opposite_holds_iff {α : Type} [LinearOrder α] (c : Comparison) (x y : α) :
    c.opposite.Holds x y ↔ ¬c.Holds x y := by
  cases c with
  | lt => exact not_lt.symm
  | le => exact not_le.symm
  | gt => exact not_lt.symm
  | ge => exact not_le.symm

/-- An integer compares with the integer part of a number as with the number, unless it is the
integer part of a fraction. -/
theorem holds_integerPart_iff (c : Comparison) {n : ℤ} {q : ℚ}
    (h : n = integerPart q → (n : ℚ) = q) :
    c.Holds n (integerPart q) ↔ c.Holds (n : ℚ) q := by
  by_cases hn : n = integerPart q
  · have hq := h hn
    cases c with
    | lt => exact iff_of_false hn.not_lt hq.not_lt
    | le => exact iff_of_true hn.le hq.le
    | gt => exact iff_of_false hn.not_gt hq.not_gt
    | ge => exact iff_of_true hn.ge hq.ge
  · cases c with
    | lt => exact lt_integerPart_iff hn
    | le => exact not_lt.symm.trans ((integerPart_lt_iff hn).not.trans not_lt)
    | gt => exact integerPart_lt_iff hn
    | ge => exact not_lt.symm.trans ((lt_integerPart_iff hn).not.trans not_lt)

theorem ofOperation?_op (d : ElemType) (c : Comparison) :
    Recipe.ofOperation? d c.op =
      some (.mapScalar fun x v => .ok ((arithmetic d).ofBool (c.test (arithmetic d) x v))) := by
  cases c <;> rfl

theorem op_mem (c : Comparison) : c.op ∈ Operation.pointwise := by
  cases c <;> decide

/-- On integers, the result is one where the comparison holds, and zero elsewhere. -/
theorem toInt_ofBool_test {d : ElemType} (hd : d.IsInteger) (c : Comparison) (x v : Elem d) :
    ((arithmetic d).ofBool (c.test (arithmetic d) x v)).toInt =
      if c.Holds x.toInt v.toInt then 1 else 0 := by
  have hbool (hit : Bool) : ((arithmetic d).ofBool hit).toInt = if hit then 1 else 0 := by
    rcases hd with rfl | rfl
    · cases hit <;> decide
    · cases hit <;> decide
  rw [hbool, arithmetic_of_isInteger hd]
  cases c <;> exact if_congr decide_eq_true_iff rfl rfl

end Comparison

namespace Tensor

variable {t out : Tensor} {s s₁ : Store}

/-- A comparison that succeeds compares with the integer part of its scalar. -/
theorem map_comparison (hhost : s.registry.OnHost) (ho : t.Owned s) (hd : t.dtype.IsInteger)
    {c : Comparison} {x : Double} (h : t.map c.op x s = (.ok out, s₁)) :
    out = { t with block := some s.blocks.size } ∧
      (out.stored t.dtype s₁).size = (t.stored t.dtype s).size ∧
      ∃ q, x.value? = some q ∧ ∀ (k : Nat) (e r : Elem t.dtype),
        (t.stored t.dtype s)[k]? = some e → (out.stored t.dtype s₁)[k]? = some r →
          r.toInt = if c.Holds e.toInt (integerPart q) then 1 else 0 := by
  obtain ⟨hout, v, hv, hstored⟩ := map_eq_ok (c.ofOperation?_op t.dtype) hhost ho c.op_mem h
  obtain ⟨q, hq, hinteger⟩ := Elem.toInt_of_cast_double hd hv
  refine ⟨hout, ?_, q, hq, fun k e r he hr => ?_⟩
  · rw [hstored, Array.size_map]
  · rw [hstored, Array.getElem?_map, he] at hr
    obtain rfl := Option.some.inj hr
    rw [← hinteger]
    exact c.toInt_ofBool_test hd e v

end Tensor

namespace Session

open Tensor

variable {σ : Session} {t out : Tensor} {s₁ : Store}

/-- A comparison of an integer tensor with a number, if it succeeds, has the form of the tensor and
compares its elements with the integer part of the number.  That is as with the number itself, but
for elements that are the integer part of a fraction.  Opposite comparisons are complementary. -/
theorem comparisons_decide_integer_parts (h : Reachable HostOnly σ) (ht : t ∈ σ.tensors.values)
    (hd : t.dtype.IsInteger) (c : Comparison) (x : Double)
    (hrun : t.map c.op x σ.store = (.ok out, s₁)) :
    (out.shape = t.shape ∧ out.dtype = t.dtype ∧ out.transposed = t.transposed ∧
      out.device = t.device ∧ (out.stored t.dtype s₁).size = (t.stored t.dtype σ.store).size) ∧
    ∃ q, x.value? = some q ∧ ∀ (k : Nat) (e r : Elem t.dtype),
      (t.stored t.dtype σ.store)[k]? = some e → (out.stored t.dtype s₁)[k]? = some r →
        r.toInt = (if c.Holds e.toInt (integerPart q) then 1 else 0) ∧
        ((e.toInt = integerPart q → (e.toInt : ℚ) = q) →
          r.toInt = if c.Holds (e.toInt : ℚ) q then 1 else 0) ∧
        ∀ out' s₂ r', t.map c.opposite.op x σ.store = (.ok out', s₂) →
          (out'.stored t.dtype s₂)[k]? = some r' → r.toInt + r'.toInt = 1 := by
  have hhost : σ.store.registry.OnHost := h.onHost.registry
  obtain ⟨hout, hsize, q, hq, hcompares⟩ := map_comparison hhost (h.owned ht) hd hrun
  subst hout
  refine ⟨⟨rfl, rfl, rfl, rfl, hsize⟩, q, hq, fun k e r he hr => ?_⟩
  have hvalue := hcompares k e r he hr
  refine ⟨hvalue, fun hfraction => ?_, fun out' s₂ r' hrun' hr' => ?_⟩
  · rw [hvalue]
    exact if_congr (c.holds_integerPart_iff hfraction) rfl rfl
  · obtain ⟨-, -, q', hq', hcompares'⟩ := map_comparison hhost (h.owned ht) hd hrun'
    obtain rfl := Option.some.inj (hq.symm.trans hq')
    rw [hvalue, hcompares' k e r' he hr']
    by_cases hholds : c.Holds e.toInt (integerPart q)
    · rw [if_pos hholds, if_neg fun hopposite => (c.opposite_holds_iff _ _).mp hopposite hholds]
      rfl
    · rw [if_neg hholds, if_pos ((c.opposite_holds_iff _ _).mpr hholds)]
      rfl

/-- The bytes of a transposed view are compared with `-2.5`: both `-3` and `-2` are at most its
integer part. -/
theorem comparison_of_view_decides :
    ∃ (σ : Session) (t out : Tensor) (x : Double) (s₁ : Store), (Reachable HostOnly σ ∧
        t ∈ σ.tensors.values ∧ t.dtype = .char ∧ t.transposed = true ∧
        t.map Comparison.le.op x σ.store = (.ok out, s₁)) ∧
      t.stored .char σ.store = #[-3, -2, 2, 3] ∧ out.stored .char s₁ = #[1, 1, 0, 0] ∧
      out.transposed = true ∧ ∃ q, x.value? = some q ∧ (-2 : ℤ) ≤ integerPart q := by
  let program := [Command.ofElements "a" [2, 2] .char #[-3, -2, 2, 3], .transpose "a" "v"]
  let σ := (run program (start [])).2
  let v : Tensor := ⟨[2, 2], .char, true, 0, some 0⟩
  let out : Tensor := ⟨[2, 2], .char, true, 0, some 1⟩
  let x : Double := 0xC004000000000000#64
  have hprogram : ∀ c ∈ program, HostOnly c := by
    intro c hc
    simp only [program, List.mem_cons, List.not_mem_nil, or_false] at hc
    rcases hc with rfl | rfl <;> trivial
  have hσ : Reachable HostOnly σ := (reachable_start []).run hprogram
  obtain ⟨hvalues, hok, hstored, hresult⟩ :
      σ.tensors.values = [v, ⟨[2, 2], .char, false, 0, some 0⟩] ∧
      (v.map Comparison.le.op x σ.store).1 = .ok out ∧
      v.stored .char σ.store = #[-3, -2, 2, 3] ∧
      out.stored .char (v.map Comparison.le.op x σ.store).2 = #[1, 1, 0, 0] := by decide +kernel
  clear_value σ
  have hv : v ∈ σ.tensors.values := hvalues ▸ List.mem_cons_self
  have hrun : v.map Comparison.le.op x σ.store =
      (.ok out, (v.map Comparison.le.op x σ.store).2) := Prod.ext hok rfl
  obtain ⟨⟨-, -, hflag, -⟩, q, hq, hcompares⟩ :=
    comparisons_decide_integer_parts hσ hv (.inr rfl) .le x hrun
  obtain ⟨hsecond, -⟩ := hcompares 1 (-2) 1 (by rw [hstored]; rfl) (by rw [hresult]; rfl)
  refine ⟨σ, v, out, x, _, ⟨hσ, hv, rfl, rfl, hrun⟩, hstored, hresult, hflag, q, hq, ?_⟩
  by_contra hlt
  have hnot : ¬Comparison.le.Holds (BitVec.toInt (-2 : BitVec 8)) (integerPart q) := hlt
  exact absurd (hsecond.trans (if_neg hnot)) (by decide)

/-- The integer `2` is less than `2.5`, but equal to its integer part. -/
theorem fraction_is_compared_as_integer :
    ∃ (σ : Session) (t out : Tensor) (x : Double) (s₁ : Store) (e r : Elem .int32),
      (Reachable HostOnly σ ∧ t ∈ σ.tensors.values ∧ t.dtype = .int32 ∧
        t.map Comparison.lt.op x σ.store = (.ok out, s₁)) ∧
      (t.stored .int32 σ.store)[0]? = some e ∧ (out.stored .int32 s₁)[0]? = some r ∧
      ∃ q, x.value? = some q ∧ (e.toInt : ℚ) < q ∧ r.toInt = 0 := by
  let program := [Command.ofElements "a" [2] .int32 #[2, 3]]
  let σ := (run program (start [])).2
  let a : Tensor := ⟨[2], .int32, false, 0, some 0⟩
  let out : Tensor := ⟨[2], .int32, false, 0, some 1⟩
  let x : Double := 0x4004000000000000#64
  have hprogram : ∀ c ∈ program, HostOnly c := by
    intro c hc
    obtain rfl := List.mem_singleton.mp hc
    trivial
  have hσ : Reachable HostOnly σ := (reachable_start []).run hprogram
  obtain ⟨hvalues, hok, hstored, hresult⟩ :
      σ.tensors.values = [a] ∧ (a.map Comparison.lt.op x σ.store).1 = .ok out ∧
      a.stored .int32 σ.store = #[2, 3] ∧
      out.stored .int32 (a.map Comparison.lt.op x σ.store).2 = #[0, 0] := by decide +kernel
  have hx : x.value? = some (5 / 2) := by
    have hclass : Binary.classify (F := .double) x = .finite false 0x14000000000000 (-51) := by
      decide +kernel
    unfold Double.value? Binary.value?
    rw [hclass]
    norm_num
  clear_value σ
  have ha : a ∈ σ.tensors.values := hvalues ▸ List.mem_cons_self
  refine ⟨σ, a, out, x, _, 2, 0, ⟨hσ, ha, rfl, Prod.ext hok rfl⟩, ?_, ?_, 5 / 2, hx, ?_, rfl⟩
  · rw [hstored]
    rfl
  · rw [hresult]
    rfl
  · have he : BitVec.toInt (2 : BitVec 32) = 2 := by decide
    have hlt : ((BitVec.toInt (2 : BitVec 32) : ℤ) : ℚ) < 5 / 2 := by
      rw [he]
      norm_num
    exact hlt

end Session

end DeviceTensor
