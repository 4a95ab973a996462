import DeviceTensor.Proofs.Session.Frame
import DeviceTensor.Proofs.Session.Transparency
import DeviceTensor.Proofs.Tensor.Result
set_option autoImplicit false

/-!
# Commands that make their result and commands that are given it

A command computes its result either into a slot, for which a tensor is made, or into the tensor that
a slot holds.  Both ways lead to the same elements.  What is made needs memory on the device of the
first operand, which may refuse it although a given tensor has its own.
-/

namespace DeviceTensor

namespace Calculation

/-- The calculation on the tensors that its operands stand for. -/
def resolve (look : String → Option Tensor) : Calculation String → Option (Calculation Tensor)
  | .map op t x => do return .map op (← look t) x
  | .zip op lhs rhs => do return .zip op (← look lhs) (← look rhs)
  | .sums which t => do return .sums which (← look t)
  | .sumAxis t axis => do return .sumAxis (← look t) axis
  | .softmax t axis => do return .softmax (← look t) axis
  | .product a b => do return .product (← look a) (← look b)

/-- The command that computes the result into a target. -/
def command : Calculation String → Target → Command
  | .map op t x, out => .map op t x out
  | .zip op lhs rhs, out => .zip op lhs rhs out
  | .sums which t, out => .sums which t out
  | .sumAxis t axis, out => .sumAxis t axis out
  | .softmax t axis, out => .softmax t axis out
  | .product a b, out => .product a b out

variable {f : Calculation String} {g : Calculation Tensor} {σ : Session}

/-- The operands are tensors of the session, and the command computes on them. -/
theorem step_command (hresolve : f.resolve σ.tensors.get? = some g) :
    (∀ t ∈ g.operands, t ∈ σ.tensors.values) ∧
      ∀ out, Session.step (f.command out) σ = Session.compute out g.value g.into σ := by
  have hmem {name : String} {t : Tensor} (ht : σ.tensors.get? name = some t) :
      t ∈ σ.tensors.values := Slots.mem_of_get? ht
  have hnext {name : String} {t : Tensor} (ht : σ.tensors.get? name = some t)
      (next : Tensor → Session → Reply × Session) :
      Session.withTensor name next σ = next t σ := Session.withTensor_some ht σ.store next
  cases f with
  | map _ t _ | sums _ t | sumAxis t _ | softmax t _ =>
    obtain ⟨_, ht, ⟨⟩⟩ := Option.bind_eq_some_iff.mp hresolve
    exact ⟨List.forall_mem_singleton.mpr (hmem ht), fun _ => hnext ht _⟩
  | zip _ lhs rhs | product lhs rhs =>
    obtain ⟨_, hl, hrest⟩ := Option.bind_eq_some_iff.mp hresolve
    obtain ⟨_, hr, ⟨⟩⟩ := Option.bind_eq_some_iff.mp hrest
    exact ⟨List.forall_mem_cons.mpr ⟨hmem hl, List.forall_mem_singleton.mpr (hmem hr)⟩,
      fun _ => (hnext hl _).trans (hnext hr _)⟩

end Calculation

namespace Session

open Tensor

variable {σ : Session} {f : Calculation String} {g : Calculation Tensor} {out : Tensor}
  {name : String}

/-- A command that is given its output leaves what the calculation leaves. -/
theorem given_outcome (hresolve : f.resolve σ.tensors.get? = some g)
    (hget : σ.tensors.get? name = some out) :
    ((step (f.command ⟨name, true⟩) σ).1.failure? = none ↔
        ∃ s, g.into out σ.store = (.ok (), s)) ∧
      (step (f.command ⟨name, true⟩) σ).2 = { σ with store := (g.into out σ.store).2 } := by
  have hstep : step (f.command ⟨name, true⟩) σ =
      perform (g.into out) (fun () => reportTensor out) σ :=
    ((Calculation.step_command hresolve).2 _).trans (withTensor_some hget σ.store _)
  rw [hstep]
  unfold perform
  cases g.into out σ.store with
  | mk r s =>
    cases r with
    | ok u => exact ⟨iff_of_true rfl ⟨s, rfl⟩, rfl⟩
    | error e => exact ⟨iff_of_false nofun (by rintro ⟨_, ⟨⟩⟩), rfl⟩

/-- Letting go of another block leaves what a tensor stores. -/
theorem stored_dropTensor {t : Tensor} {d : ElemType}
    (h : ∀ u b, σ.tensors.get? name = some u → u.block = some b → t.block ≠ some b) :
    t.stored d (σ.dropTensor name).store = t.stored d σ.store := by
  unfold dropTensor
  cases hget : σ.tensors.get? name with
  | none => rfl
  | some u =>
    apply stored_congr
    intro b hb
    dsimp only
    unfold Tensor.release
    cases hu : u.block with
    | none => rfl
    | some k =>
      apply Store.block_release_of_ne
      rintro rfl
      exact h u k hget hu hb

/-- A command that makes its result puts it into its slot. -/
theorem made_outcome (hvalid : ∀ t ∈ σ.tensors.values, t.Valid σ.store)
    (hresolve : f.resolve σ.tensors.get? = some g) (name : String) :
    ((step (f.command ⟨name, false⟩) σ).1.failure? = none ↔
        ∃ made s, g.value σ.store = (.ok made, s)) ∧
      (∀ fault, (g.value σ.store).1 = .error fault →
        (step (f.command ⟨name, false⟩) σ).1.failure? = some (.fault fault)) ∧
      ∀ made s, g.value σ.store = (.ok made, s) →
        (step (f.command ⟨name, false⟩) σ).2.tensors.get? name = some made ∧
        ∀ d, made.stored d (step (f.command ⟨name, false⟩) σ).2.store = made.stored d s := by
  have hstep : step (f.command ⟨name, false⟩) σ = makeTensor name g.value σ :=
    (Calculation.step_command hresolve).2 _
  rw [hstep]
  unfold makeTensor perform
  cases hvalue : g.value σ.store with
  | mk r s =>
    cases r with
    | error e =>
      refine ⟨iff_of_false nofun (by rintro ⟨_, _, ⟨⟩⟩), ?_, nofun⟩
      rintro _ ⟨⟩
      rfl
    | ok made =>
      refine ⟨iff_of_true rfl ⟨made, s, rfl⟩, nofun, ?_⟩
      rintro _ _ ⟨⟩
      refine ⟨Slots.get?_put_self _ _ _, fun d => ?_⟩
      obtain ⟨form, n, -, -, rfl, -⟩ := Calculation.value_eq_ok_iff.mp hvalue
      refine stored_dropTensor (σ := { σ with store := s }) fun u b hu hb hmade => ?_
      have hlt := ((hvalid u (Slots.mem_of_get? hu)).filled b hb).lt
      cases hmade
      exact absurd hlt (Nat.lt_irrefl _)

/-- With host routines only, a result that can be made can be written into a given tensor whose memory
is bound or granted whenever it is asked for.  What can be written can be made, unless the device of
the first operand refuses the memory of the result, as it may even if it granted as much before.  Then
the same elements are stored, whatever the given tensor held.  A tensor without a block is refused. -/
theorem made_and_given_results_agree (h : Reachable HostOnly σ) (hg : g.Proper)
    (hresolve : f.resolve σ.tensors.get? = some g) (hsized : ∀ t ∈ g.operands, t.shape.Sized)
    (hget : σ.tensors.get? name = some out) (haccepts : g.Accepts out σ.store)
    (hview : out.Viewable σ.store) (slot : String) :
    let made := step (f.command ⟨slot, false⟩) σ
    let given := step (f.command ⟨name, true⟩) σ
    let maker := σ.store.device g.first.device
    let size := out.byteSize σ.store
    (∀ b, out.block = some b →
      (made.1.failure? = none → given.1.failure? = none) ∧
      (given.1.failure? = none → made.1.failure? = none ∨
        ∃ earlier e, maker.answers earlier (.allocate size) = .error e ∧ made.1.failure? =
          some (.fault (.allocationFailed size maker.backend maker.name e))) ∧
      (maker.Supplies size → (made.1.failure? = none ↔ given.1.failure? = none)) ∧
      (made.1.failure? = none → ∃ t, made.2.tensors.get? slot = some t ∧ t.dtype = out.dtype ∧
        t.stored out.dtype made.2.store = out.stored out.dtype given.2.store) ∧
      (given.2.store.block b).size = (σ.store.block b).size ∧
      (given.2.store.block b).device = (σ.store.block b).device) ∧
    (out.block = none → given.1.failure? ≠ none) ∧
    given.2.tensors = σ.tensors := by
  intro made given maker size
  have hin : ∀ t ∈ g.operands, t.Owned σ.store := fun t ht =>
    h.owned ((Calculation.step_command hresolve).1 t ht)
  have ho : out.Owned σ.store := h.owned (Slots.mem_of_get? hget)
  have hhost := h.onHost.registry
  obtain ⟨hgiven, hleft⟩ := given_outcome (f := f) hresolve hget
  obtain ⟨hmade, hfault, hstored⟩ := made_outcome h.onHost.valid hresolve slot
  have hstore : given.2.store = (g.into out σ.store).2 := congrArg store hleft
  refine ⟨fun b hb => ?_, fun hnone hok => ?_, by rw [show given.2 = _ from hleft]⟩
  · have hforth : made.1.failure? = none → given.1.failure? = none := by
      intro hok
      obtain ⟨t, s₁, hvalue⟩ := hmade.mp hok
      obtain ⟨s₂, hrun, -⟩ := Calculation.into_of_value hg hhost hin ho hb haccepts hview hvalue
      exact hgiven.mpr ⟨s₂, hrun⟩
    have hback : given.1.failure? = none → made.1.failure? = none ∨
        ∃ earlier e, maker.answers earlier (.allocate size) = .error e ∧ made.1.failure? =
          some (.fault (.allocationFailed size maker.backend maker.name e)) := by
      intro hok
      obtain ⟨s₂, hrun⟩ := hgiven.mp hok
      rcases Calculation.value_of_into hg hhost hin ho hsized hrun with hvalue | ⟨earlier, e, he, hr⟩
      · exact .inl (hmade.mpr hvalue)
      · exact .inr ⟨earlier, e, he, hfault _ hr⟩
    have hkeeps : σ.store.Keeps given.2.store := hstore ▸ g.into_keeps out σ.store
    refine ⟨hforth, hback, fun hsupplies => ⟨hforth, fun hok => ?_⟩, fun hok => ?_,
      hkeeps.extend.size b (ho.lt hb), hkeeps.extend.place b (ho.lt hb)⟩
    · rcases hback hok with hmade | ⟨earlier, e, he, -⟩
      · exact hmade
      · exact nomatch (hsupplies earlier).symm.trans he
    · obtain ⟨t, s₁, hvalue⟩ := hmade.mp hok
      obtain ⟨s₂, hrun, hdtype, hsame⟩ :=
        Calculation.into_of_value hg hhost hin ho hb haccepts hview hvalue
      obtain ⟨hslot, hheld⟩ := hstored t s₁ hvalue
      refine ⟨t, hslot, hdtype, (hheld out.dtype).trans ?_⟩
      rw [hsame, hstore, hrun]
  · obtain ⟨s₂, hrun⟩ := hgiven.mp hok
    exact Calculation.block_of_into hg hin hrun hnone

/-- A transposed view is multiplied with its matrix, into a new tensor and into one that holds other
elements. -/
theorem products_made_and_given_agree :
    ∃ (σ : Session) (g : Calculation Tensor) (out : Tensor),
      (Reachable HostOnly σ ∧ g.Proper ∧ (∀ t ∈ g.operands, t.shape.Sized) ∧
        g.Accepts out σ.store ∧ out.Viewable σ.store) ∧
      out.stored .int32 σ.store = #[9, 9, 9, 9] ∧
      ∃ t, (step (.product "v" "m" ⟨"r", false⟩) σ).2.tensors.get? "r" = some t ∧
        t.stored .int32 (step (.product "v" "m" ⟨"r", false⟩) σ).2.store = #[10, 14, 14, 20] ∧
        out.stored .int32 (step (.product "v" "m" ⟨"o", true⟩) σ).2.store = #[10, 14, 14, 20] := by
  let program := [Command.ofElements "m" [2, 2] .int32 #[1, 2, 3, 4], .transpose "m" "v",
    .ofElements "o" [2, 2] .int32 #[9, 9, 9, 9]]
  let σ := (run program (start [])).2
  let g : Calculation Tensor :=
    .product ⟨[2, 2], .int32, true, 0, some 0⟩ ⟨[2, 2], .int32, false, 0, some 0⟩
  let out : Tensor := ⟨[2, 2], .int32, false, 0, some 1⟩
  have hprogram : ∀ c ∈ program, HostOnly c := by
    intro c hc
    simp only [program, List.mem_cons, List.not_mem_nil, or_false] at hc
    rcases hc with rfl | rfl | rfl <;> trivial
  have hσ : Reachable HostOnly σ := (reachable_start []).run hprogram
  obtain ⟨hv, hm, hget, haddressable, hbound, hcheck, hstale, hok, helements⟩ :
      σ.tensors.get? "v" = some ⟨[2, 2], .int32, true, 0, some 0⟩ ∧
      σ.tensors.get? "m" = some ⟨[2, 2], .int32, false, 0, some 0⟩ ∧
      σ.tensors.get? "o" = some out ∧ (σ.store.device out.device).addressable = true ∧
      out.isBound σ.store = true ∧ checkOutput g.first out 4 σ.store = .ok () ∧
      out.stored .int32 σ.store = #[9, 9, 9, 9] ∧
      (step (.product "v" "m" ⟨"r", false⟩) σ).1.failure? = none ∧
      out.stored .int32 (step (.product "v" "m" ⟨"o", true⟩) σ).2.store = #[10, 14, 14, 20] := by
    decide +kernel
  clear_value σ
  have hresolve : (Calculation.product "v" "m").resolve σ.tensors.get? = some g := by
    simp [Calculation.resolve, hv, hm, g]
  have hsized : ∀ t ∈ g.operands, t.shape.Sized := by decide
  have haccepts : g.Accepts out σ.store := by
    rintro p ⟨⟩
    exact ⟨hcheck, rfl⟩
  have hview : out.Viewable σ.store := viewable_of_bound haddressable hbound
  obtain ⟨hagree, -, -⟩ := made_and_given_results_agree (g := g) hσ trivial hresolve hsized hget
    haccepts hview "r"
  obtain ⟨-, -, -, hsame, -, -⟩ := hagree 1 rfl
  obtain ⟨t, ht, -, hstored⟩ := hsame hok
  exact ⟨σ, g, out, ⟨hσ, trivial, hsized, haccepts, hview⟩, hstale, t, ht,
    hstored.trans helements, helements⟩

/-- A result that is larger than the operands is made on the device of the first one: this device
may refuse its memory although an accepted tensor, which lies on another device and shares no block
with the operands, has its own. -/
theorem product_given_but_not_made :
    ∃ (σ : Session) (g : Calculation Tensor) (out : Tensor),
      (Reachable HostOnly σ ∧ g.Proper ∧ (∀ t ∈ g.operands, t.shape.Sized) ∧
        (Calculation.product "a" "b").resolve σ.tensors.get? = some g ∧
        σ.tensors.get? "o" = some out ∧ g.Accepts out σ.store ∧ out.Viewable σ.store ∧
        ∀ t ∈ g.operands, t.block ≠ out.block) ∧
      (step (.product "a" "b" ⟨"o", true⟩) σ).1.failure? = none ∧
      (step (.product "a" "b" ⟨"r", false⟩) σ).1.failure? ≠ none := by
  let specs := [DeviceSpec.host "small" none (some 8)]
  let program := [Command.create "a" [2, 1] "small" .int32, .upload "a" .int32 #[1, 2] 0,
    .create "b" [1, 2] "small" .int32, .upload "b" .int32 #[3, 4] 0,
    .ofElements "o" [2, 2] .int32 #[9, 9, 9, 9]]
  let σ := (run program (start specs)).2
  let g : Calculation Tensor :=
    .product ⟨[2, 1], .int32, false, 1, some 0⟩ ⟨[1, 2], .int32, false, 1, some 1⟩
  let out : Tensor := ⟨[2, 2], .int32, false, 0, some 2⟩
  have hprogram : ∀ c ∈ program, HostOnly c := by
    intro c hc
    simp only [program, List.mem_cons, List.not_mem_nil, or_false] at hc
    rcases hc with rfl | rfl | rfl | rfl | rfl <;> trivial
  have hσ : Reachable HostOnly σ := (reachable_start specs).run hprogram
  obtain ⟨ha, hb, hget, haddressable, hbound, hcheck, hgiven, hmade⟩ :
      σ.tensors.get? "a" = some ⟨[2, 1], .int32, false, 1, some 0⟩ ∧
      σ.tensors.get? "b" = some ⟨[1, 2], .int32, false, 1, some 1⟩ ∧
      σ.tensors.get? "o" = some out ∧ (σ.store.device out.device).addressable = true ∧
      out.isBound σ.store = true ∧ checkOutput g.first out 4 σ.store = .ok () ∧
      (step (.product "a" "b" ⟨"o", true⟩) σ).1.failure? = none ∧
      (step (.product "a" "b" ⟨"r", false⟩) σ).1.failure? ≠ none := by decide +kernel
  clear_value σ
  have hresolve : (Calculation.product "a" "b").resolve σ.tensors.get? = some g := by
    simp [Calculation.resolve, ha, hb, g]
  have haccepts : g.Accepts out σ.store := by
    rintro p ⟨⟩
    exact ⟨hcheck, rfl⟩
  exact ⟨σ, g, out, ⟨hσ, trivial, by decide, hresolve, hget, haccepts,
    viewable_of_bound haddressable hbound, by decide⟩, hgiven, hmade⟩

end Session

end DeviceTensor
