import DeviceTensor.Proofs.Kernel.Admissible
import DeviceTensor.Proofs.Routine.Catalog
set_option autoImplicit false

/-!
# The views of a routine

`Recipe.views` lists the views that a recipe takes of its blocks.  If all of them fit, the recipe
fails in admissible ways only: no view is longer than its block, the kernel gets buffers of the
sizes it expects, and what can still go wrong are elements, memory, and backends.
-/

namespace DeviceTensor

open DeviceTensor.Except

/-! ## Admissible faults -/

/-- A launch went wrong for an admissible reason. -/
def LaunchError.Admissible : LaunchError → Prop
  | .missingRoutine _ => True
  | .routineFailed _ e => e.Admissible

/-- The fault is none of those of a launch whose operands do not suit its routine: a kernel refused
the lengths of its buffers, their sizes or their type, a view exceeded its block, or a place lay
outside of a buffer. -/
def Fault.Admissible : Fault → Prop
  | .trap t => t.Admissible
  | .launch e => e.Admissible
  | .viewTooLong _ _ => False
  | _ => True

theorem Fault.admissible_of_refuses {f : Fault} (h : MemoryFailure.refuses f = true) :
    f.Admissible := by
  cases f with
  | allocationFailed _ _ _ _ => trivial
  | _ => cases h

/-- A routine failed for an admissible reason. -/
def RoutineFailure.Admissible : RoutineFailure → Prop
  | .fault f => f.Admissible
  | .refused e => e.Admissible

theorem RoutineFailure.admissible_of_refuses {e : RoutineFailure}
    (h : MemoryFailure.refuses e = true) : e.Admissible := by
  cases e with
  | fault f => exact Fault.admissible_of_refuses h
  | refused r => cases h

theorem RoutineFailure.ofHalt_admissible {h : Halt} (hh : h.Admissible) :
    (RoutineFailure.ofHalt h).Admissible := by
  cases h with
  | trap t => exact hh
  | refused e => exact hh

theorem RoutineFailure.toFault_admissible {key : RoutineKey} {e : RoutineFailure}
    (he : e.Admissible) : (e.toFault key).Admissible := by
  cases e with
  | fault f => exact he
  | refused e => exact he

/-! ## Views that fit -/

/-- A view of the first elements of a block. -/
structure View where
  block : Option BlockId
  dtype : ElemType
  count : Nat
  deriving DecidableEq, Repr

/-- The block has room for the elements of the view. -/
def View.Fits (v : View) (s : Store) : Prop :=
  ∃ b, v.block = some b ∧ v.count * v.dtype.width ≤ (s.block b).size

namespace Block

variable {b : BlockId} {d : ElemType} {count : Nat} {s : Store}

theorem decode_of_seen {xs : Array (Elem d)} (h : seen b d count s = .ok xs) :
    xs = Elem.decode d count (s.block b).contents := by
  obtain ⟨_, -, h⟩ := bind_eq_ok_iff.mp h
  exact (Except.ok.inj h).symm

theorem size_of_seen {xs : Array (Elem d)} (h : seen b d count s = .ok xs) : xs.size = count := by
  rw [decode_of_seen h]
  exact Elem.size_decode d count _

/-- A view has as many elements as were asked for. -/
theorem size_of_view {xs : Array (Elem d)} {s' : Store} (h : view b d count s = (.ok xs, s')) :
    xs.size = count := by
  have hr := (view_reads (List.mem_singleton_self b) d count).result s
  rw [h] at hr
  exact size_of_seen (hr.resolve_right fun hrefused => hrefused.1).symm

theorem seen_admissible (h : count * d.width ≤ (s.block b).size) :
    FailsIn Fault.Admissible (seen b d count s) := by
  refine .bind ?_ fun _ _ => .ok _
  unfold checkView
  refine .ite (fun _ => .error trivial) fun _ => ?_
  split
  · rename_i t ht
    exact .error (Size.mul_admissible _ _ t ht)
  · rename_i bytes hbytes
    refine .ite (fun _ => .ok ()) fun hlt => ?_
    rw [(Size.mul_eq_ok_iff.mp hbytes).2] at hlt
    exact absurd h hlt

end Block

namespace Invocation

variable {inv : Invocation} {d : ElemType} {count : Nat} {s : Store}

theorem size_of_perform_view {b : BlockId} {xs : Array (Elem d)} {s' : Store}
    (h : perform (Block.view b d count) s = (.ok xs, s')) : xs.size = count := by
  unfold perform at h
  rw [Action.mapError_apply] at h
  obtain ⟨hresult, hstore⟩ := Prod.mk.inj h
  exact Block.size_of_view (Prod.ext (mapError_eq_ok_iff.mp hresult) hstore)

/-- A view of an input. -/
def viewOfInput (inv : Invocation) (d : ElemType) (index count : Nat) : View :=
  ⟨inv.inputs[index]?, d, count⟩

/-- A view of the output. -/
def viewOfOutput (inv : Invocation) (d : ElemType) (count : Nat) : View :=
  ⟨some inv.output, d, count⟩

theorem inputSeen_admissible {index : Nat} (h : (inv.viewOfInput d index count).Fits s) :
    FailsIn RoutineFailure.Admissible (inv.inputSeen d index count s) := by
  obtain ⟨b, hb, hfits⟩ := h
  unfold inputSeen
  dsimp only [viewOfInput] at hb
  rw [hb]
  exact .mapError (Block.seen_admissible hfits) fun _ he => he

theorem size_of_inputSeen {index : Nat} {xs : Array (Elem d)}
    (h : inv.inputSeen d index count s = .ok xs) : xs.size = count := by
  unfold inputSeen at h
  split at h
  · cases h
  · exact Block.size_of_seen (mapError_eq_ok_iff.mp h)

theorem outputSeen_admissible (h : (inv.viewOfOutput d count).Fits s) :
    FailsIn RoutineFailure.Admissible (inv.outputSeen d count s) := by
  obtain ⟨b, hb, hfits⟩ := h
  cases hb
  exact .mapError (Block.seen_admissible hfits) fun _ he => he

theorem size_of_outputSeen {xs : Array (Elem d)} (h : inv.outputSeen d count s = .ok xs) :
    xs.size = count :=
  Block.size_of_seen (mapError_eq_ok_iff.mp h)

theorem scalarSeen_admissible (d : ElemType) (x : Double) :
    FailsIn RoutineFailure.Admissible (scalarSeen d x) := by
  unfold scalarSeen
  split
  · exact .ok _
  · exact .error trivial

theorem sizeSeen_eq_ok_iff {x : Except Trap Nat} {n : Nat} : sizeSeen x = .ok n ↔ x = .ok n :=
  mapError_eq_ok_iff

theorem sizeSeen_admissible {x : Except Trap Nat} (h : FailsIn Trap.Admissible x) :
    FailsIn RoutineFailure.Admissible (sizeSeen x) :=
  .mapError h fun _ ht => ht

end Invocation

/-! ## Recipes -/

namespace Recipe

open Invocation

variable {d : ElemType}

/-- The views that a recipe takes, of the elements that its kernel works on. -/
def views (inv : Invocation) : Recipe d → List View
  | .map _ => [inv.viewOfInput d 0 inv.count, inv.viewOfOutput d inv.count]
  | .mapScalar _ => [inv.viewOfInput d 0 inv.count, inv.viewOfOutput d inv.count]
  | .zip _ =>
    [inv.viewOfInput d 0 inv.count, inv.viewOfInput d 1 inv.count, inv.viewOfOutput d inv.count]
  | .fill => [inv.viewOfOutput d inv.count]
  | .cast => [inv.viewOfInput d 0 inv.count, inv.viewOfOutput inv.outType inv.count]
  | .reduce _ => [inv.viewOfInput d 0 inv.count, inv.viewOfOutput .float64 1]
  | .softmax _ =>
    [inv.viewOfInput d 0 inv.extents.grid.size, inv.viewOfOutput d inv.extents.grid.size]
  | .row _ => [inv.viewOfInput d 0 inv.extents.cols, inv.viewOfOutput d inv.extents.grid.size]
  | .column _ => [inv.viewOfInput d 0 inv.extents.rows, inv.viewOfOutput d inv.extents.grid.size]
  | .scaledRow => [inv.viewOfInput d 0 inv.extents.cols, inv.viewOfOutput d inv.extents.grid.size]
  | .scaledColumn =>
    [inv.viewOfInput d 0 inv.extents.rows, inv.viewOfOutput d inv.extents.grid.size]
  | .sumRows => [inv.viewOfInput d 0 inv.extents.grid.size, inv.viewOfOutput d inv.extents.cols]
  | .sumColumns => [inv.viewOfInput d 0 inv.extents.grid.size, inv.viewOfOutput d inv.extents.rows]
  | .random _ => [inv.viewOfOutput d inv.count]
  | .addScaled => [inv.viewOfInput d 0 inv.count, inv.viewOfOutput d inv.count]
  | .product =>
    [inv.viewOfInput d 0 inv.extents.leftGrid.size, inv.viewOfInput d 1 inv.extents.rightGrid.size,
      inv.viewOfOutput d (inv.extents.rows * inv.extents.cols)]
  | .wideProduct =>
    [inv.viewOfInput d 0 inv.extents.leftGrid.size, inv.viewOfInput d 1 inv.extents.rightGrid.size,
      inv.viewOfOutput d (inv.extents.rows * inv.extents.cols)]

/-- The functions of the recipe on elements fail only by going out of range. -/
def Admissible : Recipe d → Prop
  | .map f => ∀ x, FailsIn Trap.Admissible (f x)
  | .mapScalar f => ∀ x v, FailsIn Trap.Admissible (f x v)
  | .zip f => ∀ x y, FailsIn Trap.Admissible (f x y)
  | .row f => ∀ x y, FailsIn Trap.Admissible (f x y)
  | .column f => ∀ x y, FailsIn Trap.Admissible (f x y)
  | _ => True

theorem Does.admissible {recipe : Recipe d} {op : Operation} (h : recipe.Does op) :
    recipe.Admissible := by
  have hA := arithmetic_admissible d
  cases h with
  | wideProduct => trivial
  | catalog h =>
    cases op
    all_goals simp only [ofOperation?, Option.some.injEq, Option.map_eq_some_iff] at h
    all_goals first | subst h | obtain ⟨F, -, rfl⟩ := h
    case abs => exact hA.abs
    case sign => exact hA.sign
    case square => exact fun x => hA.mul x x
    case sigmoid => exact hA.sigmoid F
    case add | addScalar => exact hA.add
    case sub | subScalar | subRow | subColumn => exact hA.sub
    case mul | mulScalar | multRow | multColumn => exact hA.mul
    case div | divScalar | divRow | divColumn => exact hA.div
    case scalarDiv => exact fun x v => hA.div v x
    case relu | exp | log | sqrt | tanh => exact fun _ => .ok _
    case powScalar | pow | lt | le | gt | ge => exact fun _ _ => .ok _
    all_goals trivial

/-- The effect can be seen and the routine then ends well, or either fails for an admissible
reason. -/
def EffectAdmissible (x : Except RoutineFailure Effect) : Prop :=
  FailsIn RoutineFailure.Admissible x ∧
    ∀ e, x = .ok e → FailsIn RoutineFailure.Admissible e.result

namespace EffectAdmissible

variable {α : Type}

theorem bind {x : Except RoutineFailure α} {f : α → Except RoutineFailure Effect}
    (hx : FailsIn RoutineFailure.Admissible x) (hf : ∀ a, x = .ok a → EffectAdmissible (f a)) :
    EffectAdmissible (x >>= f) := by
  refine ⟨hx.bind fun a ha => (hf a ha).1, fun e he => ?_⟩
  obtain ⟨a, ha, he⟩ := bind_eq_ok_iff.mp he
  exact (hf a ha).2 e he

theorem ofOutcome {d : ElemType} {o : Outcome (Elem d)} (h : Outcome.Admissible o) :
    EffectAdmissible (.ok (.ofOutcome o)) := by
  refine ⟨.ok _, fun e he => ?_⟩
  cases he
  exact .mapError h fun _ hh => RoutineFailure.ofHalt_admissible hh

theorem input {d : ElemType} {inv : Invocation} {index count : Nat} {s : Store}
    {f : Array (Elem d) → Except RoutineFailure Effect}
    (h : (inv.viewOfInput d index count).Fits s)
    (hf : ∀ xs, xs.size = count → EffectAdmissible (f xs)) :
    EffectAdmissible (inv.inputSeen d index count s >>= f) :=
  .bind (inputSeen_admissible h) fun xs hxs => hf xs (size_of_inputSeen hxs)

theorem output {d : ElemType} {inv : Invocation} {count : Nat} {s : Store}
    {f : Array (Elem d) → Except RoutineFailure Effect}
    (h : (inv.viewOfOutput d count).Fits s)
    (hf : ∀ xs, xs.size = count → EffectAdmissible (f xs)) :
    EffectAdmissible (inv.outputSeen d count s >>= f) :=
  .bind (outputSeen_admissible h) fun xs hxs => hf xs (size_of_outputSeen hxs)

theorem scalar {d : ElemType} {x : Double} {f : Elem d → Except RoutineFailure Effect}
    (hf : ∀ y, EffectAdmissible (f y)) : EffectAdmissible (scalarSeen d x >>= f) :=
  .bind (scalarSeen_admissible d x) fun y _ => hf y

theorem size {a b : Nat} {f : Nat → Except RoutineFailure Effect}
    (hf : EffectAdmissible (f (a * b))) : EffectAdmissible (sizeSeen (Size.mul a b) >>= f) := by
  refine .bind (sizeSeen_admissible (Size.mul_admissible a b)) fun n hn => ?_
  rw [(Size.mul_eq_ok_iff.mp (sizeSeen_eq_ok_iff.mp hn)).2]
  exact hf

end EffectAdmissible

section Effects

variable {inv : Invocation} {s : Store}

theorem rowEffect_admissible {f : Elem d → Elem d → Except Trap (Elem d)}
    (hf : ∀ x y, FailsIn Trap.Admissible (f x y))
    (hv : (inv.viewOfInput d 0 inv.extents.cols).Fits s)
    (hm : (inv.viewOfOutput d inv.extents.grid.size).Fits s) :
    EffectAdmissible (rowEffect inv f s) := by
  refine .input hv fun v hsize => .size <| .output hm fun m hm => .ofOutcome ?_
  exact Kernel.broadcastRow_admissible hf hsize (Nat.le_of_eq hm.symm)

theorem columnEffect_admissible {f : Elem d → Elem d → Except Trap (Elem d)}
    (hf : ∀ x y, FailsIn Trap.Admissible (f x y))
    (hv : (inv.viewOfInput d 0 inv.extents.rows).Fits s)
    (hm : (inv.viewOfOutput d inv.extents.grid.size).Fits s) :
    EffectAdmissible (columnEffect inv f s) := by
  refine .input hv fun v hsize => .size <| .output hm fun m hm => .ofOutcome ?_
  exact Kernel.broadcastColumn_admissible hf hsize (Nat.le_of_eq hm.symm)

theorem productEffect_admissible
    {kernel : Elem d → Array (Elem d) → Array (Elem d) → Elem d → Array (Elem d) →
      Outcome (Elem d)}
    (hkernel : ∀ alpha a b beta c, Kernel.Holds inv.extents a b c →
      Outcome.Admissible (kernel alpha a b beta c))
    (hleft : (inv.viewOfInput d 0 inv.extents.leftGrid.size).Fits s)
    (hright : (inv.viewOfInput d 1 inv.extents.rightGrid.size).Fits s)
    (hout : (inv.viewOfOutput d (inv.extents.rows * inv.extents.cols)).Fits s) :
    EffectAdmissible (productEffect inv kernel s) := by
  refine .size <| .input hleft fun a ha => .size <| .input hright fun b hb => ?_
  refine .size <| .output hout fun c hc => .scalar fun alpha => .scalar fun beta => ?_
  exact .ofOutcome (hkernel alpha a b beta c
    ⟨Nat.le_of_eq ha.symm, Nat.le_of_eq hb.symm, Nat.le_of_eq hc.symm⟩)

/-- A recipe whose views fit fails for admissible reasons only. -/
theorem effect_admissible {recipe : Recipe d} (h : recipe.Admissible)
    (hfits : ∀ v ∈ recipe.views inv, v.Fits s) : EffectAdmissible (recipe.effect inv s) := by
  have hA := arithmetic_admissible d
  cases recipe with
  | map f =>
    simp only [views, List.forall_mem_cons, List.not_mem_nil] at hfits
    obtain ⟨hin, hout, -⟩ := hfits
    refine .input hin fun src hsrc => .output hout fun dst hdst => .ofOutcome ?_
    exact Kernel.map_admissible h (hsrc.trans hdst.symm)
  | mapScalar f =>
    simp only [views, List.forall_mem_cons, List.not_mem_nil] at hfits
    obtain ⟨hin, hout, -⟩ := hfits
    refine .scalar fun v => .input hin fun src hsrc => .output hout fun dst hdst => .ofOutcome ?_
    exact Kernel.map_admissible (h · v) (hsrc.trans hdst.symm)
  | zip f =>
    simp only [views, List.forall_mem_cons, List.not_mem_nil] at hfits
    obtain ⟨hleft, hright, hout, -⟩ := hfits
    refine .input hleft fun lhs hl => .input hright fun rhs hr => .output hout fun dst hd => ?_
    exact .ofOutcome (Kernel.zip_admissible h (hl.trans hr.symm) (hl.trans hd.symm))
  | fill =>
    simp only [views, List.forall_mem_cons, List.not_mem_nil] at hfits
    exact .output hfits.1 fun dst _ => .scalar fun v => .ofOutcome (.ok ())
  | cast =>
    simp only [views, List.forall_mem_cons, List.not_mem_nil] at hfits
    obtain ⟨hin, hout, -⟩ := hfits
    refine .input hin fun src hsrc => .output hout fun dst hdst => .ofOutcome ?_
    exact Kernel.cast_admissible (hsrc.trans hdst.symm)
  | reduce f =>
    simp only [views, List.forall_mem_cons, List.not_mem_nil] at hfits
    obtain ⟨hin, hout, -⟩ := hfits
    exact .input hin fun src _ => .output hout fun dst _ => .ofOutcome (.ok ())
  | softmax F =>
    simp only [views, List.forall_mem_cons, List.not_mem_nil] at hfits
    obtain ⟨hin, hout, -⟩ := hfits
    refine .size <| .input hin fun src hsrc => .output hout fun dst hdst => .ofOutcome ?_
    exact Kernel.softmax_admissible hA F (hsrc.trans hdst.symm) (Nat.le_of_eq hsrc.symm)
  | row f =>
    simp only [views, List.forall_mem_cons, List.not_mem_nil] at hfits
    exact rowEffect_admissible h hfits.1 hfits.2.1
  | column f =>
    simp only [views, List.forall_mem_cons, List.not_mem_nil] at hfits
    exact columnEffect_admissible h hfits.1 hfits.2.1
  | scaledRow =>
    simp only [views, List.forall_mem_cons, List.not_mem_nil] at hfits
    refine .scalar fun alpha => .scalar fun beta => ?_
    exact rowEffect_admissible (fun m v => hA.combine alpha v beta m) hfits.1 hfits.2.1
  | scaledColumn =>
    simp only [views, List.forall_mem_cons, List.not_mem_nil] at hfits
    refine .scalar fun alpha => .scalar fun beta => ?_
    exact columnEffect_admissible (fun m v => hA.combine alpha v beta m) hfits.1 hfits.2.1
  | sumRows =>
    simp only [views, List.forall_mem_cons, List.not_mem_nil] at hfits
    obtain ⟨hin, hout, -⟩ := hfits
    refine .size <| .input hin fun m hm => .output hout fun dst hdst => .ofOutcome ?_
    exact Kernel.sumRows_admissible hA hdst (Nat.le_of_eq hm.symm)
  | sumColumns =>
    simp only [views, List.forall_mem_cons, List.not_mem_nil] at hfits
    obtain ⟨hin, hout, -⟩ := hfits
    refine .size <| .input hin fun m hm => .output hout fun dst hdst => .ofOutcome ?_
    exact Kernel.sumColumns_admissible hA hdst (Nat.le_of_eq hm.symm)
  | random D =>
    simp only [views, List.forall_mem_cons, List.not_mem_nil] at hfits
    refine .output hfits.1 fun dst _ => ⟨.ok _, fun e he => ?_⟩
    cases he
    refine .mapError (Kernel.fillSamples_admissible _ _ _ _ _) fun _ hh => ?_
    exact RoutineFailure.ofHalt_admissible hh
  | addScaled =>
    simp only [views, List.forall_mem_cons, List.not_mem_nil] at hfits
    obtain ⟨hin, hout, -⟩ := hfits
    refine .input hin fun src hsrc => .scalar fun alpha => .output hout fun dst hdst => ?_
    exact .ofOutcome (Kernel.addScaled_admissible hA alpha (hsrc.trans hdst.symm))
  | product =>
    simp only [views, List.forall_mem_cons, List.not_mem_nil] at hfits
    refine productEffect_admissible (fun alpha a b beta c hc => ?_) hfits.1 hfits.2.1 hfits.2.2.1
    exact Kernel.product_admissible hA alpha beta hc
  | wideProduct =>
    simp only [views, List.forall_mem_cons, List.not_mem_nil] at hfits
    refine productEffect_admissible (fun alpha a b beta c hc => ?_) hfits.1 hfits.2.1 hfits.2.2.1
    exact Kernel.wideProduct_admissible _ alpha beta hc

end Effects

end Recipe

/-! ## Launches -/

/-- The views that the routine of an operation takes. -/
def ViewsFit (op : Operation) (dtype : ElemType) (inv : Invocation) (s : Store) : Prop :=
  ∀ recipe : Recipe dtype, recipe.Does op → ∀ v ∈ recipe.views inv, v.Fits s

namespace ViewsFit

variable {op : Operation} {dtype : ElemType} {inv : Invocation} {s : Store}

theorem pointwise (hop : op ∈ Operation.pointwise)
    (hin : (inv.viewOfInput dtype 0 inv.count).Fits s)
    (hout : (inv.viewOfOutput dtype inv.count).Fits s) : ViewsFit op dtype inv s := by
  intro recipe hdoes
  rcases hdoes.pointwise hop with ⟨f, rfl⟩ | ⟨f, rfl⟩
  · simp [Recipe.views, hin, hout]
  · simp [Recipe.views, hin, hout]

theorem pairwise (hop : op ∈ Operation.pairwise)
    (hleft : (inv.viewOfInput dtype 0 inv.count).Fits s)
    (hright : (inv.viewOfInput dtype 1 inv.count).Fits s)
    (hout : (inv.viewOfOutput dtype inv.count).Fits s) : ViewsFit op dtype inv s := by
  intro recipe hdoes
  obtain ⟨f, rfl⟩ := hdoes.pairwise hop
  simp [Recipe.views, hleft, hright, hout]

theorem broadcasting (hop : op ∈ Operation.broadcasting)
    (hv : (inv.viewOfInput dtype 0
      (if Tensor.overColumns op then inv.extents.rows else inv.extents.cols)).Fits s)
    (hm : (inv.viewOfOutput dtype inv.extents.grid.size).Fits s) : ViewsFit op dtype inv s := by
  intro recipe hdoes
  cases hover : Tensor.overColumns op with
  | false =>
    simp only [hover, Bool.false_eq_true, if_false] at hv
    rcases hdoes.overRows hop hover with ⟨f, rfl⟩ | rfl
    · simp [Recipe.views, hv, hm]
    · simp [Recipe.views, hv, hm]
  | true =>
    simp only [hover, if_true] at hv
    rcases hdoes.overColumns hop hover with ⟨f, rfl⟩ | rfl
    · simp [Recipe.views, hv, hm]
    · simp [Recipe.views, hv, hm]

theorem sums {which : Tensor.Summation}
    (hin : (inv.viewOfInput dtype 0 inv.extents.grid.size).Fits s)
    (hout : (inv.viewOfOutput dtype (which.length inv.extents.rows inv.extents.cols)).Fits s) :
    ViewsFit which.op dtype inv s := by
  intro recipe hdoes
  cases which with
  | rows =>
    obtain rfl := hdoes.sumRows
    simp only [Tensor.Summation.length] at hout
    simp [Recipe.views, hin, hout]
  | columns =>
    obtain rfl := hdoes.sumColumns
    simp only [Tensor.Summation.length] at hout
    simp [Recipe.views, hin, hout]

theorem softMax (hin : (inv.viewOfInput dtype 0 inv.extents.grid.size).Fits s)
    (hout : (inv.viewOfOutput dtype inv.extents.grid.size).Fits s) :
    ViewsFit .softMax dtype inv s := by
  intro recipe hdoes
  obtain ⟨F, rfl⟩ := hdoes.softMax
  simp [Recipe.views, hin, hout]

theorem gemm (hleft : (inv.viewOfInput dtype 0 inv.extents.leftGrid.size).Fits s)
    (hright : (inv.viewOfInput dtype 1 inv.extents.rightGrid.size).Fits s)
    (hout : (inv.viewOfOutput dtype (inv.extents.rows * inv.extents.cols)).Fits s) :
    ViewsFit .gemm dtype inv s := by
  intro recipe hdoes
  rcases hdoes.gemm with rfl | rfl
  · simp [Recipe.views, hleft, hright, hout]
  · simp [Recipe.views, hleft, hright, hout]

theorem axpy (hin : (inv.viewOfInput dtype 0 inv.count).Fits s)
    (hout : (inv.viewOfOutput dtype inv.count).Fits s) : ViewsFit .axpy dtype inv s := by
  intro recipe hdoes
  obtain rfl := hdoes.axpy
  simp [Recipe.views, hin, hout]

theorem fill (hout : (inv.viewOfOutput dtype inv.count).Fits s) : ViewsFit .fill dtype inv s := by
  intro recipe hdoes
  obtain rfl := hdoes.fill
  simp [Recipe.views, hout]

theorem cast (hin : (inv.viewOfInput dtype 0 inv.count).Fits s)
    (hout : (inv.viewOfOutput inv.outType inv.count).Fits s) : ViewsFit .cast dtype inv s := by
  intro recipe hdoes
  obtain rfl := hdoes.cast
  simp [Recipe.views, hin, hout]

theorem reduce (hop : op = .sum ∨ op = .nrm2)
    (hin : (inv.viewOfInput dtype 0 inv.count).Fits s)
    (hout : (inv.viewOfOutput .float64 1).Fits s) : ViewsFit op dtype inv s := by
  intro recipe hdoes
  obtain ⟨f, rfl⟩ := hdoes.reduce hop
  simp [Recipe.views, hin, hout]

theorem random (hop : op = .bernoulli ∨ op = .gaussian ∨ op = .uniform)
    (hout : (inv.viewOfOutput dtype inv.count).Fits s) : ViewsFit op dtype inv s := by
  intro recipe hdoes
  obtain ⟨D, rfl⟩ := hdoes.random hop
  simp [Recipe.views, hout]

end ViewsFit

/-- A launch of a host routine whose views fit fails for admissible reasons only. -/
theorem launch_admissible {op : Operation} {dtype : ElemType} {inv : Invocation} {s : Store}
    (hs : s.registry.OnHost) (h : ViewsFit op dtype inv s) :
    FailsIn Fault.Admissible (launch op dtype inv s).1 := by
  by_cases hn : inv.Stops (launch op dtype inv) s
  · exact hn.refused.failsIn fun _ => Fault.admissible_of_refuses
  rw [launch_result hn]
  rcases launchSeen_of_onHost hs op dtype inv with hnone | ⟨recipe, hdoes, heffect⟩
  · rw [hnone]
    exact .error trivial
  · obtain ⟨hseen, hresult⟩ := Recipe.effect_admissible hdoes.admissible (h recipe hdoes)
    rw [heffect]
    refine .bind (hseen.mapError fun _ he => RoutineFailure.toFault_admissible he) fun e he => ?_
    exact (hresult e (mapError_eq_ok_iff.mp he)).mapError
      fun _ he => RoutineFailure.toFault_admissible he

end DeviceTensor
