import DeviceTensor.Proofs.Routine.Asking
import DeviceTensor.Proofs.Tensor.Transparency
set_option autoImplicit false

/-!
# Results in new and in given tensors

Many operations have two forms: one makes a tensor for the result, the other writes the result into a
tensor that is given.  The forms plan the same launch, on outputs of their own, and the routine
overwrites its output.  So they leave the same elements, in the order in which they are stored, and
one succeeds where the other does, unless a device refuses the memory of the result.
-/

namespace DeviceTensor

open DeviceTensor.Except
open Tensor

/-- An operation that makes a tensor for its result or writes it into a tensor, on operands of type
`α`. -/
inductive Calculation (α : Type) where
  | map (op : Operation) (t : α) (x : Double)
  | zip (op : Operation) (lhs rhs : α)
  | sums (which : Summation) (t : α)
  | sumAxis (t : α) (axis : Nat)
  | softmax (t : α) (axis : Nat)
  | product (a b : α)
  deriving Repr

namespace Calculation

/-- The operands that are read. -/
def operands {α : Type} : Calculation α → List α
  | .map _ t _ => [t]
  | .zip _ lhs rhs => [lhs, rhs]
  | .sums _ t => [t]
  | .sumAxis t _ => [t]
  | .softmax t _ => [t]
  | .product a b => [a, b]

/-- The operand on whose device the result is made. -/
def first {α : Type} : Calculation α → α
  | .map _ t _ => t
  | .zip _ lhs _ => lhs
  | .sums _ t => t
  | .sumAxis t _ => t
  | .softmax t _ => t
  | .product a _ => a

/-- The operation belongs to its family. -/
def Proper {α : Type} : Calculation α → Prop
  | .map op _ _ => op ∈ Operation.pointwise
  | .zip op _ _ => op ∈ Operation.pairwise
  | _ => True

/-- Makes a tensor for the result. -/
def value : Calculation Tensor → Action Fault Tensor
  | .map op t x => t.map op x
  | .zip op lhs rhs => lhs.zip op rhs
  | .sums which t => t.sums which
  | .sumAxis t axis => t.sumAxis axis
  | .softmax t axis => t.softmax axis
  | .product a b => a.product b

/-- The computation that writes the result. -/
def computation : Calculation Tensor → Computation
  | .map op t x => .map op t x
  | .zip op lhs rhs => .zip op lhs rhs
  | .sums which t => .sums which t
  | .sumAxis t axis => .sumAxis t axis
  | .softmax t axis => .softmax t axis
  | .product a b => .product Double.one a b Double.zero

/-- Writes the result into a tensor. -/
def into (f : Calculation Tensor) (out : Tensor) : Action Fault Unit := f.computation.into out

/-- The output passes the checks that the operation makes of it; how many elements it must have is
known only if the operands have a result. -/
def Accepts (out : Tensor) (s : Store) : Calculation Tensor → Prop
  | .map _ t _ => checkOutputLike t out s = .ok ()
  | .zip _ lhs _ => checkOutputLike lhs out s = .ok ()
  | .sums which t => ∀ dims, t.asMatrix = .ok dims →
    checkOutput t out (which.length dims.1 dims.2) s = .ok ()
  | .sumAxis t axis => ∀ c, t.collapse axis = .ok c → checkOutput t out c.length s = .ok ()
  | .softmax t _ => checkOutputLike t out s = .ok ()
  | .product a b => ∀ p, productExtents a b = .ok p →
    checkOutput a out (p.2.rows * p.2.cols) s = .ok () ∧ out.transposed = false

/-- The shape and the storage order of the result. -/
def form : Calculation Tensor → Except Fault (Shape × Bool)
  | .map _ t _ => .ok (t.shape, t.transposed)
  | .zip _ lhs _ => .ok (lhs.shape, lhs.transposed)
  | .sums which t => do
    let (rows, cols) ← t.asMatrix
    return ([which.length rows cols], false)
  | .sumAxis t axis => do
    let c ← t.collapse axis
    return ([c.length], false)
  | .softmax t _ => .ok (t.shape, t.transposed)
  | .product a b => do
    let (shape, _) ← productExtents a b
    return (shape, false)

variable {f : Calculation Tensor} {s s' s₁ : Store} {out out' : Tensor} {i : Issue}

theorem first_mem (f : Calculation Tensor) : f.first ∈ f.operands := by
  cases f <;> exact List.mem_cons_self

theorem into_keeps (f : Calculation Tensor) (out : Tensor) : (f.into out).Within Store.Keeps := by
  cases f with
  | map op t x => exact mapTo_keeps op t x out
  | zip op lhs rhs => exact zipTo_keeps op lhs rhs out
  | sums which t => exact sumsTo_keeps which t out
  | sumAxis t axis => exact sumAxisTo_keeps t axis out
  | softmax t axis => exact softmaxTo_keeps t axis out
  | product a b => exact productScaled_keeps Double.one a b Double.zero out

/-! ## Plans -/

/-- The launch runs on the output and the blocks of the operands. -/
structure LaunchesOn (f : Calculation Tensor) (out : Tensor) (inv : Invocation) : Prop where
  device : inv.device = out.device
  output : out.block = some inv.output
  first : ∃ src, f.first.block = some src ∧ inv.inputs[0]? = some src
  inputs : ∀ b ∈ inv.inputs, ∃ t ∈ f.operands, t.block = some b

theorem launchesOn_one {t : Tensor} {make : BlockId → BlockId → Invocation} {inv : Invocation}
    (hfirst : f.first = t) (h : PlansOne t out make inv)
    (hmake : ∀ dst src, (make dst src).device = out.device ∧ (make dst src).output = dst ∧
      (make dst src).inputs = [src]) : f.LaunchesOn out inv := by
  obtain ⟨dst, hdst, src, hsrc, rfl⟩ := h
  obtain ⟨hdevice, houtput, hinputs⟩ := hmake dst src
  subst hfirst
  constructor
  · exact hdevice
  · rw [hdst, houtput]
  · exact ⟨src, hsrc, by rw [hinputs]; rfl⟩
  · intro b hb
    rw [hinputs] at hb
    obtain rfl := List.mem_singleton.mp hb
    exact ⟨f.first, f.first_mem, hsrc⟩

theorem launchesOn_two {lhs rhs : Tensor} {make : BlockId → BlockId → BlockId → Invocation}
    {inv : Invocation} (hoperands : f.operands = [lhs, rhs]) (hfirst : f.first = lhs)
    (h : PlansTwo lhs rhs out make inv)
    (hmake : ∀ dst left right, (make dst left right).device = out.device ∧
      (make dst left right).output = dst ∧ (make dst left right).inputs = [left, right]) :
    f.LaunchesOn out inv := by
  obtain ⟨dst, hdst, left, hleft, right, hright, rfl⟩ := h
  obtain ⟨hdevice, houtput, hinputs⟩ := hmake dst left right
  constructor
  · exact hdevice
  · rw [hdst, houtput]
  · exact ⟨left, hfirst ▸ hleft, by rw [hinputs]; rfl⟩
  · intro b hb
    rw [hinputs] at hb
    rw [hoperands]
    rcases List.mem_pair.mp hb with rfl | rfl
    · exact ⟨lhs, List.mem_cons_self, hleft⟩
    · exact ⟨rhs, List.mem_cons_of_mem _ List.mem_cons_self, hright⟩

theorem recipe_of_sums (which : Summation) {inv : Invocation} {d : ElemType} {n : Nat}
    (hn : n = which.length inv.extents.rows inv.extents.cols) (recipe : Recipe d)
    (hdoes : recipe.Does which.op) :
    recipe.Overwrites inv ∧ (recipe.outputView inv).count = n := by
  subst hn
  cases which with
  | rows =>
    obtain rfl := hdoes.sumRows
    exact ⟨trivial, rfl⟩
  | columns =>
    obtain rfl := hdoes.sumColumns
    exact ⟨trivial, rfl⟩

theorem prod_of_split {shape : Shape} {axis rows cols : Nat}
    (hrows : Size.product (shape.take axis) = .ok rows)
    (hcols : Size.product (shape.drop axis) = .ok cols) : rows * cols = shape.prod := by
  rw [Size.eq_prod_of_product hrows, Size.eq_prod_of_product hcols, ← List.prod_append_nat,
    List.take_append_drop]

/-- The launch that is planned for an output: its routine overwrites the elements of the output, and
no others. -/
structure Planned (f : Calculation Tensor) (out : Tensor) (s : Store) (i : Issue) : Prop where
  on : f.LaunchesOn out i.inv
  dtype : i.dtype = f.first.dtype
  kind : SameKind f.first out s
  recipe : ∀ recipe : Recipe i.dtype, recipe.Does i.op →
    recipe.Overwrites i.inv ∧ (recipe.outputView i.inv).count = out.count s

theorem planned (hf : f.Proper) (hv : f.first.Valid s)
    (h : f.computation.plan out s = .ok i) : f.Planned out s i := by
  cases f with
  | map op t x =>
    obtain ⟨inv, hinv, rfl⟩ := Issue.planned_iff.mp h
    obtain ⟨⟨⟨hkind, hcount⟩, -⟩, hp⟩ := planMap_eq_ok_iff.mp hinv
    refine ⟨launchesOn_one rfl hp fun _ _ => ⟨rfl, rfl, rfl⟩, rfl, hkind, fun recipe hdoes => ?_⟩
    obtain ⟨dst, -, src, -, rfl⟩ := hp
    rcases hdoes.pointwise hf with ⟨k, rfl⟩ | ⟨k, rfl⟩
    · exact ⟨trivial, hcount.symm⟩
    · exact ⟨trivial, hcount.symm⟩
  | zip op lhs rhs =>
    obtain ⟨inv, hinv, rfl⟩ := Issue.planned_iff.mp h
    obtain ⟨-, -, ⟨⟨hkind, hcount⟩, -⟩, hp⟩ := planZip_eq_ok_iff.mp hinv
    refine ⟨launchesOn_two rfl rfl hp fun _ _ _ => ⟨rfl, rfl, rfl⟩, rfl, hkind,
      fun recipe hdoes => ?_⟩
    obtain ⟨dst, -, left, -, right, -, rfl⟩ := hp
    obtain ⟨k, rfl⟩ := hdoes.pairwise hf
    exact ⟨trivial, hcount.symm⟩
  | sums which t =>
    obtain ⟨inv, hinv, rfl⟩ := Issue.planned_iff.mp h
    obtain ⟨⟨rows, cols⟩, -, hinv⟩ := bind_eq_ok_iff.mp hinv
    obtain ⟨⟨hkind, hcount⟩, hp⟩ := planSums_eq_ok_iff.mp hinv
    refine ⟨launchesOn_one rfl hp fun _ _ => ⟨rfl, rfl, rfl⟩, rfl, hkind, ?_⟩
    obtain ⟨dst, -, src, -, rfl⟩ := hp
    exact recipe_of_sums which hcount
  | sumAxis t axis =>
    obtain ⟨c, hc, h⟩ := bind_eq_ok_iff.mp h
    obtain ⟨inv, hinv, rfl⟩ := Issue.planned_iff.mp h
    obtain ⟨⟨hkind, hcount⟩, hp⟩ := planSums_eq_ok_iff.mp hinv
    refine ⟨launchesOn_one rfl hp fun _ _ => ⟨rfl, rfl, rfl⟩, rfl, hkind, ?_⟩
    obtain ⟨dst, -, src, -, rfl⟩ := hp
    exact recipe_of_sums c.which (hcount.trans (size_of_collapse hc).2)
  | softmax t axis =>
    obtain ⟨inv, hinv, rfl⟩ := Issue.planned_iff.mp h
    obtain ⟨-, ⟨⟨hkind, hcount⟩, -⟩, rows, hrows, cols, hcols, hp⟩ := planSoftmax_eq_ok_iff.mp hinv
    refine ⟨launchesOn_one rfl hp fun _ _ => ⟨rfl, rfl, rfl⟩, rfl, hkind, fun recipe hdoes => ?_⟩
    obtain ⟨dst, -, src, hsrc, rfl⟩ := hp
    obtain ⟨F, rfl⟩ := hdoes.softMax
    refine ⟨trivial, ?_⟩
    calc rows * cols = t.shape.prod := prod_of_split hrows hcols
      _ = t.count s := ((hv.filled src hsrc).count hsrc).symm
      _ = out.count s := hcount.symm
  | product a b =>
    obtain ⟨inv, hinv, rfl⟩ := Issue.planned_iff.mp h
    obtain ⟨-, p, -, count, hmul, ⟨hkind, hcount⟩, -, hp⟩ := planProduct_eq_ok_iff.mp hinv
    refine ⟨launchesOn_two rfl rfl hp fun _ _ _ => ⟨rfl, rfl, rfl⟩, rfl, hkind,
      fun recipe hdoes => ?_⟩
    obtain ⟨dst, -, left, -, right, -, rfl⟩ := hp
    have hsize : p.2.rows * p.2.cols = out.count s :=
      (hcount.trans (Size.mul_eq_ok_iff.mp hmul).2).symm
    rcases hdoes.gemm with rfl | rfl
    · exact ⟨rfl, hsize⟩
    · exact ⟨rfl, hsize⟩

/-! ## Another output -/

/-- The stores have the same routines and backends, and what can be seen of the operands is the
same. -/
structure SameOperands (f : Calculation Tensor) (s s' : Store) : Prop where
  registry : s'.registry = s.registry
  library : s'.library = s.library
  backend : ∀ d, s'.backend d = s.backend d
  sight : ∀ t ∈ f.operands, ∀ b, t.block = some b → Block.sight b s' = Block.sight b s

namespace SameOperands

theorem symm (h : f.SameOperands s s') : f.SameOperands s' s :=
  ⟨h.registry.symm, h.library.symm, fun d => (h.backend d).symm,
    fun t ht b hb => (h.sight t ht b hb).symm⟩

theorem count (h : f.SameOperands s s') {t : Tensor} (ht : t ∈ f.operands) :
    t.count s' = t.count s := by
  unfold Tensor.count byteSize
  cases hb : t.block with
  | none => rfl
  | some b =>
    have hsize : (s'.block b).size = (s.block b).size := congrArg Sight.size (h.sight t ht b hb)
    dsimp only
    rw [hsize]

theorem sameKind (h : f.SameOperands s s') {a b : Tensor} (hk : SameKind a b s) :
    SameKind a b s' := by
  refine ⟨hk.1, ?_⟩
  rw [h.backend, h.backend]
  exact hk.2

end SameOperands

/-- The launch on another output. -/
def onto (i : Issue) (device : DeviceId) (b : BlockId) : Issue :=
  { i with inv := { i.inv with device := device, output := b } }

section Onto

variable {t lhs rhs : Tensor} {b : BlockId} {inv : Invocation}

theorem plansOne_onto {make make' : BlockId → BlockId → Invocation} (hb : out'.block = some b)
    (h : PlansOne t out make inv)
    (hmake : ∀ dst src,
      make' b src = { make dst src with device := out'.device, output := b }) :
    PlansOne t out' make' { inv with device := out'.device, output := b } := by
  obtain ⟨dst, -, src, hsrc, rfl⟩ := h
  exact ⟨b, hb, src, hsrc, hmake dst src⟩

theorem plansTwo_onto {make make' : BlockId → BlockId → BlockId → Invocation}
    (hb : out'.block = some b) (h : PlansTwo lhs rhs out make inv)
    (hmake : ∀ dst left right,
      make' b left right = { make dst left right with device := out'.device, output := b }) :
    PlansTwo lhs rhs out' make' { inv with device := out'.device, output := b } := by
  obtain ⟨dst, -, left, hleft, right, hright, rfl⟩ := h
  exact ⟨b, hb, left, hleft, right, hright, hmake dst left right⟩

/-- The launch that is planned for one output is planned for every output that passes the checks. -/
theorem plan_onto (hs : f.SameOperands s s') (h : f.computation.plan out s = .ok i)
    (hout : f.Accepts out' s') (hb : out'.block = some b) :
    f.computation.plan out' s' = .ok (onto i out'.device b) := by
  cases f with
  | map op t x =>
    obtain ⟨inv, hinv, rfl⟩ := Issue.planned_iff.mp h
    obtain ⟨-, hp⟩ := planMap_eq_ok_iff.mp hinv
    refine Issue.planned_iff.mpr ⟨_, planMap_eq_ok_iff.mpr ⟨?_, plansOne_onto hb hp ?_⟩, rfl⟩
    · exact checkOutputLike_eq_ok_iff.mp hout
    · intro dst src
      rw [hs.count List.mem_cons_self]
  | zip op lhs rhs =>
    obtain ⟨inv, hinv, rfl⟩ := Issue.planned_iff.mp h
    obtain ⟨hkind, hform, -, hp⟩ := planZip_eq_ok_iff.mp hinv
    refine Issue.planned_iff.mpr ⟨_, planZip_eq_ok_iff.mpr
      ⟨hs.sameKind hkind, hform, ?_, plansTwo_onto hb hp ?_⟩, rfl⟩
    · exact checkOutputLike_eq_ok_iff.mp hout
    · intro dst left right
      rw [hs.count List.mem_cons_self]
  | sums which t =>
    obtain ⟨inv, hinv, rfl⟩ := Issue.planned_iff.mp h
    obtain ⟨dims, hdims, hinv⟩ := bind_eq_ok_iff.mp hinv
    obtain ⟨-, hp⟩ := planSums_eq_ok_iff.mp hinv
    refine Issue.planned_iff.mpr ⟨_, bind_eq_ok_iff.mpr ⟨dims, hdims,
      planSums_eq_ok_iff.mpr ⟨?_, plansOne_onto hb hp ?_⟩⟩, rfl⟩
    · exact checkOutput_eq_ok_iff.mp (hout dims hdims)
    · intro dst src
      rw [hs.count List.mem_cons_self]
  | sumAxis t axis =>
    obtain ⟨c, hc, h⟩ := bind_eq_ok_iff.mp h
    obtain ⟨inv, hinv, rfl⟩ := Issue.planned_iff.mp h
    obtain ⟨-, hp⟩ := planSums_eq_ok_iff.mp hinv
    refine bind_eq_ok_iff.mpr ⟨c, hc, Issue.planned_iff.mpr ⟨_,
      planSums_eq_ok_iff.mpr ⟨?_, plansOne_onto hb hp ?_⟩, rfl⟩⟩
    · exact checkOutput_eq_ok_iff.mp (hout c hc)
    · intro dst src
      rw [hs.count List.mem_cons_self]
  | softmax t axis =>
    obtain ⟨inv, hinv, rfl⟩ := Issue.planned_iff.mp h
    obtain ⟨haxis, -, rows, hrows, cols, hcols, hp⟩ := planSoftmax_eq_ok_iff.mp hinv
    refine Issue.planned_iff.mpr ⟨_, planSoftmax_eq_ok_iff.mpr
      ⟨haxis, ?_, rows, hrows, cols, hcols, plansOne_onto hb hp ?_⟩, rfl⟩
    · exact checkOutputLike_eq_ok_iff.mp hout
    · intro dst src
      rw [hs.count List.mem_cons_self]
  | product a c =>
    obtain ⟨inv, hinv, rfl⟩ := Issue.planned_iff.mp h
    obtain ⟨hkind, p, hx, count, hmul, hof, -, hp⟩ := planProduct_eq_ok_iff.mp hinv
    obtain ⟨hcheck, hflag⟩ := hout p hx
    have hof' := checkOutput_eq_ok_iff.mp hcheck
    rw [← (Size.mul_eq_ok_iff.mp hmul).2] at hof'
    refine Issue.planned_iff.mpr ⟨_, planProduct_eq_ok_iff.mpr
      ⟨hs.sameKind hkind, p, hx, count, hmul, hof', hflag, plansTwo_onto hb hp ?_⟩, rfl⟩
    intro dst left right
    rw [hof.2, hof'.2]

end Onto

/-- The launch on another output reads the same inputs. -/
theorem sameInputs_onto (hs : f.SameOperands s s') (hp : f.LaunchesOn out i.inv)
    (device : DeviceId) (b : BlockId) : i.inv.SameInputs s (onto i device b).inv s' where
  count := rfl
  alpha := rfl
  beta := rfl
  extents := rfl
  library := hs.library
  seen d index n := by
    have hinputs : (onto i device b).inv.inputs = i.inv.inputs := rfl
    unfold Invocation.inputSeen
    rw [hinputs]
    cases hget : i.inv.inputs[index]? with
    | none => rfl
    | some k =>
      obtain ⟨t, ht, hk⟩ := hp.inputs k (List.mem_of_getElem? hget)
      dsimp only
      rw [Block.seen_congr (hs.sight t ht k hk)]

end Calculation

namespace Tensor

/-! ## Memory that the host addresses -/

/-- The tensor lies on a device whose memory the host addresses, and its memory is bound, or granted
whenever it is asked for. -/
structure Viewable (t : Tensor) (s : Store) : Prop where
  addressable : (s.device t.device).addressable = true
  supplies : ∀ b, t.block = some b → s.Supplies b

variable {t : Tensor} {s : Store} {b : BlockId} {d : ElemType} {n : Nat}

theorem ne_unbound_of_isBound (hb : t.block = some b) (hbound : t.isBound s = true) :
    (s.block b).memory ≠ .unbound := by
  intro hu
  unfold isBound at hbound
  rw [hb] at hbound
  dsimp only at hbound
  rw [hu] at hbound
  cases hbound

/-- A tensor whose memory is bound needs none. -/
theorem supplies_of_bound (hb : t.block = some b) (hbound : t.isBound s = true) : s.Supplies b :=
  fun hu => absurd hu (ne_unbound_of_isBound hb hbound)

theorem viewable_of_bound (haddressable : (s.device t.device).addressable = true)
    (hbound : t.isBound s = true) : t.Viewable s :=
  ⟨haddressable, fun _ hb => supplies_of_bound hb hbound⟩

/-- A tensor whose block can be seen is one that the host addresses. -/
theorem addressable_of_seen (hv : t.Valid s) (hb : t.block = some b) {xs : Array (Elem d)}
    (h : Block.seen b d n s = .ok xs) : (s.device t.device).addressable = true := by
  obtain ⟨_, hview, -⟩ := bind_eq_ok_iff.mp h
  have haddressable := (Block.checkView_eq_ok_iff.mp hview).1
  unfold Store.owner at haddressable
  rwa [(hv.filled b hb).place] at haddressable

/-- What fits into the block of a tensor that the host addresses can be seen. -/
theorem seen_of_addressable (hv : t.Valid s) (hb : t.block = some b)
    (h : (s.device t.device).addressable = true) (hn : n * d.width ≤ (s.block b).size) :
    Block.seen b d n s = .ok (Elem.decode d n (s.block b).contents) := by
  have hf := hv.filled b hb
  have hview : Block.checkView b d n s = .ok () := by
    refine Block.checkView_eq_ok_iff.mpr ⟨?_, Nat.lt_of_le_of_lt hn (hf.size ▸ hf.small), hn⟩
    unfold Store.owner
    rw [hf.place]
    exact h
  unfold Block.seen
  rw [hview]
  rfl

theorem Owned.size_of_count (ho : t.Owned s) (hb : t.block = some b) :
    (s.block b).size = t.count s * t.dtype.width := by
  have hf := ho.valid.filled b hb
  rw [hf.count hb, hf.size]

/-- What a tensor stores that the host addresses is seen. -/
theorem seen_stored (ho : t.Owned s) (hb : t.block = some b)
    (h : (s.device t.device).addressable = true) :
    Block.seen b t.dtype (t.count s) s = .ok (t.stored t.dtype s) := by
  rw [stored_of_block hb]
  exact seen_of_addressable ho.valid hb h (Nat.le_of_eq (ho.size_of_count hb).symm)

/-- A view of one output follows that of another output of its size. -/
theorem outputFollows_of_addressable {out' : Tensor} {s' : Store} {inv inv' : Invocation}
    (hb' : out'.block = some inv'.output) (hv' : out'.Valid s')
    (haddressable : (s'.device out'.device).addressable = true)
    (hsize : (s'.block inv'.output).size = (s.block inv.output).size) :
    inv.OutputFollows s inv' s' := by
  intro d n xs hxs
  obtain ⟨-, b, hsome, hle⟩ := Invocation.possible_of_outputSeen hxs
  cases hsome
  have hseen := seen_of_addressable hv' hb' haddressable (hsize ▸ hle)
  exact ⟨_, mapError_eq_ok_iff.mpr hseen, trivial⟩

end Tensor

namespace Calculation

variable {f : Calculation Tensor} {s s' s₁ : Store} {out out' : Tensor} {i : Issue} {b : BlockId}

/-- A launch that succeeds is followed by the launch on another output, which leaves the same
elements, unless a device refuses it memory. -/
theorem launch_onto (hs : f.SameOperands s s') (hhost : s.registry.OnHost)
    (hp : f.Planned out s i) (hp' : f.Planned out' s' (onto i out'.device b))
    (ho : out.Owned s) (ho' : out'.Owned s')
    (haddressable : (s'.device out'.device).addressable = true) :
    Action.Follows (fun _ s₁ _ s₁' => out'.dtype = out.dtype ∧
      out'.stored out.dtype s₁' = out.stored out.dtype s₁) i.launch s
      (onto i out'.device b).launch s' := by
  obtain ⟨op, dtype, inv⟩ := i
  obtain rfl : out.dtype = dtype := (hp.dtype.trans hp.kind.1).symm
  have hdtype : out'.dtype = out.dtype := (hp'.dtype.trans hp'.kind.1).symm
  have hblock : out.block = some inv.output := hp.on.output
  have hblock' : out'.block = some b := hp'.on.output
  have hbackend : s'.backend out'.device = s.backend inv.device := by
    rw [show inv.device = out.device from hp.on.device, ← hp.kind.2, ← hp'.kind.2, hs.backend]
  have hrecipe (recipe : Recipe out.dtype) (hdoes : recipe.Does op) :
      Follows (Effect.Leaves (d := out.dtype) fun r r' =>
          Recipe.Same (out.count s) r r' ∧ out'.count s' = out.count s)
        (recipe.effect inv s)
        (recipe.effect { inv with device := out'.device, output := b } s') := by
    obtain ⟨hover, hcount⟩ := hp.recipe recipe hdoes
    obtain ⟨-, hcount'⟩ := hp'.recipe recipe hdoes
    have hsame : out'.count s' = out.count s :=
      hcount'.symm.trans ((recipe.count_outputView_onto inv out'.device b).trans hcount)
    have hsize : (s'.block b).size = (s.block inv.output).size := by
      rw [ho'.size_of_count hblock', ho.size_of_count hblock, hsame, hdtype]
    have hleaves := hover.effect_follows (sameInputs_onto hs hp.on out'.device b)
      (outputFollows_of_addressable hblock' ho'.valid haddressable hsize)
    apply hleaves.mono
    rintro e e' ⟨o, o', he, he', hdone⟩
    exact ⟨o, o', he, he', hdone.mono fun r r' hr => ⟨hcount ▸ hr, hsame⟩⟩
  rintro ⟨⟩ s₁ hrun
  refine (launch_follows (launchSeen_follows hhost hs.registry hbackend hrecipe) (ho.lt hblock)
    (ho.live hblock) (ho'.lt hblock') (ho'.live hblock') hrun).imp_left ?_
  rintro ⟨s₁', r, _, hrun', ⟨⟨rfl, hsize⟩, hsame⟩, hcontents, hcontents'⟩
  have hkeeps : s.Keeps s₁ := by
    have hwithin := launch_keeps op out.dtype inv s
    rwa [show DeviceTensor.launch op out.dtype inv s = _ from hrun] at hwithin
  have hkeeps' : s'.Keeps s₁' := by
    have hwithin := launch_keeps op out.dtype { inv with device := out'.device, output := b } s'
    rwa [hrun'] at hwithin
  have hcount := (ho.valid.filled _ hblock).count hblock
  have hcount' := (ho'.valid.filled _ hblock').count hblock'
  refine ⟨(), s₁', hrun', hdtype, ?_⟩
  rw [stored_of_contents ho hkeeps hblock rfl ?_ hcontents,
    stored_of_contents ho' hkeeps' hblock' hdtype ?_ hcontents']
  · rw [size_grid, ← hcount', hsame, hsize]
  · rw [size_grid, ← hcount, hsize]

theorem count_lt_limit {t : Tensor} (ho : t.Owned s) (hb : t.block = some b) :
    t.count s < Size.limit := by
  have hf := ho.valid.filled b hb
  rw [hf.count hb]
  exact Nat.lt_of_le_of_lt (Nat.le_mul_of_pos_right _ t.dtype.width_pos) hf.small

theorem into_eq_ok_iff :
    f.into out s = (.ok (), s₁) ↔
      ∃ i, f.computation.plan out s = .ok i ∧ i.launch s = (.ok (), s₁) := by
  unfold into
  rw [Computation.into_eq, Action.bind_eq_ok_iff]
  constructor
  · rintro ⟨i, _, hi, hrun⟩
    obtain ⟨hplan, rfl⟩ := Action.examine_eq_ok_iff.mp hi
    exact ⟨i, hplan, hrun⟩
  · rintro ⟨i, hplan, hrun⟩
    exact ⟨i, s, Action.examine_eq_ok_iff.mpr ⟨hplan, rfl⟩, hrun⟩

/-- Once it is planned, the result is that of the launch. -/
theorem into_result (h : f.computation.plan out s = .ok i) :
    (f.into out s).1 = (i.launch s).1 := by
  unfold into
  rw [Computation.into_eq, Action.examine_bind_apply h]

/-- If the result can be written into one tensor, then the same elements can be written into every
tensor that is accepted and that the host addresses, unless a device refuses memory. -/
theorem into_onto (hf : f.Proper) (hs : f.SameOperands s s') (hhost : s.registry.OnHost)
    (hv : f.first.Valid s) (hv' : f.first.Valid s') (ho : out.Owned s) (ho' : out'.Owned s')
    (hb : out'.block = some b) (haccepts : f.Accepts out' s')
    (haddressable : (s'.device out'.device).addressable = true) :
    Action.Follows (fun _ s₁ _ s₁' => out'.dtype = out.dtype ∧
      out'.stored out.dtype s₁' = out.stored out.dtype s₁) (f.into out) s (f.into out') s' := by
  rintro ⟨⟩ s₁ hinto
  obtain ⟨i, hplan, hrun⟩ := into_eq_ok_iff.mp hinto
  have hplan' := plan_onto hs hplan haccepts hb
  refine (launch_onto hs hhost (planned hf hv hplan) (planned hf hv' hplan') ho ho' haddressable ()
    s₁ hrun).imp ?_ fun hrefused => ?_
  · rintro ⟨⟨⟩, s₁', hrun', hsame⟩
    exact ⟨(), s₁', into_eq_ok_iff.mpr ⟨_, hplan', hrun'⟩, hsame⟩
  · rwa [into_result hplan']

/-- The blocks of the operands. -/
def blocks (f : Calculation Tensor) : List BlockId := f.operands.flatMap Tensor.held

/-- An operation that writes its result into a tensor is refused memory only where it is refused it
with another output too, or because the output is. -/
theorem into_asks (hf : f.Proper) (hs : f.SameOperands s s') (hon : s.SameOn f.blocks s')
    (hhost : s.registry.OnHost) (hv : f.first.Valid s) (hv' : f.first.Valid s')
    (hb : out'.block = some b) (haccepts : f.Accepts out' s')
    (hplan : f.computation.plan out s = .ok i) {fault : Fault}
    (h : (f.into out' s').1 = .error fault) (hrefuses : MemoryFailure.refuses fault = true) :
    Refused (f.into out s).1 ∨ fault.RefusesBlock b s' := by
  have hp := planned hf hv hplan
  have hplan' := plan_onto hs hplan haccepts hb
  have hp' := planned hf hv' hplan'
  obtain ⟨op, dtype, inv⟩ := i
  have hinputs : inv.inputs ⊆ f.blocks := by
    intro c hc
    obtain ⟨t, ht, htc⟩ := hp.on.inputs c hc
    exact List.mem_flatMap.mpr ⟨t, ht, by simp [Tensor.held, htc]⟩
  have hbackend : s'.backend out'.device = s.backend inv.device := by
    rw [show inv.device = out.device from hp.on.device, ← hp.kind.2, ← hp'.kind.2, hs.backend]
  rw [into_result hplan'] at h
  rw [into_result hplan]
  exact launch_asks hhost hs.registry hbackend (fun recipe hdoes => (hp.recipe recipe hdoes).1)
    (hon.mono hinputs) h hrefuses

/-- An operation reads its first operand and writes its output through the host. -/
theorem addressable_of_into (hf : f.Proper) (hhost : s.registry.OnHost) (hfirst : f.first.Valid s)
    (ho : out.Valid s) (h : f.into out s = (.ok (), s₁)) :
    (s.device f.first.device).addressable = true ∧ (s.device out.device).addressable = true := by
  obtain ⟨i, hplan, hrun⟩ := into_eq_ok_iff.mp h
  have hp := planned hf hfirst hplan
  have hresult : (DeviceTensor.launch i.op i.dtype i.inv s).1 = .ok () := congrArg Prod.fst hrun
  have hn : ¬i.inv.Stops (DeviceTensor.launch i.op i.dtype i.inv) s :=
    Invocation.not_stops_of_not_refused (by rw [hresult]; exact id)
  rw [launch_result hn] at hresult
  obtain ⟨e, he, -⟩ := bind_eq_ok_iff.mp hresult
  rcases launchSeen_of_onHost hhost i.op i.dtype i.inv with hmissing | ⟨recipe, hdoes, hrecipe⟩
  · rw [hmissing] at he
    cases he
  · rw [hrecipe] at he
    obtain ⟨⟨n, xs, hinput⟩, m, ys, houtput⟩ :=
      (hp.recipe recipe hdoes).1.sees (mapError_eq_ok_iff.mp he)
    refine ⟨?_, addressable_of_seen ho hp.on.output (mapError_eq_ok_iff.mp houtput)⟩
    obtain ⟨src, hsrc, hget⟩ := hp.on.first
    unfold Invocation.inputSeen at hinput
    rw [hget] at hinput
    exact addressable_of_seen hfirst hsrc (mapError_eq_ok_iff.mp hinput)

end Calculation

end DeviceTensor
