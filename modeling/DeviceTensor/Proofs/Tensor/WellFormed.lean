import DeviceTensor.Proofs.Routine.Views
import DeviceTensor.Proofs.Tensor.Check
set_option autoImplicit false

/-!
# Well-formed launches

The checks of an operation count elements and compare shapes, and a routine sizes its views from
extents and from the widths of elements.  For valid tensors the checks suffice: the launch that a
computation plans passes blocks of its operands, on the backend and of the element type of its key,
and every view of its routine fits.
-/

namespace DeviceTensor

open DeviceTensor.Except

/-- A launch, and the tensors on whose blocks it works. -/
structure Launched where
  issue : Issue
  inputs : List Tensor
  output : Tensor
  deriving DecidableEq, Repr

namespace Launched

/-- The key of the launch. -/
def key (l : Launched) (s : Store) : RoutineKey :=
  .onDevice l.issue.dtype l.issue.op l.issue.inv.device s

/-- The operations whose output has an element type of its own. -/
def retyping : List Operation := [.cast, .sum, .nrm2]

/-- The operands suit the routine. -/
structure WellFormed (l : Launched) (s : Store) : Prop where
  inputs : l.inputs.map Tensor.block = l.issue.inv.inputs.map some
  output : l.output.block = some l.issue.inv.output
  /-- Every block lies on a device of the backend of the key. -/
  place : ∀ b ∈ l.issue.inv.output :: l.issue.inv.inputs,
    s.backend (s.block b).device = (l.key s).backend
  dtype : ∀ t ∈ l.inputs, t.dtype = (l.key s).dtype
  outputType : l.issue.op ∉ retyping → l.output.dtype = (l.key s).dtype
  views : ViewsFit l.issue.op l.issue.dtype l.issue.inv s

end Launched

namespace Tensor

variable {s : Store} {a b t v m out lhs rhs : Tensor} {inv : Invocation} {op : Operation}

/-! ## Operands -/

theorem Fills.fits {k : BlockId} (h : t.Fills k s) {n : Nat} (hn : n ≤ t.shape.prod) :
    View.Fits ⟨some k, t.dtype, n⟩ s := by
  refine ⟨k, rfl, ?_⟩
  rw [h.size]
  exact Nat.mul_le_mul_right _ hn

theorem Valid.fits {k : BlockId} (h : t.Valid s) (hk : t.block = some k) {d : ElemType}
    (hd : t.dtype = d) {n : Nat} (hn : n ≤ t.count s) : View.Fits ⟨some k, d, n⟩ s := by
  have hf := h.filled k hk
  rw [hf.count hk] at hn
  exact hd ▸ hf.fits hn

theorem SameKind.trans (h : SameKind a b s) (h' : SameKind b t s) : SameKind a t s :=
  ⟨h.1.trans h'.1, h.2.trans h'.2⟩

theorem SameKind.symm (h : SameKind a b s) : SameKind b a s := ⟨h.1.symm, h.2.symm⟩

/-- The input lies on the backend of the output, and has the type of the key. -/
structure Suits (t : Tensor) (dtype : ElemType) (d : DeviceId) (s : Store) : Prop where
  valid : t.Valid s
  dtype : t.dtype = dtype
  backend : s.backend t.device = s.backend d

theorem SameKind.suits (h : SameKind t out s) (ht : t.Valid s) : t.Suits out.dtype out.device s :=
  ⟨ht, h.1, h.2⟩

/-- A launch is well formed if its operands suit it and its views fit. -/
theorem wellFormed_of {i : Issue} {ts : List Tensor}
    (hin : ts.map Tensor.block = i.inv.inputs.map some)
    (hsuits : ∀ t ∈ ts, t.Suits i.dtype i.inv.device s) (hout : out.block = some i.inv.output)
    (hplace : (s.block i.inv.output).device = i.inv.device)
    (htype : i.op ∉ Launched.retyping → out.dtype = i.dtype)
    (hviews : ViewsFit i.op i.dtype i.inv s) : Launched.WellFormed ⟨i, ts, out⟩ s where
  inputs := hin
  output := hout
  place k hk := by
    cases hk with
    | head => rw [hplace]; rfl
    | tail _ hk =>
      have hmem : some k ∈ ts.map Tensor.block := hin ▸ List.mem_map_of_mem hk
      obtain ⟨t, ht, hblock⟩ := List.mem_map.mp hmem
      rw [((hsuits t ht).valid.filled k hblock).place]
      exact (hsuits t ht).backend
  dtype t ht := (hsuits t ht).dtype
  outputType := htype
  views := hviews

/-! ## Matrices and their elements -/

theorem size_of_asMatrix {dims : Nat × Nat} (h : t.asMatrix = .ok dims) :
    dims.1 * dims.2 = t.shape.prod := by
  unfold asMatrix at h
  split at h
  · rename_i n hs
    cases h
    rw [hs]
    simp
  · rename_i rows cols hs
    cases h
    rw [hs]
    simp
  · cases h

theorem size_of_collapse {axis : Nat} {c : Collapse} (h : t.collapse axis = .ok c) :
    c.grid.size = t.shape.prod ∧ c.length = c.which.length c.grid.rows c.grid.cols := by
  unfold collapse at h
  split at h
  · rename_i n hs
    split at h
    · cases h
      simp [hs, Grid.size, Summation.length]
    · cases h
  · rename_i rows cols hs
    split at h
    · cases h
      simp [hs, Grid.size, Summation.length]
    · cases h
      simp [hs, Grid.size, Summation.length]
    · cases h
  · cases h

/-- The extents of a product are those of its operands. -/
theorem size_of_productDims {shape : Shape} {rows cols ka kb : Nat}
    (h : productDims a b = .ok (shape, rows, cols, ka, kb)) :
    rows * ka = a.shape.prod ∧ kb * cols = b.shape.prod ∧ shape.prod = rows * cols := by
  unfold productDims at h
  split at h
  all_goals try cases h
  all_goals simp_all

end Tensor

/-! ## Computations -/

namespace Computation

open Tensor

variable {s : Store} {t out : Tensor} {inv : Invocation}

/-- The operation belongs to the family of the computation. -/
def Proper : Computation → Prop
  | .map op _ _ => op ∈ Operation.pointwise
  | .zip op _ _ => op ∈ Operation.pairwise
  | .broadcast op _ _ _ => op ∈ Operation.broadcasting
  | _ => True

/-- The operations of operators belong to their families. -/
theorem proper_ofAssign (f : Operator) (t : Tensor) (rhs : RightSide) :
    (ofAssign f t rhs).Proper := by
  cases rhs <;> cases f <;>
    simp [ofAssign, Proper, Operator.onTensors, Operator.onScalar, Operation.pairwise,
      Operation.pointwise]

theorem mem_inputs_ofAssign (f : Operator) (t : Tensor) (rhs : RightSide) :
    t ∈ (ofAssign f t rhs).inputs := by
  cases rhs <;> simp [ofAssign, inputs]

/-- The launch of a computation with one input. -/
theorem wellFormed_one {op : Operation} {dtype : ElemType} {make : BlockId → BlockId → Invocation}
    (h : PlansOne t out make inv) (ht : t.Valid s) (ho : out.Valid s) (hk : SameKind t out s)
    (hd : out.dtype = dtype)
    (hmake : ∀ dst src, (make dst src).inputs = [src] ∧ (make dst src).output = dst ∧
      (make dst src).device = out.device)
    (hviews : ∀ dst src, out.block = some dst → t.block = some src →
      ViewsFit op dtype (make dst src) s) :
    Launched.WellFormed ⟨⟨op, dtype, inv⟩, [t], out⟩ s := by
  obtain ⟨dst, hdst, src, hsrc, rfl⟩ := h
  obtain ⟨hin, hout, hdevice⟩ := hmake dst src
  refine wellFormed_of ?_ ?_ ?_ ?_ (fun _ => hd) (hviews dst src hdst hsrc)
  · rw [hin, List.map_cons, hsrc]
    rfl
  · intro u hu
    obtain rfl := List.mem_singleton.mp hu
    rw [hdevice, ← hd]
    exact hk.suits ht
  · rw [hout]
    exact hdst
  · rw [hout, hdevice]
    exact (ho.filled dst hdst).place

/-- The launch of a computation with two inputs. -/
theorem wellFormed_two {op : Operation} {dtype : ElemType} {lhs rhs : Tensor}
    {make : BlockId → BlockId → BlockId → Invocation} (h : PlansTwo lhs rhs out make inv)
    (hl : lhs.Valid s) (hr : rhs.Valid s) (ho : out.Valid s) (hk : SameKind lhs out s)
    (hk' : SameKind rhs out s) (hd : out.dtype = dtype)
    (hmake : ∀ dst left right, (make dst left right).inputs = [left, right] ∧
      (make dst left right).output = dst ∧ (make dst left right).device = out.device)
    (hviews : ∀ dst left right, out.block = some dst → lhs.block = some left →
      rhs.block = some right → ViewsFit op dtype (make dst left right) s) :
    Launched.WellFormed ⟨⟨op, dtype, inv⟩, [lhs, rhs], out⟩ s := by
  obtain ⟨dst, hdst, left, hleft, right, hright, rfl⟩ := h
  obtain ⟨hin, hout, hdevice⟩ := hmake dst left right
  refine wellFormed_of ?_ ?_ ?_ ?_ (fun _ => hd) (hviews dst left right hdst hleft hright)
  · rw [hin, List.map_cons, List.map_cons, hleft, hright]
    rfl
  · intro u hu
    rw [hdevice, ← hd]
    rcases List.mem_cons.mp hu with rfl | hu
    · exact hk.suits hl
    · obtain rfl := List.mem_singleton.mp hu
      exact hk'.suits hr
  · rw [hout]
    exact hdst
  · rw [hout, hdevice]
    exact (ho.filled dst hdst).place

theorem planMap_wellFormed {op : Operation} {x : Double} (hop : op ∈ Operation.pointwise)
    (ht : t.Valid s) (ho : out.Valid s) (h : planMap t x out s = .ok inv) :
    Launched.WellFormed ⟨⟨op, t.dtype, inv⟩, [t], out⟩ s := by
  obtain ⟨⟨⟨hk, hcount⟩, -⟩, hp⟩ := planMap_eq_ok_iff.mp h
  refine wellFormed_one hp ht ho hk hk.1.symm (fun _ _ => ⟨rfl, rfl, rfl⟩) ?_
  intro dst src hdst hsrc
  refine .pointwise hop (ht.fits hsrc rfl (Nat.le_refl _)) ?_
  exact ho.fits hdst hk.1.symm (Nat.le_of_eq hcount.symm)

theorem planZip_wellFormed {op : Operation} {lhs rhs : Tensor} (hop : op ∈ Operation.pairwise)
    (hl : lhs.Valid s) (hr : rhs.Valid s) (ho : out.Valid s)
    (h : planZip lhs rhs out s = .ok inv) :
    Launched.WellFormed ⟨⟨op, lhs.dtype, inv⟩, [lhs, rhs], out⟩ s := by
  obtain ⟨hsame, hform, ⟨⟨hk, hcount⟩, -⟩, hp⟩ := planZip_eq_ok_iff.mp h
  refine wellFormed_two hp hl hr ho hk (hsame.symm.trans hk) hk.1.symm
    (fun _ _ _ => ⟨rfl, rfl, rfl⟩) ?_
  intro dst left right hdst hleft hright
  have hlr : lhs.count s = rhs.count s := by
    rw [(hl.filled left hleft).count hleft, (hr.filled right hright).count hright, hform.1]
  refine .pairwise hop (hl.fits hleft rfl (Nat.le_refl _)) ?_ ?_
  · exact hr.fits hright hsame.1.symm (Nat.le_of_eq hlr)
  · exact ho.fits hdst hk.1.symm (Nat.le_of_eq hcount.symm)

theorem planAddScaled_wellFormed {alpha : Double} (ht : t.Valid s) (ho : out.Valid s)
    (h : planAddScaled alpha t out s = .ok inv) :
    Launched.WellFormed ⟨⟨.axpy, t.dtype, inv⟩, [t], out⟩ s := by
  obtain ⟨hk, hform, hp⟩ := planAddScaled_eq_ok_iff.mp h
  refine wellFormed_one hp ht ho hk hk.1.symm (fun _ _ => ⟨rfl, rfl, rfl⟩) ?_
  intro dst src hdst hsrc
  have hcount : t.count s = out.count s := by
    rw [(ht.filled src hsrc).count hsrc, (ho.filled dst hdst).count hdst, hform.1]
  refine .axpy (ht.fits hsrc rfl (Nat.le_refl _)) ?_
  exact ho.fits hdst hk.1.symm (Nat.le_of_eq hcount)

theorem planBroadcast_wellFormed {op : Operation} {alpha beta : Double} {v m : Tensor}
    (hop : op ∈ Operation.broadcasting) (hv : v.Valid s) (hm : m.Valid s)
    (h : planBroadcast op alpha beta v m s = .ok inv) :
    Launched.WellFormed ⟨⟨op, m.dtype, inv⟩, [v], m⟩ s := by
  obtain ⟨hk, dims, hdims, hcount, hp⟩ := planBroadcast_eq_ok_iff.mp h
  refine wellFormed_one hp hv hm hk rfl (fun _ _ => ⟨rfl, rfl, rfl⟩) ?_
  intro dst src hdst hsrc
  have hsize : dims.1 * dims.2 = m.count s := by
    rw [(hm.filled dst hdst).count hdst, size_of_asMatrix hdims]
  refine .broadcasting hop ?_ ?_
  · exact hv.fits hsrc hk.1 (Nat.le_of_eq hcount.symm)
  · exact hm.fits hdst rfl (Nat.le_of_eq hsize)

theorem planSums_wellFormed {which : Summation} {length : Nat} {g : Grid} (ht : t.Valid s)
    (ho : out.Valid s) (hg : g.size = t.shape.prod)
    (hlength : length = which.length g.rows g.cols)
    (h : planSums t out length g s = .ok inv) :
    Launched.WellFormed ⟨⟨which.op, t.dtype, inv⟩, [t], out⟩ s := by
  obtain ⟨⟨hk, hcount⟩, hp⟩ := planSums_eq_ok_iff.mp h
  refine wellFormed_one hp ht ho hk hk.1.symm (fun _ _ => ⟨rfl, rfl, rfl⟩) ?_
  intro dst src hdst hsrc
  refine .sums (ht.fits hsrc rfl ?_) (ho.fits hdst hk.1.symm ?_)
  · rw [(ht.filled src hsrc).count hsrc]
    exact Nat.le_of_eq hg
  · exact Nat.le_of_eq (hcount.trans hlength).symm

theorem planSoftmax_wellFormed {axis : Nat} (ht : t.Valid s) (ho : out.Valid s)
    (h : planSoftmax t axis out s = .ok inv) :
    Launched.WellFormed ⟨⟨.softMax, t.dtype, inv⟩, [t], out⟩ s := by
  obtain ⟨-, ⟨⟨hk, hcount⟩, -⟩, rows, hrows, cols, hcols, hp⟩ := planSoftmax_eq_ok_iff.mp h
  refine wellFormed_one hp ht ho hk hk.1.symm (fun _ _ => ⟨rfl, rfl, rfl⟩) ?_
  intro dst src hdst hsrc
  have hsize : rows * cols = t.count s := by
    rw [(ht.filled src hsrc).count hsrc, Size.eq_prod_of_product hrows,
      Size.eq_prod_of_product hcols, ← List.prod_append_nat, List.take_append_drop]
  refine .softMax (ht.fits hsrc rfl (Nat.le_of_eq hsize)) ?_
  exact ho.fits hdst hk.1.symm (Nat.le_of_eq (hsize.trans hcount.symm))

theorem planProduct_wellFormed {alpha beta : Double} {a b c : Tensor} (ha : a.Valid s)
    (hb : b.Valid s) (hc : c.Valid s) (h : planProduct alpha a b beta c s = .ok inv) :
    Launched.WellFormed ⟨⟨.gemm, a.dtype, inv⟩, [a, b], c⟩ s := by
  obtain ⟨hsame, ⟨shape, x⟩, hx, count, hmul, ⟨hk, hcount⟩, -, hp⟩ := planProduct_eq_ok_iff.mp h
  obtain ⟨rows, cols, inner, hdims, rfl⟩ := productExtents_eq_ok_iff.mp hx
  obtain ⟨hleft, hright, -⟩ := size_of_productDims hdims
  refine wellFormed_two hp ha hb hc hk (hsame.symm.trans hk) hk.1.symm
    (fun _ _ _ => ⟨rfl, rfl, rfl⟩) ?_
  intro dst left right hdst hl hr
  refine .gemm (ha.fits hl rfl ?_) (hb.fits hr hsame.1.symm ?_) (hc.fits hdst hk.1.symm ?_)
  · exact Nat.le_of_eq (hleft.trans ((ha.filled left hl).count hl).symm)
  · exact Nat.le_of_eq (hright.trans ((hb.filled right hr).count hr).symm)
  · exact Nat.le_of_eq (hcount.trans (Size.mul_eq_ok_iff.mp hmul).2).symm

/-- The launch that a computation plans for valid operands is well formed. -/
theorem plan_wellFormed {c : Computation} {i : Issue} (hc : c.Proper)
    (hin : ∀ t ∈ c.inputs, t.Valid s) (ho : out.Valid s) (h : c.plan out s = .ok i) :
    Launched.WellFormed ⟨i, c.inputs, out⟩ s := by
  cases c with
  | map op t x =>
    obtain ⟨inv, hinv, rfl⟩ := Issue.planned_iff.mp h
    exact planMap_wellFormed hc (hin t (by simp [inputs])) ho hinv
  | zip op lhs rhs =>
    obtain ⟨inv, hinv, rfl⟩ := Issue.planned_iff.mp h
    exact planZip_wellFormed hc (hin lhs (by simp [inputs])) (hin rhs (by simp [inputs])) ho hinv
  | sums which t =>
    obtain ⟨inv, hinv, rfl⟩ := Issue.planned_iff.mp h
    obtain ⟨dims, hdims, hinv⟩ := bind_eq_ok_iff.mp hinv
    have hgrid : Grid.size ⟨dims.1, dims.2, t.transposed⟩ = t.shape.prod := size_of_asMatrix hdims
    exact planSums_wellFormed (hin t (by simp [inputs])) ho hgrid rfl hinv
  | sumAxis t axis =>
    obtain ⟨collapse, hcollapse, h⟩ := bind_eq_ok_iff.mp h
    obtain ⟨inv, hinv, rfl⟩ := Issue.planned_iff.mp h
    obtain ⟨hgrid, hlength⟩ := size_of_collapse hcollapse
    exact planSums_wellFormed (hin t (by simp [inputs])) ho hgrid hlength hinv
  | softmax t axis =>
    obtain ⟨inv, hinv, rfl⟩ := Issue.planned_iff.mp h
    exact planSoftmax_wellFormed (hin t (by simp [inputs])) ho hinv
  | product alpha a b beta =>
    obtain ⟨inv, hinv, rfl⟩ := Issue.planned_iff.mp h
    exact planProduct_wellFormed (hin a (by simp [inputs])) (hin b (by simp [inputs])) ho hinv
  | broadcast op alpha beta v =>
    obtain ⟨inv, hinv, rfl⟩ := Issue.planned_iff.mp h
    exact planBroadcast_wellFormed hc (hin v (by simp [inputs])) ho hinv
  | addScaled alpha t =>
    obtain ⟨inv, hinv, rfl⟩ := Issue.planned_iff.mp h
    exact planAddScaled_wellFormed (hin t (by simp [inputs])) ho hinv

end Computation

end DeviceTensor
