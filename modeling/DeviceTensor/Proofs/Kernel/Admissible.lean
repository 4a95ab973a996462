import DeviceTensor.Kernel.Pointwise
import DeviceTensor.Kernel.Product
import DeviceTensor.Kernel.Sampling
import DeviceTensor.Kernel.Softmax
import DeviceTensor.Proofs.Action
set_option autoImplicit false

/-!
# How kernels fail on buffers that suit them

A kernel that is given buffers of the sizes it expects reads and writes inside of them, and refuses
none of them.  What is left are failures of elements: their arithmetic traps, or an element has no
cast, or the parameters describe no distribution.  Such failures are admissible.
-/

namespace DeviceTensor

open DeviceTensor.Except

/-! ## Admissible failures -/

/-- Arithmetic went out of range. -/
def Trap.Admissible : Trap → Prop
  | .overflow _ => True
  | .divisionByZero => True
  | .outOfBounds _ _ => False

/-- Elements or parameters were refused, and not buffers or their type. -/
def Refusal.Admissible : Refusal → Prop
  | .lengthMismatch _ _ => False
  | .matrixTooSmall _ _ _ => False
  | .castOutOfRange _ => True
  | .invalidDistribution _ => True
  | .unsupportedType _ => False

/-- A kernel halted for an admissible reason. -/
def Halt.Admissible : Halt → Prop
  | .trap t => t.Admissible
  | .refused e => e.Admissible

/-- The kernel runs to its end or halts for an admissible reason. -/
def Outcome.Admissible {α : Type} (o : Outcome α) : Prop := FailsIn Halt.Admissible o.2

/-! ## Sizes, buffers and grids -/

theorem Size.add_admissible (a b : Nat) : FailsIn Trap.Admissible (Size.add a b) :=
  .ite (fun _ => .ok _) fun _ => .error trivial

theorem Size.mul_admissible (a b : Nat) : FailsIn Trap.Admissible (Size.mul a b) :=
  .ite (fun _ => .ok _) fun _ => .error trivial

theorem Buffer.read_admissible {α : Type} {xs : Array α} {i : Nat} (h : i < xs.size) :
    FailsIn Trap.Admissible (Buffer.read xs i) := by
  rw [Buffer.read_of_lt h]
  exact .ok _

theorem Buffer.store_admissible {α : Type} {xs : Array α} {i : Nat} (h : i < xs.size) (x : α) :
    FailsIn Trap.Admissible (Buffer.store xs i x) := by
  rw [Buffer.store_of_lt h]
  exact .ok _

namespace Grid

variable {g : Grid} {i j k : Nat}

/-- A place that can be computed is the place of the element. -/
theorem eq_offset_of_checkedOffset (h : g.checkedOffset i j = .ok k) : k = g.offset i j := by
  unfold checkedOffset at h
  unfold offset
  by_cases ht : g.transposed = true
  · rw [if_pos ht] at h ⊢
    obtain ⟨m, hm, hk⟩ := bind_eq_ok_iff.mp h
    rw [(Size.add_eq_ok_iff.mp hk).2, (Size.mul_eq_ok_iff.mp hm).2]
  · rw [if_neg ht] at h ⊢
    obtain ⟨m, hm, hk⟩ := bind_eq_ok_iff.mp h
    rw [(Size.add_eq_ok_iff.mp hk).2, (Size.mul_eq_ok_iff.mp hm).2]

theorem checkedOffset_admissible (g : Grid) (i j : Nat) :
    FailsIn Trap.Admissible (g.checkedOffset i j) :=
  .ite (fun _ => .bind (Size.mul_admissible _ _) fun _ _ => Size.add_admissible _ _)
    fun _ => .bind (Size.mul_admissible _ _) fun _ _ => Size.add_admissible _ _

/-- The place of an element lies inside every buffer that holds the grid. -/
theorem lt_of_checkedOffset {n : Nat} (h : g.checkedOffset i j = .ok k) (hi : i < g.rows)
    (hj : j < g.cols) (hn : g.size ≤ n) : k < n := by
  rw [eq_offset_of_checkedOffset h]
  exact Nat.lt_of_lt_of_le (offset_lt_size hi hj) hn

end Grid

namespace Extents

variable {x : Extents} {i j k n : Nat}

theorem eq_of_strided {strides : Nat × Nat} (h : strided strides i j = .ok k) :
    k = i * strides.1 + j * strides.2 := by
  obtain ⟨down, hdown, h⟩ := bind_eq_ok_iff.mp h
  obtain ⟨along, halong, hk⟩ := bind_eq_ok_iff.mp h
  rw [(Size.add_eq_ok_iff.mp hk).2, (Size.mul_eq_ok_iff.mp hdown).2,
    (Size.mul_eq_ok_iff.mp halong).2]

theorem strided_admissible (strides : Nat × Nat) (i j : Nat) :
    FailsIn Trap.Admissible (strided strides i j) :=
  .bind (Size.mul_admissible _ _) fun _ _ =>
    .bind (Size.mul_admissible _ _) fun _ _ => Size.add_admissible _ _

/-- The place of an element of the first operand of a product lies inside of it. -/
theorem left_lt (h : strided x.leftStrides i k = .ok n) (hi : i < x.rows) (hk : k < x.inner) :
    n < x.rows * x.inner := by
  rw [eq_of_strided h, ← leftGrid_offset]
  exact Grid.offset_lt_size (g := x.leftGrid) hi hk

/-- The place of an element of the second operand of a product lies inside of it. -/
theorem right_lt (h : strided x.rightStrides k j = .ok n) (hk : k < x.inner) (hj : j < x.cols) :
    n < x.inner * x.cols := by
  rw [eq_of_strided h, ← rightGrid_offset]
  exact Grid.offset_lt_size (g := x.rightGrid) hk hj

/-- The place of an element of a product lies inside of it. -/
theorem place_lt (h : strided (x.cols, 1) i j = .ok n) (hi : i < x.rows) (hj : j < x.cols) :
    n < x.rows * x.cols := by
  have hn : n = (Grid.mk x.rows x.cols false).offset i j := by
    rw [eq_of_strided h, Nat.mul_one]
    rfl
  rw [hn]
  exact Grid.offset_lt_size hi hj

end Extents

/-! ## Arithmetic -/

/-- The operations of the arithmetic fail only by going out of range. -/
structure Arithmetic.Admissible {α : Type} (A : Arithmetic α) : Prop where
  add : ∀ x y, FailsIn Trap.Admissible (A.add x y)
  sub : ∀ x y, FailsIn Trap.Admissible (A.sub x y)
  mul : ∀ x y, FailsIn Trap.Admissible (A.mul x y)
  div : ∀ x y, FailsIn Trap.Admissible (A.div x y)
  neg : ∀ x, FailsIn Trap.Admissible (A.neg x)
  abs : ∀ x, FailsIn Trap.Admissible (A.abs x)

namespace Word

variable {w : Nat}

theorem exact_admissible (op : ArithmeticOp) (n : Int) :
    FailsIn Trap.Admissible (exact op n : Except Trap (BitVec w)) :=
  .ite (fun _ => .ok _) fun _ => .error trivial

theorem arithmetic_admissible (w : Nat) : (arithmetic w).Admissible where
  add _ _ := exact_admissible _ _
  sub _ _ := exact_admissible _ _
  mul _ _ := exact_admissible _ _
  div _ _ := .ite (fun _ => .error trivial) fun _ => exact_admissible _ _
  neg _ := exact_admissible _ _
  abs _ := .ite (fun _ => exact_admissible _ _) fun _ => .ok _

end Word

theorem Binary.arithmetic_admissible (F : Format) : (Binary.arithmetic F).Admissible where
  add _ _ := .ok _
  sub _ _ := .ok _
  mul _ _ := .ok _
  div _ _ := .ok _
  neg _ := .ok _
  abs _ := .ok _

theorem Binary.arithmeticVia_admissible (narrow wide : Format) :
    (Binary.arithmeticVia narrow wide).Admissible where
  add _ _ := .ok _
  sub _ _ := .ok _
  mul _ _ := .ok _
  div _ _ := .ok _
  neg _ := .ok _
  abs _ := .ok _

theorem arithmetic_admissible (d : ElemType) : (arithmetic d).Admissible := by
  cases d with
  | float32 => exact Binary.arithmetic_admissible .single
  | float16 => exact Binary.arithmeticVia_admissible .half .single
  | float64 => exact Binary.arithmetic_admissible .double
  | int32 => exact Word.arithmetic_admissible 32
  | char => exact Word.arithmetic_admissible 8

namespace Arithmetic

variable {α : Type} {A : Arithmetic α}

theorem Admissible.sign (h : A.Admissible) (x : α) : FailsIn Trap.Admissible (A.sign x) :=
  .ite (fun _ => .ok _) fun _ => .ite (fun _ => h.neg _) fun _ => .ok _

theorem Admissible.combine (h : A.Admissible) (a x b y : α) :
    FailsIn Trap.Admissible (A.combine a x b y) :=
  .bind (h.mul _ _) fun _ _ => .bind (h.mul _ _) fun _ _ => h.add _ _

theorem Admissible.sigmoid (h : A.Admissible) (F : Analysis α) (x : α) :
    FailsIn Trap.Admissible (A.sigmoid F x) :=
  .bind (h.neg _) fun _ _ => .bind (h.add _ _) fun _ _ => h.div _ _

end Arithmetic

/-! ## Sweeps -/

theorem Halt.ofTrap_admissible {α : Type} {x : Except Trap α} (h : FailsIn Trap.Admissible x) :
    FailsIn Halt.Admissible (Halt.ofTrap x) := by
  cases x with
  | ok a => exact .ok a
  | error t => exact .error (h t rfl)

/-- A step of a kernel that may trap. -/
theorem Except.FailsIn.step {α β : Type} {x : Except Trap α} {f : α → Except Halt β}
    (hx : FailsIn Trap.Admissible x) (hf : ∀ a, x = .ok a → FailsIn Halt.Admissible (f a)) :
    FailsIn Halt.Admissible (Halt.ofTrap x >>= f) := by
  refine .bind (Halt.ofTrap_admissible hx) fun a ha => hf a ?_
  cases x with
  | ok a' =>
    cases ha
    rfl
  | error t => cases ha

/-- A sweep halts as the visits of its cells do. -/
theorem sweep_failsIn {ι α : Type} {P : Halt → Prop}
    {place : ι → Array α → Except Halt (Nat × α)} {cs : List ι} {dst : Array α}
    (h : ∀ c ∈ cs, ∀ dst' : Array α, dst'.size = dst.size → FailsIn P (visit place c dst')) :
    FailsIn P (sweep place cs dst).2 := by
  induction cs generalizing dst with
  | nil => exact .ok ()
  | cons c cs ih =>
    unfold sweep
    split
    · rename_i dst₁ hvisit
      refine ih fun c' hc' dst' hsize => ?_
      exact h c' (List.mem_cons_of_mem c hc') dst' (hsize.trans (size_visit hvisit))
    · rename_i e he
      exact .error (h c List.mem_cons_self dst rfl e he)

/-- The step halts for an admissible reason, or stores its value among the first `n` elements. -/
structure StepAdmissible {α : Type} (n : Nat) (x : Except Halt (Nat × α)) : Prop where
  fails : FailsIn Halt.Admissible x
  inside : ∀ p, x = .ok p → p.1 < n

namespace StepAdmissible

variable {α β : Type} {n : Nat}

theorem ok {k : Nat} (h : k < n) (x : α) : StepAdmissible n (Pure.pure (k, x)) where
  fails := .ok _
  inside p hp := by
    cases hp
    exact h

theorem error {e : Halt} (h : e.Admissible) : StepAdmissible (α := α) n (.error e) where
  fails := .error h
  inside p hp := by cases hp

theorem bind {x : Except Halt β} {f : β → Except Halt (Nat × α)}
    (hx : FailsIn Halt.Admissible x) (hf : ∀ b, x = .ok b → StepAdmissible n (f b)) :
    StepAdmissible n (x >>= f) where
  fails := hx.bind fun b hb => (hf b hb).fails
  inside p hp := by
    obtain ⟨b, hb, hp⟩ := bind_eq_ok_iff.mp hp
    exact (hf b hb).inside p hp

theorem step {x : Except Trap β} {f : β → Except Halt (Nat × α)}
    (hx : FailsIn Trap.Admissible x) (hf : ∀ b, x = .ok b → StepAdmissible n (f b)) :
    StepAdmissible n (Halt.ofTrap x >>= f) := by
  refine .bind (Halt.ofTrap_admissible hx) fun b hb => hf b ?_
  cases x with
  | ok b' =>
    cases hb
    rfl
  | error t => cases hb

theorem ite {c : Prop} [Decidable c] {x y : Except Halt (Nat × α)}
    (hx : c → StepAdmissible n x) (hy : ¬c → StepAdmissible n y) :
    StepAdmissible n (if c then x else y) := by
  split
  · exact hx ‹_›
  · exact hy ‹_›

end StepAdmissible

/-- A sweep whose steps store inside of the destination. -/
theorem sweep_admissible {ι α : Type} {place : ι → Array α → Except Halt (Nat × α)}
    {cs : List ι} {dst : Array α}
    (h : ∀ c ∈ cs, ∀ dst' : Array α, dst'.size = dst.size →
      StepAdmissible dst.size (place c dst')) :
    Outcome.Admissible (sweep place cs dst) := by
  refine sweep_failsIn fun c hc dst' hsize => .bind (h c hc dst' hsize).fails fun (k, x) hp => ?_
  have hlt : k < dst'.size := hsize ▸ (h c hc dst' hsize).inside (k, x) hp
  exact Halt.ofTrap_admissible (Buffer.store_admissible hlt x)

theorem checked_failsIn {α : Type} {P : Halt → Prop} {check : Except Halt Unit} {dst : Array α}
    {run : Array α → Outcome α} (hc : FailsIn P check) (hr : FailsIn P (run dst).2) :
    FailsIn P (checked check dst run).2 := by
  unfold checked
  split
  · exact hr
  · rename_i e
    exact .error (hc e rfl)

theorem requireEqual_admissible {left right : Nat} (h : left = right) :
    FailsIn Halt.Admissible (requireEqual left right) := by
  rw [requireEqual, if_pos h]
  exact .ok ()

namespace Kernel

variable {α β : Type} {A : Arithmetic α} {g : Grid}

theorem requireHolds_admissible {n : Nat} (h : g.size ≤ n) :
    FailsIn Halt.Admissible (requireHolds n g) := by
  refine .step (Size.mul_admissible _ _) fun needed hn => .ite (fun hlt => ?_) fun _ => .ok ()
  rw [(Size.mul_eq_ok_iff.mp hn).2] at hlt
  exact absurd h (Nat.not_le_of_lt hlt)

/-! ## Element by element -/

theorem map_admissible {f : α → Except Trap β} (hf : ∀ x, FailsIn Trap.Admissible (f x))
    {src : Array α} {dst : Array β} (h : src.size = dst.size) :
    Outcome.Admissible (map f src dst) := by
  refine checked_failsIn (requireEqual_admissible h) (sweep_admissible fun i hi _ _ => ?_)
  have hi := List.mem_range.mp hi
  refine .step (Buffer.read_admissible hi) fun x _ => ?_
  exact .step (hf x) fun y _ => .ok (h ▸ hi) y

theorem zip_admissible {f : α → α → Except Trap β} (hf : ∀ x y, FailsIn Trap.Admissible (f x y))
    {lhs rhs : Array α} {dst : Array β} (h : lhs.size = rhs.size) (hd : lhs.size = dst.size) :
    Outcome.Admissible (zip f lhs rhs dst) := by
  have hcheck : FailsIn Halt.Admissible
      (requireEqual lhs.size rhs.size *> requireEqual lhs.size dst.size) := by
    rw [requireEqual, if_pos h]
    exact requireEqual_admissible hd
  refine checked_failsIn hcheck (sweep_admissible fun i hi _ _ => ?_)
  have hi := List.mem_range.mp hi
  refine .step (Buffer.read_admissible hi) fun x _ => ?_
  refine .step (Buffer.read_admissible (h ▸ hi)) fun y _ => ?_
  exact .step (hf x y) fun z _ => .ok (hd ▸ hi) z

theorem cast_admissible {convert : α → Option β} {src : Array α} {dst : Array β}
    (h : src.size = dst.size) : Outcome.Admissible (cast convert src dst) := by
  refine checked_failsIn (requireEqual_admissible h) (sweep_admissible fun i hi _ _ => ?_)
  have hi := List.mem_range.mp hi
  refine .step (Buffer.read_admissible hi) fun x _ => ?_
  split
  · rename_i y _
    exact .ok (h ▸ hi) y
  · exact .error trivial

theorem addScaled_admissible (hA : A.Admissible) (alpha : α) {src dst : Array α}
    (h : src.size = dst.size) : Outcome.Admissible (addScaled A alpha src dst) := by
  refine checked_failsIn (requireEqual_admissible h) (sweep_admissible fun i hi dst' hd => ?_)
  have hi := List.mem_range.mp hi
  refine .step (Buffer.read_admissible hi) fun x _ => ?_
  refine .step (Buffer.read_admissible (by rwa [hd, ← h])) fun y _ => ?_
  exact .step (hA.mul _ _) fun _ _ => .step (hA.add _ _) fun z _ => .ok (h ▸ hi) z

/-! ## Rows and columns -/

/-- A vector that has an element for every cell is combined with a matrix. -/
theorem combine_admissible {f : α → α → Except Trap α}
    (hf : ∀ x y, FailsIn Trap.Admissible (f x y)) {v m : Array α} {k : Nat × Nat → Nat}
    (hm : g.size ≤ m.size) (hv : ∀ cell ∈ g.cells, k cell < v.size) :
    Outcome.Admissible (sweep (combineAt f v g k) g.cells m) := by
  refine sweep_admissible fun cell hcell m' hsize => ?_
  obtain ⟨hi, hj⟩ := Grid.mem_cells_iff.mp hcell
  refine .step (g.checkedOffset_admissible _ _) fun place hplace => ?_
  have hlt := Grid.lt_of_checkedOffset hplace hi hj hm
  refine .step (Buffer.read_admissible (hsize ▸ hlt)) fun old _ => ?_
  refine .step (Buffer.read_admissible (hv cell hcell)) fun x _ => ?_
  exact .step (hf old x) fun new _ => .ok hlt new

theorem requireBroadcast_admissible {n k size : Nat} (h : n = k) (hm : g.size ≤ size) :
    FailsIn Halt.Admissible (requireEqual n k *> requireHolds size g) := by
  rw [requireEqual, if_pos h]
  exact requireHolds_admissible hm

theorem broadcastRow_admissible {f : α → α → Except Trap α}
    (hf : ∀ x y, FailsIn Trap.Admissible (f x y)) {v m : Array α} (hv : v.size = g.cols)
    (hm : g.size ≤ m.size) : Outcome.Admissible (broadcastRow f v g m) := by
  refine checked_failsIn (requireBroadcast_admissible hv hm) (combine_admissible hf hm ?_)
  intro cell hcell
  rw [hv]
  exact (Grid.mem_cells_iff.mp hcell).2

theorem broadcastColumn_admissible {f : α → α → Except Trap α}
    (hf : ∀ x y, FailsIn Trap.Admissible (f x y)) {v m : Array α} (hv : v.size = g.rows)
    (hm : g.size ≤ m.size) : Outcome.Admissible (broadcastColumn f v g m) := by
  refine checked_failsIn (requireBroadcast_admissible hv hm) (combine_admissible hf hm ?_)
  intro cell hcell
  rw [hv]
  exact (Grid.mem_cells_iff.mp hcell).1

theorem addElement_admissible (hA : A.Admissible) {m : Array α} (hm : g.size ≤ m.size) (acc : α)
    {i j : Nat} (hi : i < g.rows) (hj : j < g.cols) :
    FailsIn Trap.Admissible (addElement A m g acc i j) := by
  refine .bind (g.checkedOffset_admissible i j) fun place hplace => ?_
  have hlt := Grid.lt_of_checkedOffset hplace hi hj hm
  exact .bind (Buffer.read_admissible hlt) fun x _ => hA.add acc x

theorem sumRows_admissible (hA : A.Admissible) {m dst : Array α} (hd : dst.size = g.cols)
    (hm : g.size ≤ m.size) : Outcome.Admissible (sumRows A m g dst) := by
  refine checked_failsIn (requireBroadcast_admissible hd hm) (sweep_admissible ?_)
  intro j hj _ _
  have hj := List.mem_range.mp hj
  refine .bind (.foldlM fun acc i hi => Halt.ofTrap_admissible ?_) fun sum _ => .ok (hd ▸ hj) sum
  exact addElement_admissible hA hm acc (List.mem_range.mp hi) hj

theorem sumColumns_admissible (hA : A.Admissible) {m dst : Array α} (hd : dst.size = g.rows)
    (hm : g.size ≤ m.size) : Outcome.Admissible (sumColumns A m g dst) := by
  refine checked_failsIn (requireBroadcast_admissible hd hm) (sweep_admissible ?_)
  intro i hi _ _
  have hi := List.mem_range.mp hi
  refine .bind (.foldlM fun acc j hj => Halt.ofTrap_admissible ?_) fun sum _ => .ok (hd ▸ hi) sum
  exact addElement_admissible hA hm acc hi (List.mem_range.mp hj)

/-! ## Softmax -/

/-- The failures of a kernel that goes on with a value. -/
theorem withValue_failsIn {P : Halt → Prop} {x : Except Trap β} {dst : Array α}
    {next : β → Array α → Outcome α} (hx : FailsIn (fun t => P (.trap t)) x)
    (hn : ∀ b, x = .ok b → FailsIn P (next b dst).2) : FailsIn P (withValue x dst next).2 := by
  unfold withValue
  cases x with
  | ok b => exact hn b rfl
  | error t => exact .error (hx t rfl)

theorem andThen_failsIn {P : Halt → Prop} {o : Outcome α} {next : Array α → Outcome α}
    (ho : FailsIn P o.2) (hn : FailsIn P (next o.1).2) : FailsIn P (andThen o next).2 := by
  obtain ⟨dst, r⟩ := o
  cases r with
  | ok u => exact hn
  | error e => exact .error (ho e rfl)

theorem readCell_admissible {m : Array α} (hm : g.size ≤ m.size) {i j : Nat} (hi : i < g.rows)
    (hj : j < g.cols) : FailsIn Trap.Admissible (readCell m g i j) :=
  .bind (g.checkedOffset_admissible i j) fun _ hplace =>
    Buffer.read_admissible (Grid.lt_of_checkedOffset hplace hi hj hm)

theorem size_withValue {x : Except Trap β} {dst : Array α} {next : β → Array α → Outcome α}
    (hn : ∀ b, x = .ok b → (next b dst).1.size = dst.size) :
    (withValue x dst next).1.size = dst.size := by
  unfold withValue
  cases x with
  | ok b => exact hn b rfl
  | error t => rfl

theorem size_andThen {o : Outcome α} {next : Array α → Outcome α}
    (hn : (next o.1).1.size = o.1.size) : (andThen o next).1.size = o.1.size := by
  obtain ⟨dst, r⟩ := o
  cases r with
  | ok u => exact hn
  | error e => rfl

theorem size_shiftRow (A : Arithmetic α) (F : Analysis α) (src : Array α) (g : Grid) (i : Nat)
    (top : α) {next : α → Array α → Outcome α} (hn : ∀ sum m, (next sum m).1.size = m.size)
    (js : List Nat) (sum : α) (dst : Array α) :
    (shiftRow A F src g i top next js sum dst).1.size = dst.size := by
  induction js generalizing sum dst with
  | nil => exact hn sum dst
  | cons j js ih =>
    refine size_withValue fun (place, power) _ => size_withValue fun dst' hstore => ?_
    have hsize := Buffer.size_store hstore
    exact (size_withValue fun sum' _ => ih sum' dst').trans hsize

theorem size_softmaxRow (A : Arithmetic α) (F : Analysis α) (src : Array α) (g : Grid)
    (dst : Array α) (i : Nat) : (softmaxRow A F src g dst i).1.size = dst.size :=
  size_withValue fun top _ => size_shiftRow A F src g i top (fun _ _ => size_sweep ..) _ _ dst

theorem shiftedAt_admissible (hA : A.Admissible) (F : Analysis α) {src : Array α}
    (hs : g.size ≤ src.size) {i j : Nat} (hi : i < g.rows) (hj : j < g.cols) (top : α) :
    FailsIn Trap.Admissible (shiftedAt A F src g i top j) := by
  refine .bind (g.checkedOffset_admissible i j) fun place hplace => ?_
  have hlt := Grid.lt_of_checkedOffset hplace hi hj hs
  exact .bind (Buffer.read_admissible hlt) fun x _ => .bind (hA.sub x top) fun _ _ => .ok _

theorem place_of_shiftedAt {F : Analysis α} {src : Array α} {i j : Nat} {top : α} {p : Nat × α}
    (h : shiftedAt A F src g i top j = .ok p) : g.checkedOffset i j = .ok p.1 := by
  obtain ⟨place, hplace, h⟩ := bind_eq_ok_iff.mp h
  obtain ⟨x, -, h⟩ := bind_eq_ok_iff.mp h
  obtain ⟨shifted, -, h⟩ := bind_eq_ok_iff.mp h
  cases h
  exact hplace

theorem shiftRow_admissible (hA : A.Admissible) (F : Analysis α) {src dst : Array α}
    (hs : g.size ≤ src.size) (hd : g.size ≤ dst.size) {i : Nat} (hi : i < g.rows) (top : α)
    {next : α → Array α → Outcome α}
    (hn : ∀ sum m, g.size ≤ m.size → Outcome.Admissible (next sum m)) {js : List Nat}
    (hjs : ∀ j ∈ js, j < g.cols) (sum : α) :
    Outcome.Admissible (shiftRow A F src g i top next js sum dst) := by
  induction js generalizing sum dst with
  | nil => exact hn sum dst hd
  | cons j js ih =>
    obtain ⟨hj, hjs⟩ := List.forall_mem_cons.mp hjs
    refine withValue_failsIn (shiftedAt_admissible hA F hs hi hj top) fun p hp => ?_
    have hlt := Grid.lt_of_checkedOffset (place_of_shiftedAt hp) hi hj hd
    refine withValue_failsIn (Buffer.store_admissible hlt p.2) fun dst' hstore => ?_
    have hd' : g.size ≤ dst'.size := Buffer.size_store hstore ▸ hd
    exact withValue_failsIn (hA.add sum p.2) fun sum' _ => ih hd' hjs sum'

theorem divideRow_admissible (hA : A.Admissible) {dst : Array α} (hd : g.size ≤ dst.size) {i : Nat}
    (hi : i < g.rows) (denominator : α) : Outcome.Admissible (divideRow A g i denominator dst) := by
  refine sweep_admissible fun j hj m hsize => ?_
  refine .step (g.checkedOffset_admissible i j) fun place hplace => ?_
  have hlt := Grid.lt_of_checkedOffset hplace hi (List.mem_range.mp hj) hd
  refine .step (Buffer.read_admissible (hsize ▸ hlt)) fun y _ => ?_
  exact .step (hA.div y denominator) fun _ _ => .ok hlt _

theorem softmaxRow_admissible (hA : A.Admissible) (F : Analysis α) {src dst : Array α}
    (hs : g.size ≤ src.size) (hd : g.size ≤ dst.size) {i : Nat} (hi : i < g.rows) :
    Outcome.Admissible (softmaxRow A F src g dst i) := by
  refine withValue_failsIn (.foldlM fun top j hj => ?_) fun top _ => ?_
  · exact .bind (readCell_admissible hs hi (List.mem_range.mp hj)) fun x _ => .ok _
  · exact shiftRow_admissible hA F hs hd hi top
      (fun denominator m hm => divideRow_admissible hA hm hi denominator)
      (fun j hj => List.mem_range.mp hj) A.zero

/-- Steps that leave a destination of the same size, one after the other. -/
theorem foldl_andThen_failsIn {P : Halt → Prop} {n : Nat} {step : Nat → Array α → Outcome α}
    {is : List Nat} (hsize : ∀ i dst, (step i dst).1.size = dst.size)
    (h : ∀ i ∈ is, ∀ dst : Array α, dst.size = n → FailsIn P (step i dst).2) {o : Outcome α}
    (ho : o.1.size = n) (hP : FailsIn P o.2) :
    FailsIn P (is.foldl (fun o i => andThen o (step i)) o).2 := by
  induction is generalizing o with
  | nil => exact hP
  | cons i is ih =>
    refine ih (fun i' hi' => h i' (List.mem_cons_of_mem i hi')) ?_ ?_
    · exact (size_andThen (hsize i o.1)).trans ho
    · exact andThen_failsIn hP (h i List.mem_cons_self o.1 ho)

theorem softmax_admissible (hA : A.Admissible) (F : Analysis α) {src dst : Array α}
    (h : src.size = dst.size) (hs : g.size ≤ src.size) :
    Outcome.Admissible (softmax A F src g dst) := by
  refine checked_failsIn (requireBroadcast_admissible h hs) ?_
  refine foldl_andThen_failsIn (fun i dst => size_softmaxRow A F src g dst i)
    (fun i hi dst' hdst' => ?_) rfl (.ok ())
  refine softmaxRow_admissible hA F hs ?_ (List.mem_range.mp hi)
  rw [hdst', ← h]
  exact hs

/-! ## Products -/

theorem requireOperand_admissible {size rows cols : Nat} (h : rows * cols ≤ size) :
    FailsIn Halt.Admissible (requireOperand size rows cols) := by
  refine .step (Size.mul_admissible _ _) fun needed hn => .ite (fun hlt => ?_) fun _ => .ok ()
  rw [(Size.mul_eq_ok_iff.mp hn).2] at hlt
  exact absurd h (Nat.not_le_of_lt hlt)

/-- The buffers hold the matrices of a product. -/
structure Holds (x : Extents) (a b c : Array α) : Prop where
  left : x.rows * x.inner ≤ a.size
  right : x.inner * x.cols ≤ b.size
  result : x.rows * x.cols ≤ c.size

variable {x : Extents} {a b c : Array α}

theorem requireProduct_admissible (h : Holds x a b c) :
    FailsIn Halt.Admissible (requireProduct x a.size b.size c.size) :=
  .bind (requireOperand_admissible h.left) fun _ _ =>
    .bind (requireOperand_admissible h.right) fun _ _ => requireOperand_admissible h.result

theorem innerProduct_admissible (hA : A.Admissible) (h : Holds x a b c) {i j : Nat}
    (hi : i < x.rows) (hj : j < x.cols) :
    FailsIn Trap.Admissible (innerProduct A x a b i j) := by
  refine .foldlM fun acc p hp => ?_
  have hp := List.mem_range.mp hp
  refine .bind (Extents.strided_admissible _ _ _) fun m hm => ?_
  refine .bind (Buffer.read_admissible (Nat.lt_of_lt_of_le (Extents.left_lt hm hi hp) h.left))
    fun left _ => ?_
  refine .bind (Extents.strided_admissible _ _ _) fun n hn => ?_
  refine .bind (Buffer.read_admissible (Nat.lt_of_lt_of_le (Extents.right_lt hn hp hj) h.right))
    fun right _ => ?_
  exact .bind (hA.mul left right) fun summand _ => hA.add acc summand

theorem product_admissible (hA : A.Admissible) (alpha beta : α) (h : Holds x a b c) :
    Outcome.Admissible (product A alpha a b beta x c) := by
  refine checked_failsIn (requireProduct_admissible h) (sweep_admissible ?_)
  intro cell hcell c' hsize
  obtain ⟨hi, hj⟩ := Grid.mem_cells_iff.mp hcell
  refine .step (innerProduct_admissible hA h hi hj) fun acc _ => ?_
  refine .step (Extents.strided_admissible _ _ _) fun place hplace => ?_
  have hlt : place < c.size := Nat.lt_of_lt_of_le (Extents.place_lt hplace hi hj) h.result
  refine .step (Buffer.read_admissible (hsize ▸ hlt)) fun old _ => ?_
  refine .step (hA.mul alpha acc) fun scaled _ => .ite (fun _ => .ok hlt _) fun _ => ?_
  exact .step (hA.mul beta old) fun kept _ => .step (hA.add scaled kept) fun _ _ => .ok hlt _

theorem wideProduct_admissible {A : Arithmetic α} (P : WideProduct A) (alpha beta : α)
    (h : Holds x a b c) : Outcome.Admissible (wideProduct A P alpha a b beta x c) :=
  checked_failsIn (requireProduct_admissible h) (.ok ())

/-! ## Random fills -/

theorem drawInto_admissible {σ : Type} (draw : σ → β × σ) (convert : β → Option α) (is : List Nat)
    (dst : Array α) (s : σ) (his : ∀ i ∈ is, i < dst.size) :
    Outcome.Admissible (drawInto draw convert is dst s).1 := by
  induction is generalizing dst s with
  | nil => exact .ok ()
  | cons i is ih =>
    unfold drawInto
    dsimp only
    split
    · rw [Buffer.store_of_lt (his i List.mem_cons_self)]
      refine ih _ _ fun i' hi' => ?_
      rw [Array.size_setIfInBounds]
      exact his i' (List.mem_cons_of_mem i hi')
    · exact .error trivial

theorem fillSamples_admissible {σ : Type} (D : Distribution) (draw : σ → β × σ)
    (convert : β → Option α) (dst : Array α) (s : σ) :
    Outcome.Admissible (fillSamples D draw convert dst s).1 := by
  unfold fillSamples
  split
  · exact .error trivial
  · exact drawInto_admissible draw convert _ dst s fun i hi => List.mem_range.mp hi

end Kernel

end DeviceTensor
