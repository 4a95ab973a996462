import DeviceTensor.Proofs.Tensor.Evaluation
set_option autoImplicit false

/-!
# Calls and the launches that they issue

A call is an operation of a tensor with its operands.  `Call.run` runs the operation, and
`Call.traced` is the same operation with a record of every launch that it issues on its way:
`Call.run_traced`.
-/

namespace DeviceTensor

/-! ## Traced actions -/

/-- An action, and the launches that it issues, each with the store from which it is issued. -/
structure Traced (α : Type) where
  run : Action Fault α
  launches : Store → List (Launched × Store)

namespace Traced

variable {α β : Type}

/-- An action that launches nothing. -/
def quiet (x : Action Fault α) : Traced α := ⟨x, fun _ => []⟩

/-- A launch. -/
def issue (l : Launched) : Traced Unit := ⟨l.issue.launch, fun s => [(l, s)]⟩

/-- Goes on with the result of an action that did not fail. -/
def bind (x : Traced α) (next : α → Traced β) : Traced β where
  run := x.run >>= fun a => (next a).run
  launches s := x.launches s ++
    match x.run s with
    | (.ok a, s) => (next a).launches s
    | (.error _, _) => []

instance : Monad Traced where
  pure a := quiet (pure a)
  bind := bind

/-- Lets `f` tidy the store up if the action failed. -/
def onFailure (f : Store → Store) (x : Traced α) : Traced α := ⟨x.run.onFailure f, x.launches⟩

/-- Lets `f` tidy the store up. -/
def thenTidy (f : Store → Store) (x : Traced α) : Traced α := ⟨x.run.thenTidy f, x.launches⟩

/-- Makes a tensor and works on it. -/
def building (make : Traced Tensor) (work : Tensor → Traced Unit) : Traced Tensor := do
  let t ← make
  onFailure t.release (work t)
  return t

@[simp] theorem run_pure (a : α) : (pure a : Traced α).run = pure a := rfl

@[simp] theorem run_quiet (x : Action Fault α) : (quiet x).run = x := rfl

@[simp] theorem run_issue (l : Launched) : (issue l).run = l.issue.launch := rfl

@[simp] theorem run_bind (x : Traced α) (next : α → Traced β) :
    (x >>= next).run = x.run >>= fun a => (next a).run := rfl

@[simp] theorem run_onFailure (f : Store → Store) (x : Traced α) :
    (onFailure f x).run = x.run.onFailure f := rfl

@[simp] theorem run_thenTidy (f : Store → Store) (x : Traced α) :
    (thenTidy f x).run = x.run.thenTidy f := rfl

@[simp] theorem run_ite {c : Prop} [Decidable c] (x y : Traced α) :
    (if c then x else y).run = if c then x.run else y.run := by
  split <;> rfl

@[simp] theorem run_building (make : Traced Tensor) (work : Tensor → Traced Unit) :
    (building make work).run = Tensor.building make.run fun t => (work t).run := rfl

end Traced

namespace Computation

/-- The computation issues the launch that it has planned. -/
def traced (c : Computation) (out : Tensor) : Traced Unit := do
  let i ← Traced.quiet (Action.examine (c.plan out))
  Traced.issue ⟨i, c.inputs, out⟩

@[simp] theorem run_traced (c : Computation) (out : Tensor) : (c.traced out).run = c.into out :=
  (funext (c.into_eq out)).symm

end Computation

/-! ## Operations on their own operands -/

namespace Tensor

open Traced

/-- `Tensor.fill`, traced. -/
def fillTraced (t : Tensor) (x : Double) : Traced Unit :=
  match t.block with
  | none => return ()
  | some b => do
    let count ← quiet (.inspect t.count)
    issue ⟨⟨.fill, t.dtype,
      { device := t.device, output := b, count := count, alpha := x }⟩, [], t⟩

/-- `Tensor.fillSamples`, traced. -/
def fillSamplesTraced (t : Tensor) (D : Distribution) : Traced Unit := do
  let (op, alpha, beta) := randomOperation D
  let dst ← quiet (.ofExcept t.requireBlock)
  let count ← quiet (.inspect t.count)
  issue ⟨⟨op, t.dtype,
    { device := t.device, output := dst, count := count, alpha := alpha, beta := beta }⟩, [], t⟩

/-- `Tensor.castTo`, traced. -/
def castToTraced (t : Tensor) (src : BlockId) (d : ElemType) (target : BlockId) : Traced Unit := do
  let bound ← quiet (.inspect t.isBound)
  let count ← quiet (.inspect t.count)
  if bound then
    issue ⟨⟨.cast, t.dtype,
      { device := t.device, inputs := [src], output := target, count := count, outType := d }⟩,
      [t], { t with dtype := d, block := some target }⟩

/-- `Tensor.convert`, traced. -/
def convertTraced (t : Tensor) (d : ElemType) : Traced Tensor :=
  if d = t.dtype then return t
  else
    match t.block with
    | none => return { t with dtype := d }
    | some b => do
      let size ← quiet (.examine fun s => Fault.ofTrap (Size.mul (t.count s) d.width))
      let inPlace ← quiet (.inspect (castsInPlace b size))
      if inPlace then
        t.castToTraced b d b
        return { t with dtype := d }
      else
        let target ← quiet (.changing (Store.acquire · t.device size))
        onFailure (·.release target) (t.castToTraced b d target)
        let t ← quiet (t.replaceBlock target)
        return { t with dtype := d }

/-- `Tensor.reduceBlock`, traced. -/
def reduceBlockTraced (t : Tensor) (b : BlockId) (op : Operation) (out : Tensor) :
    Traced Double := do
  let dst ← quiet (.ofExcept out.requireBlock)
  let count ← quiet (.inspect t.count)
  issue ⟨⟨op, t.dtype,
    { device := t.device, inputs := [b], output := dst, count := count }⟩, [t], out⟩
  let result ← quiet (out.read .float64)
  quiet (.ofExcept (Fault.ofTrap (Buffer.read result 0)))

/-- `Tensor.reduce`, traced. -/
def reduceTraced (t : Tensor) (op : Operation) : Traced Double :=
  match t.block with
  | none => return Double.zero
  | some b => do
    let out ← quiet (onDevice [1] t.device .float64)
    thenTidy out.release (t.reduceBlockTraced b op out)

/-- `Tensor.sumAxis`, traced. -/
def sumAxisTraced (t : Tensor) (axis : Nat) : Traced Tensor := do
  let c ← quiet (.ofExcept (t.collapse axis))
  Traced.building (quiet (onDevice [c.length] t.device t.dtype))
    ((Computation.sumAxis t axis).traced ·)

/-- `Tensor.average`, traced. -/
def averageTraced (t : Tensor) (axis : Nat) : Traced Tensor := do
  let c ← quiet (.ofExcept (t.collapse axis))
  Traced.building (t.sumAxisTraced axis) fun out =>
    (Computation.ofAssign .div out (.scalar (Double.ofInt c.collapsed))).traced out

@[simp] theorem run_fillTraced (t : Tensor) (x : Double) : (t.fillTraced x).run = t.fill x := by
  unfold fillTraced fill
  cases t.block <;> rfl

@[simp] theorem run_fillSamplesTraced (t : Tensor) (D : Distribution) :
    (t.fillSamplesTraced D).run = t.fillSamples D := rfl

@[simp] theorem run_castToTraced (t : Tensor) (src : BlockId) (d : ElemType) (target : BlockId) :
    (t.castToTraced src d target).run = t.castTo src d target := by
  simp only [castToTraced, castTo, run_bind, run_quiet, run_ite, run_issue, run_pure]
  rfl

@[simp] theorem run_convertTraced (t : Tensor) (d : ElemType) :
    (t.convertTraced d).run = t.convert d := by
  unfold convertTraced convert
  split
  · rfl
  · cases t.block with
    | none => rfl
    | some b =>
      simp only [run_bind, run_quiet, run_ite, run_onFailure, run_castToTraced, run_pure]

@[simp] theorem run_reduceBlockTraced (t : Tensor) (b : BlockId) (op : Operation) (out : Tensor) :
    (t.reduceBlockTraced b op out).run = t.reduceBlock b op out := rfl

@[simp] theorem run_reduceTraced (t : Tensor) (op : Operation) :
    (t.reduceTraced op).run = t.reduce op := by
  unfold reduceTraced reduce
  cases t.block <;> rfl

@[simp] theorem run_sumAxisTraced (t : Tensor) (axis : Nat) :
    (t.sumAxisTraced axis).run = t.sumAxis axis := by
  simp only [sumAxisTraced, sumAxis, run_bind, run_quiet, run_building, Computation.run_traced]
  rfl

@[simp] theorem run_averageTraced (t : Tensor) (axis : Nat) :
    (t.averageTraced axis).run = t.average axis := by
  simp only [averageTraced, average, run_bind, run_quiet, run_building, run_sumAxisTraced,
    Computation.run_traced, Computation.assign_eq]

end Tensor

/-! ## Evaluations -/

namespace Evaluation

open Tensor Traced

/-- The evaluation, traced. -/
def traced : Evaluation → Traced Tensor
  | .into c out => do
    c.traced out
    return out
  | .map op t x => Traced.building (quiet t.blankLike) ((Computation.map op t x).traced ·)
  | .zip op lhs rhs =>
    Traced.building (quiet lhs.blankLike) ((Computation.zip op lhs rhs).traced ·)
  | .sums which t => do
    let (rows, cols) ← quiet (.ofExcept t.asMatrix)
    Traced.building (quiet (onDevice [which.length rows cols] t.device t.dtype))
      ((Computation.sums which t).traced ·)
  | .sumAxis t axis => t.sumAxisTraced axis
  | .average t axis => t.averageTraced axis
  | .softmax t axis => Traced.building (quiet t.blankLike) ((Computation.softmax t axis).traced ·)
  | .product a b => do
    quiet (.examine (checkSameKind a b))
    let (shape, _) ← quiet (.ofExcept (productExtents a b))
    Traced.building (quiet (onDevice shape a.device a.dtype))
      ((Computation.product Double.one a b Double.zero).traced ·)
  | .operate f t rhs =>
    Traced.building (quiet t.blankLike) ((Computation.ofAssign f t rhs).traced ·)

@[simp] theorem run_traced (e : Evaluation) : e.traced.run = e.run := by
  cases e with
  | into c out => simp [traced, run]
  | map op t x => simp [traced, run, Tensor.map, Computation.into]
  | zip op lhs rhs => simp [traced, run, Tensor.zip, Computation.into]
  | sums which t => simp [traced, run, Tensor.sums, Computation.into]
  | sumAxis t axis => simp [traced, run]
  | average t axis => simp [traced, run]
  | softmax t axis => simp [traced, run, Tensor.softmax, Computation.into]
  | product a b =>
    simp only [traced, run, Tensor.product, run_bind, run_quiet, run_building,
      Computation.run_traced]
    rfl
  | operate f t rhs =>
    cases rhs with
    | tensor other =>
      simp [traced, run, Tensor.operate, Tensor.zip, Computation.ofAssign, Computation.into]
    | scalar x =>
      simp [traced, run, Tensor.operate, Tensor.map, Computation.ofAssign, Computation.into]

end Evaluation

/-! ## Calls -/

/-- A call of an operation. -/
inductive Call where
  | evaluate (e : Evaluation)
  | assign (f : Tensor.Operator) (t : Tensor) (rhs : Tensor.RightSide)
  | fill (t : Tensor) (x : Double)
  | fillSamples (t : Tensor) (D : Distribution)
  | convert (t : Tensor) (d : ElemType)
  | norm (t : Tensor)
  | sum (t : Tensor) (d : ElemType)
  deriving Repr

namespace Call

open Tensor Traced

/-- The tensors that the call is given. -/
def operands : Call → List Tensor
  | .evaluate e => e.operands
  | .assign f t rhs => (Computation.ofAssign f t rhs).inputs
  | .fill t _ => [t]
  | .fillSamples t _ => [t]
  | .convert t _ => [t]
  | .norm t => [t]
  | .sum t _ => [t]

/-- The operation of the call belongs to the family of the call. -/
def Proper : Call → Prop
  | .evaluate e => e.Proper
  | _ => True

/-- Runs the call; what it returns beside its effect is dropped. -/
def run : Call → Action Fault Unit
  | .evaluate e => do let _ ← e.run
  | .assign f t rhs => Tensor.assign f t rhs
  | .fill t x => Tensor.fill t x
  | .fillSamples t D => Tensor.fillSamples t D
  | .convert t d => do let _ ← Tensor.convert t d
  | .norm t => do let _ ← Tensor.norm t
  | .sum t d => do let _ ← Tensor.sum t d

/-- The call, traced. -/
def traced : Call → Traced Unit
  | .evaluate e => do let _ ← e.traced
  | .assign f t rhs => (Computation.ofAssign f t rhs).traced t
  | .fill t x => t.fillTraced x
  | .fillSamples t D => t.fillSamplesTraced D
  | .convert t d => do let _ ← t.convertTraced d
  | .norm t => do let _ ← t.reduceTraced .nrm2
  | .sum t d => do
    let total ← t.reduceTraced .sum
    match Elem.cast .float64 d total with
    | some _ => return ()
    | none => quiet (.fail (.sumNotRepresentable total d))

/-- The traced call is the call. -/
theorem run_traced (call : Call) : call.traced.run = call.run := by
  cases call with
  | evaluate e => simp [traced, run]
  | assign f t rhs => simp [traced, run, Computation.assign_eq]
  | fill t x => simp [traced, run]
  | fillSamples t D => simp [traced, run]
  | convert t d => simp [traced, run]
  | norm t =>
    simp only [traced, run, Tensor.norm, run_bind, run_reduceTraced, run_pure, Action.bind_assoc]
    rfl
  | sum t d =>
    simp only [traced, run, Tensor.sum, run_bind, run_reduceTraced, Action.bind_assoc]
    congr 1
    funext total
    cases Elem.cast .float64 d total <;> rfl

end Call

end DeviceTensor
