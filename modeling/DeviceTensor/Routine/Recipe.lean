import DeviceTensor.Routine.Invocation
import DeviceTensor.Kernel.Pointwise
import DeviceTensor.Kernel.Product
import DeviceTensor.Kernel.Sampling
import DeviceTensor.Kernel.Softmax
import DeviceTensor.Kernel.Total
set_option autoImplicit false

/-!
# The host routines

A host routine follows one of a few recipes: which views it takes, when it casts its scalars, and
which kernel it runs on the output.  `Recipe.ofOperation?` names the recipe of every operation.
-/

namespace DeviceTensor

/-- The ways in which host routines on elements of type `d` work. -/
inductive Recipe (d : ElemType) where
  /-- Each element of the input by itself. -/
  | map (f : Elem d → Except Trap (Elem d))
  /-- Each element of the input with the scalar. -/
  | mapScalar (f : Elem d → Elem d → Except Trap (Elem d))
  /-- Pairs of elements of two inputs. -/
  | zip (f : Elem d → Elem d → Except Trap (Elem d))
  /-- The scalar everywhere. -/
  | fill
  /-- Each element of the input as an element of the output type. -/
  | cast
  /-- One 64-bit number from the whole input. -/
  | reduce (f : Array (Elem d) → Double)
  | softmax (F : Analysis (Elem d))
  /-- A vector with every row of the output. -/
  | row (f : Elem d → Elem d → Except Trap (Elem d))
  /-- A vector with every column of the output. -/
  | column (f : Elem d → Elem d → Except Trap (Elem d))
  /-- A multiple of a vector and a multiple of every row of the output. -/
  | scaledRow
  /-- A multiple of a vector and a multiple of every column of the output. -/
  | scaledColumn
  | sumRows
  | sumColumns
  /-- Samples of the distribution with the scalars as parameters. -/
  | random (D : Double → Double → Distribution)
  /-- A multiple of the input added to the output. -/
  | addScaled
  /-- A matrix product. -/
  | product
  /-- A matrix product that the library computes. -/
  | wideProduct

namespace Recipe

variable {d : ElemType}

/-- The recipe of an operation on elements of type `d`, if the type has the operation. -/
def ofOperation? (d : ElemType) (op : Operation) : Option (Recipe d) :=
  let A := arithmetic d
  match op with
  | .fill => some .fill
  | .cast => some .cast
  | .abs => some (.map A.abs)
  | .relu => some (.map fun x => .ok (A.relu x))
  | .sign => some (.map A.sign)
  | .square => some (.map A.square)
  | .exp => (analysis? d).map fun F => .map fun x => .ok (F.exp x)
  | .log => (analysis? d).map fun F => .map fun x => .ok (F.ln x)
  | .sigmoid => (analysis? d).map fun F => .map (A.sigmoid F)
  | .sqrt => (analysis? d).map fun F => .map fun x => .ok (F.sqrt x)
  | .tanh => (analysis? d).map fun F => .map fun x => .ok (F.tanh x)
  | .powScalar => (analysis? d).map fun F => .mapScalar fun x v => .ok (F.pow x v)
  | .pow => (analysis? d).map fun F => .zip fun x y => .ok (F.pow x y)
  | .add => some (.zip A.add)
  | .sub => some (.zip A.sub)
  | .mul => some (.zip A.mul)
  | .div => some (.zip A.div)
  | .addScalar => some (.mapScalar A.add)
  | .subScalar => some (.mapScalar A.sub)
  | .mulScalar => some (.mapScalar A.mul)
  | .divScalar => some (.mapScalar A.div)
  | .scalarDiv => some (.mapScalar fun x v => A.div v x)
  | .lt => some (.mapScalar fun x v => .ok (A.ofBool (A.lt x v)))
  | .le => some (.mapScalar fun x v => .ok (A.ofBool (A.le x v)))
  | .gt => some (.mapScalar fun x v => .ok (A.ofBool (A.lt v x)))
  | .ge => some (.mapScalar fun x v => .ok (A.ofBool (A.le v x)))
  | .sum => some (.reduce Kernel.sum)
  | .nrm2 => some (.reduce Kernel.norm)
  | .softMax => (analysis? d).map .softmax
  | .addRow => some .scaledRow
  | .addColumn => some .scaledColumn
  | .subRow => some (.row A.sub)
  | .subColumn => some (.column A.sub)
  | .multRow => some (.row A.mul)
  | .multColumn => some (.column A.mul)
  | .divRow => some (.row A.div)
  | .divColumn => some (.column A.div)
  | .sumRows => some .sumRows
  | .sumColumns => some .sumColumns
  | .bernoulli => some (.random fun p _ => .bernoulli p)
  | .gaussian => (analysis? d).map fun _ => .random .gaussian
  | .uniform => some (.random .uniform)
  | .axpy => some .addScaled
  | .gemm => some .product

/-- Combines a vector with every row of the output. -/
def runRow (inv : Invocation) (f : Elem d → Elem d → Except Trap (Elem d)) : Work Unit := do
  let g := inv.extents.grid
  let v ← inv.input d 0 g.cols
  let count ← Invocation.size g.checkedSize
  inv.run d count (Kernel.broadcastRow f v g)

/-- Combines a vector with every column of the output. -/
def runColumn (inv : Invocation) (f : Elem d → Elem d → Except Trap (Elem d)) : Work Unit := do
  let g := inv.extents.grid
  let v ← inv.input d 0 g.rows
  let count ← Invocation.size g.checkedSize
  inv.run d count (Kernel.broadcastColumn f v g)

/-- Fills the output with samples from the stream of the device. -/
def runRandom (inv : Invocation) (d : ElemType) (D : Distribution) : Work Unit := do
  let dst ← inv.output? d inv.count
  let device ← Action.inspect fun s => s.device inv.device
  let (o, stream) := Kernel.fillSamples D (device.draws D) (Elem.cast .float64 d) dst device.stream
  Action.change (Store.modifyDevice · inv.device fun device => { device with stream := stream })
  inv.settle o

/-- Runs a product kernel on two inputs and the output. -/
def runProduct (inv : Invocation)
    (kernel : Elem d → Array (Elem d) → Array (Elem d) → Elem d → Array (Elem d) →
      Outcome (Elem d)) : Work Unit := do
  let x := inv.extents
  let a ← inv.input d 0 (← Invocation.size (Size.mul x.rows x.inner))
  let b ← inv.input d 1 (← Invocation.size (Size.mul x.inner x.cols))
  let c ← inv.output? d (← Invocation.size (Size.mul x.rows x.cols))
  let alpha ← Invocation.scalar d inv.alpha
  let beta ← Invocation.scalar d inv.beta
  inv.settle (kernel alpha a b beta c)

/-- Runs the routine with this recipe. -/
def run (inv : Invocation) : Recipe d → Work Unit
  | .map f => do
    let src ← inv.input d 0 inv.count
    inv.run d inv.count (Kernel.map f src)
  | .mapScalar f => do
    let v ← Invocation.scalar d inv.alpha
    let src ← inv.input d 0 inv.count
    inv.run d inv.count (Kernel.map (f · v) src)
  | .zip f => do
    let lhs ← inv.input d 0 inv.count
    let rhs ← inv.input d 1 inv.count
    inv.run d inv.count (Kernel.zip f lhs rhs)
  | .fill => do
    let dst ← inv.output? d inv.count
    let v ← Invocation.scalar d inv.alpha
    inv.settle (Kernel.fill v dst)
  | .cast => do
    let src ← inv.input d 0 inv.count
    inv.run inv.outType inv.count (Kernel.cast (Elem.cast d inv.outType) src)
  | .reduce f => do
    let src ← inv.input d 0 inv.count
    inv.run .float64 1 (Kernel.fill (f src))
  | .softmax F => do
    let g := inv.extents.grid
    let count ← Invocation.size g.checkedSize
    let src ← inv.input d 0 count
    inv.run d count (Kernel.softmax (arithmetic d) F src g)
  | .row f => runRow inv f
  | .column f => runColumn inv f
  | .scaledRow => do
    let alpha ← Invocation.scalar d inv.alpha
    let beta ← Invocation.scalar d inv.beta
    runRow inv fun m v => (arithmetic d).combine alpha v beta m
  | .scaledColumn => do
    let alpha ← Invocation.scalar d inv.alpha
    let beta ← Invocation.scalar d inv.beta
    runColumn inv fun m v => (arithmetic d).combine alpha v beta m
  | .sumRows => do
    let g := inv.extents.grid
    let m ← inv.input d 0 (← Invocation.size g.checkedSize)
    inv.run d g.cols (Kernel.sumRows (arithmetic d) m g)
  | .sumColumns => do
    let g := inv.extents.grid
    let m ← inv.input d 0 (← Invocation.size g.checkedSize)
    inv.run d g.rows (Kernel.sumColumns (arithmetic d) m g)
  | .random D => runRandom inv d (D inv.alpha inv.beta)
  | .addScaled => do
    let x ← inv.input d 0 inv.count
    let alpha ← Invocation.scalar d inv.alpha
    inv.run d inv.count (Kernel.addScaled (arithmetic d) alpha x)
  | .product => runProduct inv fun alpha a b beta =>
      Kernel.product (arithmetic d) alpha a b beta inv.extents
  | .wideProduct => do
    let P ← Action.inspect fun s => s.library d
    runProduct inv fun alpha a b beta =>
      Kernel.wideProduct (arithmetic d) P alpha a b beta inv.extents

end Recipe

end DeviceTensor
