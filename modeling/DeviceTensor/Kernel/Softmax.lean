import DeviceTensor.Kernel.Broadcast
set_option autoImplicit false

/-!
# Softmax

Softmax turns every row of a matrix into exponentials, shifted by the row's maximum and divided by
their sum.
-/

namespace DeviceTensor.Kernel

variable {α : Type}

/-- Goes on with a kernel that has run to its end. -/
def andThen (o : Outcome α) (next : Array α → Outcome α) : Outcome α :=
  match o with
  | (dst, .ok ()) => next dst
  | (dst, .error h) => (dst, .error h)

/-- Goes on with the value of a computation that did not halt. -/
def withValue {β : Type} (x : Except Trap β) (dst : Array α) (next : β → Array α → Outcome α) :
    Outcome α :=
  match x with
  | .ok x => next x dst
  | .error t => (dst, .error (.trap t))

@[simp]
theorem withValue_ok {β : Type} (b : β) (dst : Array α) (next : β → Array α → Outcome α) :
    withValue (.ok b) dst next = next b dst := rfl

@[simp]
theorem withValue_error {β : Type} (t : Trap) (dst : Array α) (next : β → Array α → Outcome α) :
    withValue (.error t) dst next = (dst, .error (.trap t)) := rfl

/-- The element of a matrix at `(i, j)`. -/
def readCell (m : Array α) (g : Grid) (i j : Nat) : Except Trap α := do
  let place ← g.checkedOffset i j
  Buffer.read m place

/-- The maximum of row `i`, from negative infinity and from the first column on. -/
def rowMaximum (F : Analysis α) (src : Array α) (g : Grid) (i : Nat) : Except Trap α :=
  (List.range g.cols).foldlM
    (fun top j => do
      let x ← readCell src g i j
      return F.max top x) F.negInfinity

/-- The place of an element of row `i`, and the exponential of that element shifted by `top`. -/
def shiftedAt (A : Arithmetic α) (F : Analysis α) (src : Array α) (g : Grid) (i : Nat) (top : α)
    (j : Nat) : Except Trap (Nat × α) := do
  let place ← g.checkedOffset i j
  let x ← Buffer.read src place
  let shifted ← A.sub x top
  return (place, F.exp shifted)

/-- Stores `exp (x - top)` for elements `x` of row `i` of the source, adds each of these to the sum
as soon as it is stored, and goes on with the sum. -/
def shiftRow (A : Arithmetic α) (F : Analysis α) (src : Array α) (g : Grid) (i : Nat) (top : α)
    (next : α → Array α → Outcome α) : List Nat → α → Array α → Outcome α
  | [], sum, dst => next sum dst
  | j :: js, sum, dst =>
    withValue (shiftedAt A F src g i top j) dst fun (place, power) dst =>
      withValue (Buffer.store dst place power) dst fun dst _ =>
        withValue (A.add sum power) dst (shiftRow A F src g i top next js)

/-- Divides every element of row `i` of the destination. -/
def divideRow (A : Arithmetic α) (g : Grid) (i : Nat) (denominator : α) : Array α → Outcome α :=
  sweep (fun j dst => do
    let place ← g.checkedOffset i j
    let x ← Buffer.read dst place
    let quotient ← A.div x denominator
    return (place, quotient)) (List.range g.cols)

/-- Softmax of row `i`: its exponentials are stored and summed in one pass, and then divided. -/
def softmaxRow (A : Arithmetic α) (F : Analysis α) (src : Array α) (g : Grid) (dst : Array α)
    (i : Nat) : Outcome α :=
  withValue (rowMaximum F src g i) dst fun top =>
    shiftRow A F src g i top (divideRow A g i) (List.range g.cols) A.zero

/-- Softmax of every row. -/
def softmax (A : Arithmetic α) (F : Analysis α) (src : Array α) (g : Grid) (dst : Array α) :
    Outcome α :=
  checked (requireEqual src.size dst.size *> requireHolds src.size g) dst fun dst =>
    (List.range g.rows).foldl (fun o i => andThen o fun dst => softmaxRow A F src g dst i)
      (dst, .ok ())

end DeviceTensor.Kernel
