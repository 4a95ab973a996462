import DeviceTensor.Kernel.Failure
set_option autoImplicit false

/-!
# Sweeps

Every kernel fills its destination by a sweep: it visits cells in a fixed order, and each cell
names a position and the value stored there.  A sweep stops at the first cell that halts, or that
names a position behind the end; the cells before it keep what they stored, and nothing behind it
has been touched.
-/

namespace DeviceTensor

/-- What a kernel leaves in its destination, and how it ended. -/
abbrev Outcome (α : Type) : Type := Array α × Except Halt Unit

/-- Visits one cell: finds the position and the new value, and stores the value. -/
def visit {ι α : Type} (place : ι → Array α → Except Halt (Nat × α)) (c : ι) (dst : Array α) :
    Except Halt (Array α) := do
  let (k, x) ← place c dst
  Buffer.store dst k x

/-- Visits the cells in order.  `place` gives the position and the new value of a cell, and may
read the destination as the cells before left it. -/
def sweep {ι α : Type} (place : ι → Array α → Except Halt (Nat × α)) :
    List ι → Array α → Outcome α
  | [], dst => (dst, .ok ())
  | c :: cs, dst =>
    match visit place c dst with
    | .ok dst => sweep place cs dst
    | .error h => (dst, .error h)

/-- The kernel refuses and leaves the destination as it is. -/
def refuse {α : Type} (dst : Array α) (e : Refusal) : Outcome α := (dst, .error (.refused e))

/-- Runs the kernel if the check passes, and leaves the destination as it is otherwise. -/
def checked {α : Type} (check : Except Halt Unit) (dst : Array α) (run : Array α → Outcome α) :
    Outcome α :=
  match check with
  | .ok () => run dst
  | .error h => (dst, .error h)

/-- Requires two lengths to be equal. -/
def requireEqual (left right : Nat) : Except Halt Unit :=
  if left = right then .ok () else .error (.refused (.lengthMismatch left right))

theorem sweep_nil {ι α : Type} (place : ι → Array α → Except Halt (Nat × α)) (dst : Array α) :
    sweep place [] dst = (dst, .ok ()) := rfl

theorem sweep_append {ι α : Type} (place : ι → Array α → Except Halt (Nat × α))
    (cs ds : List ι) (dst : Array α) :
    sweep place (cs ++ ds) dst =
      match sweep place cs dst with
      | (dst, .ok ()) => sweep place ds dst
      | (dst, .error h) => (dst, .error h) := by
  induction cs generalizing dst with
  | nil => rfl
  | cons c cs ih =>
    simp only [List.cons_append, sweep]
    split
    · exact ih _
    · rfl

theorem size_visit {ι α : Type} {place : ι → Array α → Except Halt (Nat × α)} {c : ι}
    {dst dst' : Array α} (h : visit place c dst = .ok dst') : dst'.size = dst.size := by
  unfold visit at h
  cases hp : place c dst with
  | error e =>
    rw [hp] at h
    cases h
  | ok p =>
    rw [hp] at h
    change Halt.ofTrap (Buffer.store dst p.1 p.2) = .ok dst' at h
    cases hs : Buffer.store dst p.1 p.2 with
    | error t =>
      rw [hs] at h
      cases h
    | ok ys =>
      rw [hs] at h
      cases h
      exact Buffer.size_store hs

theorem size_sweep {ι α : Type} (place : ι → Array α → Except Halt (Nat × α))
    (cs : List ι) (dst : Array α) : (sweep place cs dst).1.size = dst.size := by
  induction cs generalizing dst with
  | nil => rfl
  | cons c cs ih =>
    unfold sweep
    split
    · rename_i dst' hvisit
      exact (ih dst').trans (size_visit hvisit)
    · rfl

end DeviceTensor
