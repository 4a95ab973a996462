import DeviceTensor.Fault
import DeviceTensor.Store.Basic
set_option autoImplicit false

/-!
# Actions on the store

An action reads and changes the store and may fail.  What it changed before failing stays: a
kernel that halts midway leaves the elements it wrote.
-/

namespace DeviceTensor

/-- A computation on the store that gives a result or fails, and leaves a store in either case. -/
def Action (ε α : Type) : Type := Store → Except ε α × Store

namespace Action

variable {ε ε' α β : Type}

/-- The result `x`, without a change. -/
def pure (x : α) : Action ε α := fun s => (.ok x, s)

/-- The failure `e`, without a change. -/
def fail (e : ε) : Action ε α := fun s => (.error e, s)

/-- Goes on with the result of an action that did not fail. -/
def bind (x : Action ε α) (next : α → Action ε β) : Action ε β := fun s =>
  match x s with
  | (.ok a, s) => next a s
  | (.error e, s) => (.error e, s)

instance : Monad (Action ε) where
  pure := Action.pure
  bind := Action.bind

/-- A look at the store. -/
def inspect (f : Store → α) : Action ε α := fun s => (.ok (f s), s)

/-- A look at the store that may find a fault. -/
def examine (f : Store → Except ε α) : Action ε α := fun s => (f s, s)

/-- A change of the store. -/
def change (f : Store → Store) : Action ε Unit := fun s => (.ok (), f s)

/-- A change of the store with a result. -/
def changing (f : Store → α × Store) : Action ε α := fun s =>
  let (a, s) := f s
  (.ok a, s)

/-- The result of a computation that does not depend on the store. -/
def ofExcept (x : Except ε α) : Action ε α := fun s => (x, s)

/-- Asks a device, which remembers that it was asked. -/
def request (d : DeviceId) (r : Request) (fault : DeviceFailure → Fault) : Action Fault Unit :=
  fun s => (((s.device d).answer r).mapError fault, s.modifyDevice d (·.after r))

/-- The same action with its failures renamed. -/
def mapError (f : ε → ε') (x : Action ε α) : Action ε' α := fun s =>
  match x s with
  | (.ok a, s) => (.ok a, s)
  | (.error e, s) => (.error (f e), s)

/-- Runs `x` and then lets `f` tidy the store up, also when `x` failed. -/
def thenTidy (f : Store → Store) (x : Action ε α) : Action ε α := fun s =>
  let (r, s) := x s
  (r, f s)

/-- Runs `x` and lets `f` tidy the store up if `x` failed. -/
def onFailure (f : Store → Store) (x : Action ε α) : Action ε α := fun s =>
  match x s with
  | (.ok a, s) => (.ok a, s)
  | (.error e, s) => (.error e, f s)

theorem bind_apply (x : Action ε α) (next : α → Action ε β) (s : Store) :
    (x >>= next) s =
      match x s with
      | (.ok a, s) => next a s
      | (.error e, s) => (.error e, s) := rfl

theorem mapError_apply (f : ε → ε') (x : Action ε α) (s : Store) :
    x.mapError f s = ((x s).1.mapError f, (x s).2) := by
  unfold mapError
  split
  · rename_i hx
    rw [hx]
    rfl
  · rename_i hx
    rw [hx]
    rfl

end Action

end DeviceTensor
