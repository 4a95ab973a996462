import DeviceTensor.Routine.Operation
set_option autoImplicit false

/-!
# The registry of routines

The registry maps keys to routines.  Registering a key again replaces its routine; nothing is ever
removed.
-/

namespace DeviceTensor

/-- A table of values by key, each key once, in the order of first registration. -/
structure Registry (κ : Type) where
  entries : List (RoutineKey × κ)
  deriving DecidableEq, Repr, Inhabited

namespace Registry

variable {κ : Type}

/-- The registry without entries. -/
def empty : Registry κ := ⟨[]⟩

/-- The value registered for `key` in a list of entries. -/
def find? (key : RoutineKey) : List (RoutineKey × κ) → Option κ
  | [] => none
  | (k, v) :: rest => if k = key then some v else find? key rest

/-- The entries with `value` registered for `key`: in place if the key is there, else at the
end. -/
def put (key : RoutineKey) (value : κ) : List (RoutineKey × κ) → List (RoutineKey × κ)
  | [] => [(key, value)]
  | (k, v) :: rest => if k = key then (key, value) :: rest else (k, v) :: put key value rest

/-- What `put` makes of the entries, and the value that it replaces. -/
def swap (key : RoutineKey) (value : κ) :
    List (RoutineKey × κ) → Option κ × List (RoutineKey × κ)
  | [] => (none, [(key, value)])
  | (k, v) :: rest =>
    if k = key then (some v, (key, value) :: rest)
    else
      let (old, rest) := swap key value rest
      (old, (k, v) :: rest)

/-- The value registered for `key`. -/
def get? (r : Registry κ) (key : RoutineKey) : Option κ := find? key r.entries

/-- Registers `value` for `key`. -/
def register (r : Registry κ) (key : RoutineKey) (value : κ) : Registry κ :=
  ⟨put key value r.entries⟩

/-- Registers `value` for `key` and gives the value that it replaces. -/
def exchange (r : Registry κ) (key : RoutineKey) (value : κ) : Option κ × Registry κ :=
  let (old, entries) := swap key value r.entries
  (old, ⟨entries⟩)

/-- The value registered for `key`, or the error that there is none. -/
def lookup (r : Registry κ) (key : RoutineKey) : Except LaunchError κ :=
  match r.get? key with
  | some v => .ok v
  | none => .error (.missingRoutine key)

/-- Whether `key` is registered. -/
def contains (r : Registry κ) (key : RoutineKey) : Bool := (r.get? key).isSome

/-- The number of registered keys. -/
def size (r : Registry κ) : Nat := r.entries.length

theorem find?_put (key key' : RoutineKey) (value : κ) (es : List (RoutineKey × κ)) :
    find? key' (put key value es) = if key = key' then some value else find? key' es := by
  induction es with
  | nil => simp [put, find?]
  | cons e es ih =>
    obtain ⟨k, v⟩ := e
    by_cases hk : k = key
    · subst hk
      by_cases h : k = key' <;> simp [put, find?, h]
    · by_cases h : k = key'
      · subst h
        have hne : ¬ key = k := fun h => hk h.symm
        simp [put, find?, hk, hne]
      · simp [put, find?, hk, h, ih]

theorem get?_register (r : Registry κ) (key key' : RoutineKey) (value : κ) :
    (r.register key value).get? key' = if key = key' then some value else r.get? key' :=
  find?_put key key' value r.entries

end Registry

end DeviceTensor
