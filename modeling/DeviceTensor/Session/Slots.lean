set_option autoImplicit false

/-!
# Named slots

A program names the tensors and blocks it holds.  A name stands for one thing at a time.
-/

namespace DeviceTensor

/-- Things by name, each name at most once. -/
structure Slots (α : Type) where
  entries : List (String × α)
  deriving Repr, Inhabited

namespace Slots

variable {α : Type}

/-- No names. -/
def empty : Slots α := ⟨[]⟩

/-- What the name stands for. -/
def get? (slots : Slots α) (name : String) : Option α := slots.entries.lookup name

/-- The slots without the name. -/
def erase (slots : Slots α) (name : String) : Slots α :=
  ⟨slots.entries.filter (·.1 != name)⟩

/-- The slots with the name standing for `x`. -/
def put (slots : Slots α) (name : String) (x : α) : Slots α :=
  ⟨(name, x) :: (slots.erase name).entries⟩

/-- All things with a name. -/
def values (slots : Slots α) : List α := slots.entries.map (·.2)

theorem get?_put_self (slots : Slots α) (name : String) (x : α) :
    (slots.put name x).get? name = some x := by
  simp [put, get?]

end Slots

end DeviceTensor
