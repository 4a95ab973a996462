import DeviceTensor.Machine.Size
set_option autoImplicit false

/-!
# Shapes

A shape lists the size of every dimension of a tensor.
-/

namespace DeviceTensor

/-- The sizes of the dimensions of a tensor. -/
abbrev Shape : Type := List Nat

namespace Shape

/-- The description of a shape. -/
def text (shape : Shape) : String := "[" ++ ", ".intercalate (shape.map toString) ++ "]"

end Shape

end DeviceTensor
