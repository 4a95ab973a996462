import DeviceTensor.Element.Double
set_option autoImplicit false

/-!
# Numbers from whole buffers

The sum and the Euclidean norm of a buffer are accumulated in the 64-bit format, whatever the type
of its elements.
-/

namespace DeviceTensor.Kernel

/-- The sum of all elements. -/
def sum {d : ElemType} (src : Array (Elem d)) : Double :=
  Double.sum (src.toList.map (Elem.toDouble d))

/-- The Euclidean norm: the square root of the sum of squares. -/
def norm {d : ElemType} (src : Array (Elem d)) : Double :=
  Double.sqrt <| Double.sum <| src.toList.map fun x =>
    Double.mul (Elem.toDouble d x) (Elem.toDouble d x)

end DeviceTensor.Kernel
