import DeviceTensor.Tensor.Basic
set_option autoImplicit false

/-!
# Random fills

All elements of a tensor are drawn from a distribution, with the stream of the tensor's device.
-/

namespace DeviceTensor.Tensor

/-- The operation that fills with samples of a distribution, and its two scalars. -/
def randomOperation : Distribution → Operation × Double × Double
  | .bernoulli p => (.bernoulli, p, Double.zero)
  | .gaussian mean deviation => (.gaussian, mean, deviation)
  | .uniform low high => (.uniform, low, high)

/-- Fills the tensor with samples of a distribution. -/
def fillSamples (t : Tensor) (D : Distribution) : Action Fault Unit := do
  let (op, alpha, beta) := randomOperation D
  let dst ← Action.ofExcept t.requireBlock
  let count ← Action.inspect t.count
  launch op t.dtype
    { device := t.device, output := dst, count := count, alpha := alpha, beta := beta }

end DeviceTensor.Tensor
