import DeviceTensor.Element.Text
import DeviceTensor.Session.Step
import DeviceTensor.Proofs.Session.Transparency
import DeviceTensor.Proofs.Session.Validation
import DeviceTensor.Proofs.Tensor.Aliasing
import DeviceTensor.Proofs.Session.Frame
import DeviceTensor.Proofs.Session.Failure
import DeviceTensor.Proofs.Session.Laziness
import DeviceTensor.Proofs.Session.Migration
import DeviceTensor.Proofs.Session.Ownership
import DeviceTensor.Proofs.Session.Sampling
import DeviceTensor.Proofs.Session.Sharing
import DeviceTensor.Proofs.Session.Transfer
import DeviceTensor.Proofs.Routine.Bounds
import DeviceTensor.Proofs.Session.Result
import DeviceTensor.Proofs.Routine.Registration
import DeviceTensor.Proofs.Kernel.Broadcast
import DeviceTensor.Proofs.Session.Product
import DeviceTensor.Proofs.Session.Conversion
import DeviceTensor.Proofs.Kernel.Exactness
import DeviceTensor.Proofs.Session.Copying
import DeviceTensor.Proofs.Session.Form
import DeviceTensor.Proofs.Session.View
import DeviceTensor.Proofs.Kernel.Halting
import DeviceTensor.Proofs.Element.Value
import DeviceTensor.Proofs.Kernel.Total
import DeviceTensor.Proofs.Kernel.Softmax
import DeviceTensor.Proofs.Routine.Provided
import DeviceTensor.Proofs.Session.Comparison
import DeviceTensor.Proofs.Tensor.Mean
import DeviceTensor.Proofs.Tensor.Dimensions
import DeviceTensor.Proofs.Tensor.Softmax
import DeviceTensor.Proofs.Session.Reduction
import DeviceTensor.Proofs.Kernel.Indexing
import DeviceTensor.Proofs.Routine.Summation
import DeviceTensor.Proofs.Tensor.Summation
import DeviceTensor.Proofs.Session.Summation
