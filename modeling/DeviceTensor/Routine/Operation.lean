import DeviceTensor.Device.Backend
import DeviceTensor.Element.ElemType
import DeviceTensor.Kernel.Failure
set_option autoImplicit false

/-!
# Operations and their keys

Work on blocks is named by an operation.  Which routine does it depends on the element type and
the backend as well; the three together are the key of a routine.
-/

namespace DeviceTensor

/-- An operation a backend can have routines for. -/
inductive Operation where
  | fill
  | cast
  | abs
  | exp
  | log
  | relu
  | sigmoid
  | sign
  | sqrt
  | square
  | tanh
  | powScalar
  | pow
  | add
  | sub
  | mul
  | div
  | addScalar
  | subScalar
  | mulScalar
  | divScalar
  | scalarDiv
  | lt
  | le
  | gt
  | ge
  | sum
  | nrm2
  | softMax
  | addRow
  | addColumn
  | subRow
  | subColumn
  | multRow
  | multColumn
  | divRow
  | divColumn
  | sumRows
  | sumColumns
  | bernoulli
  | gaussian
  | uniform
  | axpy
  | gemm
  deriving DecidableEq, Repr, Inhabited

namespace Operation

/-- The name of an operation in messages. -/
def name : Operation → String
  | .fill => "Fill"
  | .cast => "Cast"
  | .abs => "Abs"
  | .exp => "Exp"
  | .log => "Log"
  | .relu => "Relu"
  | .sigmoid => "Sigmoid"
  | .sign => "Sign"
  | .sqrt => "Sqrt"
  | .square => "Square"
  | .tanh => "Tanh"
  | .powScalar => "PowScalar"
  | .pow => "Pow"
  | .add => "Add"
  | .sub => "Sub"
  | .mul => "Mul"
  | .div => "Div"
  | .addScalar => "AddScalar"
  | .subScalar => "SubScalar"
  | .mulScalar => "MulScalar"
  | .divScalar => "DivScalar"
  | .scalarDiv => "ScalarDiv"
  | .lt => "Lt"
  | .le => "Le"
  | .gt => "Gt"
  | .ge => "Ge"
  | .sum => "Sum"
  | .nrm2 => "Nrm2"
  | .softMax => "SoftMax"
  | .addRow => "AddRow"
  | .addColumn => "AddColumn"
  | .subRow => "SubRow"
  | .subColumn => "SubColumn"
  | .multRow => "MultRow"
  | .multColumn => "MultColumn"
  | .divRow => "DivRow"
  | .divColumn => "DivColumn"
  | .sumRows => "SumRows"
  | .sumColumns => "SumColumns"
  | .bernoulli => "Bernoulli"
  | .gaussian => "Gaussian"
  | .uniform => "Uniform"
  | .axpy => "Axpy"
  | .gemm => "Gemm"

/-- The operations every element type has. -/
def general : List Operation :=
  [.fill, .cast, .abs, .relu, .sign, .square, .add, .sub, .mul, .div, .addScalar, .subScalar,
    .mulScalar, .divScalar, .scalarDiv, .lt, .le, .gt, .ge, .sum, .nrm2, .addRow, .addColumn,
    .subRow, .subColumn, .multRow, .multColumn, .divRow, .divColumn, .sumRows, .sumColumns,
    .bernoulli, .uniform, .axpy, .gemm]

/-- The operations only floating point types have. -/
def floating : List Operation :=
  [.exp, .log, .sigmoid, .sqrt, .tanh, .powScalar, .pow, .softMax, .gaussian]

/-- All operations. -/
def all : List Operation := general ++ floating

/-- The operation with the given name. -/
def ofName? (name : String) : Option Operation := all.find? (·.name == name)

theorem mem_all (op : Operation) : op ∈ all := by
  cases op <;> decide

end Operation

/-- What a routine is registered for. -/
structure RoutineKey where
  dtype : ElemType
  backend : Backend
  op : Operation
  deriving DecidableEq, Repr, Inhabited

namespace RoutineKey

/-- The description of a key. -/
def text (key : RoutineKey) : String := s!"({key.dtype.name}, {key.backend.name}, {key.op.name})"

end RoutineKey

/-- Why work was not done for a key. -/
inductive LaunchError where
  /-- No routine is registered for the key. -/
  | missingRoutine (key : RoutineKey)
  /-- The routine of the key refused. -/
  | routineFailed (key : RoutineKey) (cause : Refusal)
  deriving DecidableEq, Repr, Inhabited

namespace LaunchError

/-- The wording of a launch error. -/
def message : LaunchError → String
  | .missingRoutine key => s!"No kernel registered for {key.text}"
  | .routineFailed key cause => s!"Kernel {key.text} failed: {cause.message}"

end LaunchError

end DeviceTensor
