import DeviceTensor.Routine.Registry
set_option autoImplicit false

/-!
# Routines

A routine does the work of an operation on blocks.  The host catalog has one for every element
type and operation, with products of its own for the two wide floating point types; the probes
are small routines that make a launch observable.
-/

namespace DeviceTensor

/-- Small routines for observing launches. -/
inductive Probe where
  /-- Does nothing. -/
  | idle
  /-- Writes `0, 1, 2, …` into the bytes of the output. -/
  | ramp
  /-- Refuses as if the element type were not supported. -/
  | unsupported
  /-- Refuses with the element count and the number of inputs. -/
  | mismatch
  /-- Refuses with the scalars, the output type and the extents. -/
  | echo
  deriving DecidableEq, Repr, Inhabited

namespace Probe

/-- The word by which the unsupported probe names its element type. -/
def customType : String := "custom"

end Probe

/-- What can be registered for a key. -/
inductive Routine where
  /-- The host routine of an element type for an operation. -/
  | catalog (dtype : ElemType) (op : Operation)
  /-- The product of 32-bit floating point matrices. -/
  | singleProduct
  /-- The product of 64-bit floating point matrices. -/
  | doubleProduct
  | probe (p : Probe)
  deriving DecidableEq, Repr, Inhabited

namespace Routine

/-- The operations the host catalog has for an element type. -/
def operations (d : ElemType) : List Operation :=
  if d.isFloat then Operation.general ++ Operation.floating else Operation.general

/-- The host catalog for one backend: every routine of every element type, and then the products
of the wide floating point types in place of the general ones. -/
def hostCatalog (backend : Backend) : List (RoutineKey × Routine) :=
  (ElemType.all.flatMap fun d => (operations d).map fun op => (⟨d, backend, op⟩, catalog d op)) ++
    [(⟨.float32, backend, .gemm⟩, singleProduct), (⟨.float64, backend, .gemm⟩, doubleProduct)]

end Routine

namespace Registry

/-- Registers the host catalog for one backend. -/
def registerCatalog (r : Registry Routine) (backend : Backend) : Registry Routine :=
  (Routine.hostCatalog backend).foldl (fun r e => r.register e.1 e.2) r

/-- The registry with the host catalog for host memory. -/
def hostRegistry : Registry Routine := Registry.empty.registerCatalog .cpp

end Registry

end DeviceTensor
