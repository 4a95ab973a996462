import DeviceTensor.Element.Double
import DeviceTensor.Kernel.Failure
import DeviceTensor.Sampling.Stream
set_option autoImplicit false

/-!
# Distributions

Three distributions over 64-bit numbers.  Their parameters are checked before anything is drawn;
a sample consumes a stream and leaves the rest of it.

Both are the business of a library outside the kernels.  `check` writes out which parameters that
library documents as valid, in the order in which it looks at them.  How it turns the words of a
stream into samples it leaves open: `sample` is one way to do so, with which programs can be run,
and a device may come with any other (`Device.draws`).
-/

namespace DeviceTensor

/-- A distribution and its parameters. -/
inductive Distribution where
  /-- One with probability `p`, else zero. -/
  | bernoulli (p : Double)
  | gaussian (mean deviation : Double)
  /-- Numbers from `low` up to, but without, `high`. -/
  | uniform (low high : Double)
  deriving DecidableEq, Repr, Inhabited

namespace Distribution

/-- Whether the parameters describe a distribution, as the library documents it. -/
def check : Distribution → Except DistributionError Unit
  | .bernoulli p =>
    if Double.le Double.zero p && Double.le p Double.one then .ok () else .error .probabilityOutside
  | .gaussian _ deviation =>
    if Double.isFinite deviation then .ok () else .error .unboundedDeviation
  | .uniform low high =>
    if !Double.isFinite low || !Double.isFinite high then .error .unboundedRange
    else if !Double.lt low high then .error .emptyRange
    else if !Double.isFinite (Double.sub high low) then .error .unboundedRange
    else .ok ()

/-- A multiple of `2 ^ -52` from zero up to, but without, one. -/
def unit (s : Stream) : Double × Stream :=
  let (w, s) := s.next
  (Double.ofMantissa (w >>> 12).toNat, s)

/-- The sum of `n` draws from `unit` and a number. -/
def sumOfUnits : Nat → Double → Stream → Double × Stream
  | 0, acc, s => (acc, s)
  | n + 1, acc, s =>
    let (u, s) := unit s
    sumOfUnits n (Double.add acc u) s

/-- A number of mean zero and deviation one: twelve draws from `unit`, less six. -/
def standard (s : Stream) : Double × Stream := sumOfUnits 12 (Double.ofInt (-6)) s

/-- Draws one number, in the place of the library.  A probability of one needs no draw; a uniform
sample that rounds up to the upper bound is the lower bound instead. -/
def sample : Distribution → Stream → Double × Stream
  | .bernoulli p, s =>
    if p = Double.one then (Double.one, s)
    else
      let (u, s) := unit s
      (if Double.lt u p then Double.one else Double.zero, s)
  | .gaussian mean deviation, s =>
    let (z, s) := standard s
    (Double.add mean (Double.mul deviation z), s)
  | .uniform low high, s =>
    let (u, s) := unit s
    let x := Double.add (Double.mul u (Double.sub high low)) low
    (if Double.lt x high then x else low, s)

end Distribution

end DeviceTensor
