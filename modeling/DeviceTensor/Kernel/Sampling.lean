import DeviceTensor.Kernel.Sweep
import DeviceTensor.Sampling.Distribution
set_option autoImplicit false

/-!
# Random fills

A fill draws one sample for every position in order and stores its cast.  It refuses at the first
sample without a cast; that sample has been drawn.  Parameters that describe no distribution are
refused before anything is drawn.  How a sample is drawn from the state of a stream is up to the
caller.
-/

namespace DeviceTensor.Kernel

variable {σ α β : Type}

/-- Draws and stores one sample for every position of a list. -/
def drawInto (draw : σ → β × σ) (convert : β → Option α) :
    List Nat → Array α → σ → Outcome α × σ
  | [], dst, s => ((dst, .ok ()), s)
  | i :: is, dst, s =>
    let (x, s) := draw s
    match convert x with
    | some y =>
      match Buffer.store dst i y with
      | .ok dst => drawInto draw convert is dst s
      | .error t => ((dst, .error (.trap t)), s)
    | none => ((dst, .error (.refused (.castOutOfRange i))), s)

/-- Fills the destination with samples of a distribution, which `draw` draws. -/
def fillSamples (D : Distribution) (draw : σ → β × σ) (convert : β → Option α) (dst : Array α)
    (s : σ) : Outcome α × σ :=
  match D.check with
  | .error e => (refuse dst (.invalidDistribution e), s)
  | .ok () => drawInto draw convert (List.range dst.size) dst s

end DeviceTensor.Kernel
