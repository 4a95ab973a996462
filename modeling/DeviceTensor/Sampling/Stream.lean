set_option autoImplicit false

/-!
# Random streams

A stream is a seed and a position: word `n` of the stream is a fixed function of the seed and `n`,
so that equal seeds give equal streams and a stream is consumed one word after the other.
-/

namespace DeviceTensor

/-- A stream of random words, by its seed and the number of words drawn so far. -/
structure Stream where
  seed : Nat
  drawn : Nat := 0
  deriving DecidableEq, Repr, Inhabited

namespace Stream

/-- A 64-bit word whose bits all depend on all bits of `x`. -/
def scramble (x : UInt64) : UInt64 :=
  let x := (x ^^^ (x >>> 30)) * 0xbf58476d1ce4e5b9
  let x := (x ^^^ (x >>> 27)) * 0x94d049bb133111eb
  x ^^^ (x >>> 31)

/-- Word `n` of the stream with the given seed. -/
def word (seed n : Nat) : UInt64 :=
  let key := scramble (UInt64.ofNat seed) + scramble (UInt64.ofNat (seed >>> 64) + 1)
  scramble (key + UInt64.ofNat (n + 1) * 0x9e3779b97f4a7c15)

/-- Draws the next word. -/
def next (s : Stream) : UInt64 × Stream := (word s.seed s.drawn, { s with drawn := s.drawn + 1 })

end Stream

end DeviceTensor
