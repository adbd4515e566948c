import MasterSystem.Sound.Sine

/-! # The kernel of a band-limited step

A step of the sound level that falls between two output samples is spread over sixteen of them,
so that it contains nothing above the highest frequency that the output can carry.  The weights
are a sinc with a Blackman window, one set for each of 64 positions (`phases`) between the
samples, in units of which `gain` make one.

The weights of each phase are rounded and then corrected at the middle one, so that they sum to
`gain` exactly: a step changes the level by its height and by nothing else. -/

namespace MasterSystem.Sound

/-- Output samples that a step touches. -/
def kernelWidth : Nat := 16

/-- Positions between two samples that are told apart. -/
def phases : Nat := 64

/-- Sum of the weights of a phase. -/
def gain : Int := 32768

/-- The part of the band that is kept: 23/25 of it.  The sinc at `k / 64` samples from the
centre. -/
def sinc (k : Int) : Int :=
  if k = 0 then 23 * one / 25 else sine (23 * k) 3200 * 64 * one / (pi * k)

/-- The window at `k / 64` samples from the centre; it spans 16 samples. -/
def window (k : Int) : Int :=
  let centred := k + 512
  42 * one / 100 - cosine centred 1024 / 2 + 8 * cosine (2 * centred) 1024 / 100

/-- A weight before it is scaled to the gain. -/
def rawWeight (phase tap : Nat) : Int :=
  let k := 64 * ((tap : Int) - 7) - phase
  sinc k * max (window k) 0 / one

/-- The sum of some weights. -/
def total (ws : List Int) : Int := ws.foldr (· + ·) 0

/-- The sixteen weights of a phase. -/
def weights (phase : Nat) : List Int :=
  let raw := (List.range kernelWidth).map (rawWeight phase)
  let scaled := raw.map fun w => nearest (w * gain) (total raw)
  scaled.modify 7 (· + (gain - total scaled))

/-- The weights of all phases. -/
def kernel : Array (List Int) := (Array.range phases).map weights

end MasterSystem.Sound
