import MasterSystem.Journal
import MasterSystem.Sound.StepKernel

/-! # The band-limited resampler

Sound chips report *changes* of their level at the clock at which they happen.  A
`Resampler` spreads each change over the output samples around it (`addDelta`), closes a stretch
of input clocks (`endFrame`), and turns the accumulated changes back into a level when samples
are read (`read`).  Reading also lets the level decay slowly to zero, which takes away any
constant part.

Positions between samples are kept in units of `2 ^ 32` to a sample.  `integrator` is the level
that the next sample starts from. -/

namespace MasterSystem.Sound

/-- Fractions of a sample in which positions are kept. -/
def timeUnit : Nat := 0x100000000

/-- A buffer between a chip's clock and the output's. -/
structure Resampler where
  /-- Output samples per input clock, in fractions. -/
  factor : Nat
  /-- Position within its first sample at which the current frame starts. -/
  offset : Nat
  /-- Samples finished and not yet read. -/
  avail : Nat
  /-- Level before the first unread sample, times the gain. -/
  integrator : Int
  /-- Changes of level, unread samples first. -/
  slots : Array Int
deriving DecidableEq, Repr, Inhabited

namespace Resampler

/-- Output samples per input clock, in fractions, rounded up.  A clock of zero counts as one. -/
def factorOf (clockRate sampleRate : Nat) : Nat :=
  let clock := max clockRate 1
  (sampleRate * timeUnit + (clock - 1)) / clock

/-- The resampler with another input clock.  A position of exactly zero becomes the middle of a
clock. -/
def setRates (b : Resampler) (clockRate sampleRate : Nat) : Resampler :=
  let factor := factorOf clockRate sampleRate
  { b with factor := factor, offset := if b.offset = 0 then factor / 2 else b.offset }

/-- An empty resampler that holds up to `capacity` samples between reads. -/
def new (clockRate sampleRate capacity : Nat) : Resampler :=
  setRates ⟨0, 0, 0, 0, Array.replicate (capacity + kernelWidth + 1) 0⟩ clockRate sampleRate

/-- The resampler without anything added to it. -/
def clear (b : Resampler) : Resampler :=
  { b with
    offset := b.factor / 2, avail := 0, integrator := 0
    slots := Array.replicate b.slots.size 0 }

/-- Samples that fit between reads. -/
def capacity (b : Resampler) : Nat := b.slots.size - kernelWidth - 1

/-- The position of a clock of the current frame. -/
@[inline] def position (b : Resampler) (clocks : Nat) : Nat := clocks * b.factor + b.offset

/-- Samples that the next `clocks` input clocks finish. -/
def clocksToSamples (b : Resampler) (clocks : Nat) : Nat := b.position clocks / timeUnit

/-- The slot at which a change at `time` starts. -/
@[inline] def slotOf (b : Resampler) (time : Nat) : Nat := b.avail + b.position time / timeUnit

/-- Add weighted copies of a change to consecutive slots. -/
def spread (slots : Array Int) (i : Nat) (delta : Int) : List Int → Array Int
  | [] => slots
  | w :: ws => spread (slots.modify i (· + w * delta)) (i + 1) delta ws

/-- Add a change of level at a clock of the current frame.  A change past the end of the buffer
lands on its last slot, so the level is kept even when a frame overruns. -/
def addDelta (b : Resampler) (time : Nat) (delta : Int) : Resampler :=
  if delta = 0 then b
  else
    let slot := b.slotOf time
    let last := b.capacity
    let phase := if slot ≤ last then b.position time / (timeUnit / phases) % phases else 0
    { b with slots := spread b.slots (min slot last) delta (kernel.getD phase []) }

/-- The note about a change that came past the end of the buffer. -/
def lateNote (b : Resampler) (time : Nat) (delta : Int) : Option Note :=
  if delta ≠ 0 ∧ b.capacity < b.slotOf time then
    some (.lateStep time (b.slotOf time - b.capacity))
  else none

/-- Close a frame of input clocks: its samples can be read.  Samples beyond the capacity are
dropped. -/
def endFrame (b : Resampler) (clocks : Nat) : Resampler :=
  { b with
    avail := min (b.slotOf clocks) b.capacity
    offset := b.position clocks % timeUnit }

/-- The note about samples that closing a frame drops. -/
def fullNote (b : Resampler) (clocks : Nat) : Option Note :=
  if b.capacity < b.slotOf clocks then some (.droppedSamples (b.slotOf clocks - b.capacity))
  else none

/-- The output sample for a level: its whole part, held within sixteen bits. -/
@[inline] def sampleOf (level : Int) : Int := max (-32768) (min 32767 (level / gain))

/-- The level after a sample that changes it by `delta` and decays it. -/
@[inline] def nextLevel (level delta : Int) : Int := level + delta - 64 * sampleOf level

/-- Integrate `n` slots from slot `i` on, pushing their samples. -/
def integrate (slots : Array Int) : Nat → Nat → Int → Array Int → Int × Array Int
  | 0, _, level, out => (level, out)
  | n + 1, i, level, out =>
    integrate slots n (i + 1) (nextLevel level (slots.getD i 0)) (out.push (sampleOf level))

/-- The resampler without its first `count` samples.  Slots that no unread sample or unfinished
step can reach are cleared. -/
def drop (b : Resampler) (count : Nat) : Resampler :=
  let remain := b.avail + kernelWidth - count
  let kept := b.slots.extract count (count + remain)
  { b with
    avail := b.avail - count
    slots := kept ++ Array.replicate (b.slots.size - kept.size) 0 }

/-- Read up to `count` samples. -/
def read (b : Resampler) (count : Nat) : Array Int × Resampler :=
  let count := min count b.avail
  let (level, out) := integrate b.slots count 0 b.integrator (Array.mkEmpty count)
  (out, drop { b with integrator := level } count)

/-- Place samples at every `stride`-th place of `dst`, from place `i` on. -/
def place (dst : Array Int) (stride : Nat) : Nat → List Int → Array Int
  | _, [] => dst
  | i, s :: ss => place (dst.setIfInBounds i s) stride (i + stride) ss

/-- Read up to `count` samples into every `stride`-th place of `dst`, as far as it reaches.  The
number read comes first.  A stride of zero counts as one. -/
def readInto (b : Resampler) (dst : Array Int) (count stride : Nat) :
    Nat × Array Int × Resampler :=
  let stride := max stride 1
  let (samples, b) := b.read (min count ((dst.size + stride - 1) / stride))
  (samples.size, place dst stride 0 samples.toList, b)

end Resampler

end MasterSystem.Sound
