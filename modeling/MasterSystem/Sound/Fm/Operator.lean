import MasterSystem.Text.Named
import MasterSystem.Sound.Fm.Instrument
import MasterSystem.Sound.Fm.Tables

/-! # Operators of the FM chip

An operator is a sine wave with an envelope.  Every sample advances its envelope (`Operator.clock`)
and its phase (`Operator.turn`) and gives an output between -4095 and 4095.

Counters shared by all operators (`Counters`) time the envelopes, the tremolo and the vibrato. -/

namespace MasterSystem.Sound.Fm

/-! ### Shared counters -/

/-- Samples in a turn of the vibrato. -/
def vibratoPeriod : Nat := 7768

/-- Samples in a turn of the tremolo. -/
def tremoloPeriod : Nat := 13436

/-- Depth of the tremolo, in steps of attenuation. -/
def tremoloDepth : Nat := 13

/-- What is counted once per sample. -/
structure Counters where
  envelope : UInt32 := 0
  tremolo : Nat := 0
  vibrato : Nat := 0
deriving DecidableEq, Repr, Inhabited

namespace Counters

/-- One sample later. -/
def tick (c : Counters) : Counters where
  envelope := c.envelope + 1
  tremolo := (c.tremolo + 1) % tremoloPeriod
  vibrato := (c.vibrato + 1) % vibratoPeriod

/-- Attenuation that the tremolo adds now: a triangle. -/
def tremoloLevel (c : Counters) : Nat :=
  let half := tremoloPeriod / 2
  let at0 := c.tremolo % tremoloPeriod
  (if at0 < half then at0 else tremoloPeriod - at0) * tremoloDepth / half

/-- Deviation of the pitch now, in parts of 64. -/
def vibratoStep (c : Counters) : Int :=
  match c.vibrato * 8 / vibratoPeriod % 8 with
  | 1 | 3 => 1
  | 2 => 2
  | 5 | 7 => -1
  | 6 => -2
  | _ => 0

end Counters

/-! ### Pitch -/

/-- The registers of a channel that its operators follow. -/
structure Tuning where
  /-- Frequency number, nine bits. -/
  number : Nat
  /-- Octave. -/
  block : Nat
  /-- The release is slow. -/
  sustain : Bool
deriving DecidableEq, Repr

/-- Bits of the phase; the top ten index the sine table. -/
def phaseSize : Nat := 0x80000

/-- Place in the sine table that a phase stands for. -/
def tableIndex (phase : Nat) : Nat := phase / 512

/-- Advance of the phase per sample. -/
def phaseStep (t : Tuning) (s : Setting) (c : Counters) : Nat :=
  let number : Int := t.number
  let number := if s.pm then number + number / 64 * c.vibratoStep else number
  (number.toNat <<< t.block) * s.multiple / 2

/-- Attenuation at the top octave for each sixteenth of the frequency range. -/
def levelScaleBase : Array Int :=
  #[0, 24, 32, 37, 40, 43, 45, 47, 48, 50, 51, 52, 53, 54, 55, 56]

/-- Attenuation that high notes add. -/
def levelScaling (t : Tuning) (scale : Nat) : Nat :=
  if scale = 0 then 0
  else
    let base := levelScaleBase.getD (t.number / 32 % 16) 0 - 8 * (7 - (t.block : Int))
    (base.toNat * 2) >>> (3 - scale)

/-- How much high notes quicken the envelope. -/
def rateScaling (t : Tuning) (close : Bool) : Nat :=
  let code := 2 * t.block + t.number / 256
  if close then code else code / 4

/-! ### Envelopes -/

/-- Attenuation of silence, in steps of 0.375 dB. -/
def silence : Nat := 127

/-- Parts of an envelope. -/
inductive Stage where
  | attack
  | decay
  | sustain
  | release
  | off
deriving DecidableEq, Repr, Inhabited

instance : Text.Named Stage where
  names := [(.attack, "Attack"), (.decay, "Decay"), (.sustain, "Sustain"),
    (.release, "Release"), (.off, "Off")]

/-- How far an envelope of the rate moves on this sample: slow rates rest on most samples. -/
def envelopeStep (rate : Nat) (counter : UInt32) : Nat :=
  if rate < 4 then 0
  else
    let shift := 13 - rate / 4
    let count := counter.toNat
    if count % (1 <<< shift) ≠ 0 then 0
    else if 0 < shift ∧ 4 + rate % 4 ≤ (count >>> shift) % 8 then 0
    else if 52 ≤ rate then 1 <<< (rate / 4 - 13) else 1

/-- The rate of an envelope whose setting is `r`. -/
def rateOf (r scaling : Nat) : Nat := if r = 0 then 0 else min (r * 4 + scaling) 63

/-- An operator. -/
structure Operator where
  phase : Nat := 0
  /-- Attenuation by the envelope. -/
  level : Nat := silence
  stage : Stage := .off
  /-- The output before the last. -/
  older : Int := 0
  /-- The last output. -/
  newer : Int := 0
deriving DecidableEq, Repr, Inhabited

namespace Operator

/-- Start a note. -/
def keyOn (o : Operator) : Operator := { o with phase := 0, stage := .attack }

/-- End a note. -/
def keyOff (o : Operator) : Operator :=
  if o.stage = .off then o else { o with stage := .release }

/-- Start a note, end it, or go on. -/
def key (o : Operator) (rising falling : Bool) : Operator :=
  if rising then o.keyOn else if falling then o.keyOff else o

/-- The level a step later on the way to silence. -/
def fade (level step : Nat) : Nat := if step = 0 then level else min (level + step) silence

/-- The level a step later on the way to full loudness. -/
def rise (level step : Nat) : Nat :=
  if step = 0 then level else level - max (level * step / 8) 1

/-- The rate at which an operator is released: slowly under the sustain bit, else at least as
fast as 7 unless the instrument holds its level. -/
def releaseRate (s : Setting) (sustain : Bool) : Nat :=
  if sustain then 5 else if s.sustained then s.release else max 7 s.release

/-- Advance the envelope by one sample. -/
def clock (o : Operator) (s : Setting) (scaling : Nat) (sustain : Bool) (counter : UInt32) :
    Operator :=
  let step (r : Nat) := envelopeStep (rateOf r scaling) counter
  match o.stage with
  | .attack =>
    let level := if s.attack = 15 then 0 else rise o.level (step s.attack)
    { o with level := level, stage := if level = 0 then .decay else .attack }
  | .decay =>
    let level := fade o.level (step s.decay)
    { o with level := level, stage := if s.sustain * 8 ≤ level then .sustain else .decay }
  | .sustain => if s.sustained then o else { o with level := fade o.level (step s.release) }
  | .release =>
    let level := fade o.level (step (releaseRate s sustain))
    { o with level := level, stage := if silence ≤ level then .off else .release }
  | .off => { o with level := silence }

/-- Advance the phase by one sample. -/
def turn (o : Operator) (t : Tuning) (s : Setting) (c : Counters) : Operator :=
  { o with phase := (o.phase + phaseStep t s c) % phaseSize }

/-- The wave at a place of the table under an attenuation, silent when the envelope is. -/
def outputAt (o : Operator) (index attenuation : Nat) (rectify : Bool) : Int :=
  if silence ≤ o.level ∨ gainSize ≤ attenuation then 0
  else
    let wave := sineTable.getD index 0
    if rectify ∧ wave < 0 then 0 else wave * gainTable.getD attenuation 0 / 4096

/-- One sample of an operator whose place in the table is moved by `modulation`. -/
def sample (o : Operator) (s : Setting) (t : Tuning) (c : Counters) (attenuation : Nat)
    (modulation : Int) : Int × Operator :=
  let o := o.clock s (rateScaling t s.keyScaled) t.sustain c.envelope
  let index := (((tableIndex o.phase : Int) + modulation) % 1024).toNat
  let o := o.turn t s c
  let total := o.level + attenuation + levelScaling t s.levelScale +
    (if s.am then c.tremoloLevel else 0)
  (o.outputAt index total s.rectify, o)

/-- One sample of a drum, which plays a place of the table given from outside. -/
def drumSample (o : Operator) (s : Setting) (t : Tuning) (c : Counters) (attenuation : Nat)
    (index : Nat) : Int × Operator :=
  let o := (o.clock s (rateScaling t s.keyScaled) false c.envelope).turn t s c
  (o.outputAt (index % sineSize) (o.level + attenuation) false, o)

end Operator

end MasterSystem.Sound.Fm
