import MasterSystem.Sound.Chip
import MasterSystem.Sound.Fm.Operator
import MasterSystem.Word

/-! # The FM chip

Nine channels of two operators: the modulator bends the wave of the carrier, which is heard.  In
rhythm mode the last three channels are five drums instead.

The chip is set up through 64 registers, of which one is addressed at a time.  It gives a sample
every 72 clocks; a sample that differs from the one before is a change of level in the stereo
output. -/

namespace MasterSystem.Sound

open Fm in
/-- A channel. -/
structure FmChannel where
  modulator : Operator := {}
  carrier : Operator := {}
  /-- The key is down. -/
  key : Bool := false
deriving DecidableEq, Repr, Inhabited

open Fm in
/-- An FM chip. -/
structure FmChip where
  /-- Register addressed. -/
  address : UInt8 := 0
  /-- The registers, 64 of them. -/
  regs : Array UInt8 := Array.replicate 64 0
  channels : Vector FmChannel 9 := Vector.replicate 9 {}
  /-- Drums whose key is down. -/
  rhythmKeys : UInt8 := 0
  /-- Noise for the drums. -/
  noise : UInt32 := 1
  counters : Counters := {}
  /-- Clock of the current frame at which the next sample is due. -/
  nextSample : Nat := 0
  lastOutput : Int := 0
  enabled : Bool := true
deriving DecidableEq, Repr, Inhabited

namespace FmChip

open Fm

/-- Clocks in a sample. -/
def sampleClocks : Nat := 72

/-- The value of register number `i`, zero where there is none. -/
@[inline] def reg (f : FmChip) (i : Nat) : UInt8 := f.regs.getD i 0

/-- The value of a register. -/
def register (f : FmChip) (i : UInt8) : UInt8 := f.reg i.toNat

/-- Address a register. -/
def writeAddress (f : FmChip) (v : UInt8) : FmChip := { f with address := v &&& 0x3F }

/-- Whether the last three channels are drums. -/
def rhythmMode (f : FmChip) : Bool := f.register 0x0E &&& 0x20 != 0

/-! ### Keys -/

/-- The chip with a channel changed. -/
def mapChannel (f : FmChip) (i : Fin 9) (g : FmChannel → FmChannel) : FmChip :=
  { f with channels := f.channels.set i.val (g f.channels[i]) }

/-- Put the key of a channel down or up. -/
def setKey (f : FmChip) (i : Fin 9) (down : Bool) : FmChip :=
  f.mapChannel i fun c =>
    let rising := down && !c.key
    let falling := !down && c.key
    { modulator := c.modulator.key rising falling
      carrier := c.carrier.key rising falling
      key := down }

/-- Take the keys of the drums from the rhythm register: bass drum, snare, tom, cymbal and
hi-hat, from bit 4 down. -/
def updateRhythmKeys (f : FmChip) : FmChip :=
  let keys := if f.rhythmMode then f.register 0x0E &&& 0x1F else 0
  let rising := keys &&& ~~~f.rhythmKeys
  let falling := f.rhythmKeys &&& ~~~keys
  let press (bit : UInt8) (o : Operator) := o.key (rising &&& bit != 0) (falling &&& bit != 0)
  let f := f.mapChannel 6 fun c =>
    { c with modulator := press 0x10 c.modulator, carrier := press 0x10 c.carrier }
  let f := f.mapChannel 7 fun c =>
    { c with modulator := press 0x01 c.modulator, carrier := press 0x08 c.carrier }
  let f := f.mapChannel 8 fun c =>
    { c with modulator := press 0x04 c.modulator, carrier := press 0x02 c.carrier }
  { f with rhythmKeys := keys }

/-! ### Samples -/

/-- The pitch of a channel. -/
def tuning (f : FmChip) (i : Fin 9) : Tuning :=
  let low := f.reg (0x10 + i.val)
  let high := f.reg (0x20 + i.val)
  { number := low.toNat + (high &&& 1).toNat * 256
    block := (high >>> 1 &&& 7).toNat
    sustain := high &&& 0x20 != 0 }

/-- The instrument and volume register of a channel. -/
def voice (f : FmChip) (i : Fin 9) : UInt8 := f.reg (0x30 + i.val)

/-- Attenuation of a channel's carrier. -/
def volume (f : FmChip) (i : Fin 9) : Nat := (f.voice i &&& 0x0F).toNat * 8

/-- Attenuation of the drum on a channel's modulator. -/
def drumVolume (f : FmChip) (i : Fin 9) : Nat := (f.voice i >>> 4).toNat * 8

/-- The instrument of a number; 0 is made of the first eight registers. -/
def patch (f : FmChip) (n : Nat) : Patch :=
  if n = 0 then Vector.ofFn fun i : Fin 8 => f.reg i.val
  else melodicPatches.getD (n - 1) bassDrum

/-- One sample of a channel of two operators.  The modulator hears its last two outputs. -/
def pairSample (c : FmChannel) (p : Patch) (t : Tuning) (counters : Counters)
    (attenuation : Nat) : Int × FmChannel :=
  let o := c.modulator
  let heard := if p.feedback = 0 then 0 else (o.older + o.newer) >>> (9 - p.feedback)
  let (m, o) := o.sample (p.setting .modulator) t counters p.modulatorLevel heard
  let o := { o with older := o.newer, newer := m }
  let (s, carrier) := c.carrier.sample (p.setting .carrier) t counters attenuation (m / 2)
  (s, { c with modulator := o, carrier := carrier })

/-- Sample a channel with an instrument, adding to `total`. -/
def playPair (f : FmChip) (i : Fin 9) (p : Patch) : Int × FmChip :=
  let (s, c) := pairSample f.channels[i] p (f.tuning i) f.counters (f.volume i)
  (s, { f with channels := f.channels.set i.val c })

/-- Sample a list of melodic channels, adding to `total`. -/
def playMelodic (f : FmChip) : List (Fin 9) → Int → Int × FmChip
  | [], total => (total, f)
  | i :: is, total =>
    let (s, f) := f.playPair i (f.patch (f.voice i >>> 4).toNat)
    playMelodic f is (total + s)

/-- Bit `n` of a number. -/
def bit (v n : Nat) : Bool := v.testBit n

/-- Place of the hi-hat in the sine table. -/
def hatIndex (ring noise : Bool) : Nat :=
  match ring, noise with
  | true, true => 0x2D0
  | true, false => 0x234
  | false, true => 0x34
  | false, false => 0xD0

/-- Place of the snare in the sine table. -/
def snareIndex (high noise : Bool) : Nat :=
  match high, noise with
  | true, false => 0x200
  | true, true => 0x300
  | false, false => 0x100
  | false, true => 0

/-- Place of the cymbal in the sine table. -/
def cymbalIndex (ring : Bool) : Nat := if ring then 0x300 else 0x100

/-- Sample the drums, which sound twice as loud as a channel. -/
def playDrums (f : FmChip) : Int × FmChip :=
  let (bass, f) := f.playPair 6 bassDrum
  let noise := f.noise &&& 1 != 0
  let c7 := f.channels[7]
  let c8 := f.channels[8]
  let t7 := f.tuning 7
  let t8 := f.tuning 8
  let hat := tableIndex c7.modulator.phase
  let cymbal := tableIndex c8.carrier.phase
  let ring := ((bit hat 2 ^^ bit hat 7) || bit hat 3) || (bit cymbal 3 ^^ bit cymbal 5)
  let (s1, hatOp) := c7.modulator.drumSample (hatSnare.setting .modulator) t7 f.counters
    (f.drumVolume 7) (hatIndex ring noise)
  let (s2, snareOp) := c7.carrier.drumSample (hatSnare.setting .carrier) t7 f.counters
    (f.volume 7) (snareIndex (bit hat 8) noise)
  let (s3, tomOp) := c8.modulator.drumSample (tomCymbal.setting .modulator) t8 f.counters
    (f.drumVolume 8) (tableIndex c8.modulator.phase)
  let (s4, cymbalOp) := c8.carrier.drumSample (tomCymbal.setting .carrier) t8 f.counters
    (f.volume 8) (cymbalIndex ring)
  let f := f.mapChannel 7 fun c => { c with modulator := hatOp, carrier := snareOp }
  let f := f.mapChannel 8 fun c => { c with modulator := tomOp, carrier := cymbalOp }
  (2 * (bass + s1 + s2 + s3 + s4), f)

/-- The noise register one sample later. -/
def nextNoise (n : UInt32) : UInt32 := (if n &&& 1 == 0 then n else n ^^^ 0x800302) >>> 1

/-- One sample of the chip. -/
def sample (f : FmChip) : Int × FmChip :=
  let rhythm := f.rhythmMode
  let (total, f) :=
    f.playMelodic (if rhythm then [0, 1, 2, 3, 4, 5] else [0, 1, 2, 3, 4, 5, 6, 7, 8]) 0
  let (drums, f) := if rhythm then f.playDrums else (0, f)
  (total + drums, { f with noise := nextNoise f.noise, counters := f.counters.tick })

/-- Play `n` samples. -/
def play : Nat → FmChip → Stereo → FmChip × Stereo
  | 0, f, out => (f, out)
  | n + 1, f, out =>
    let (s, f) := f.sample
    let s := if f.enabled then s else 0
    let time := f.nextSample
    let out := if s = f.lastOutput then out else out.addDelta .center time (s - f.lastOutput)
    play n { f with lastOutput := s, nextSample := time + sampleClocks } out

/-- Play up to a clock of the current frame. -/
def runUntil (f : FmChip) (time : Nat) (out : Stereo) : FmChip × Stereo :=
  play ((time - f.nextSample + (sampleClocks - 1)) / sampleClocks) f out

/-! ### Ports -/

/-- The chip after a byte went to the register addressed. -/
def store (f : FmChip) (v : UInt8) : FmChip :=
  let i := f.address.toNat
  let f := { f with regs := f.regs.setIfInBounds i v }
  if i = 0x0E then f.updateRhythmKeys
  else if h : 0x20 ≤ i ∧ i ≤ 0x28 then f.setKey ⟨i - 0x20, by omega⟩ (v &&& 0x10 != 0)
  else f

/-- Write to the register addressed. -/
def writeData (f : FmChip) (time : Nat) (v : UInt8) (out : Stereo) : FmChip × Stereo :=
  let (f, out) := f.runUntil time out
  (f.store v, out.note (.fmRegister f.address v))

/-- Whether any operator is playing. -/
def isActive (f : FmChip) : Bool :=
  f.channels.any fun c => c.carrier.stage ≠ .off || c.modulator.stage ≠ .off

instance : Chip FmChip where
  runUntil := runUntil
  write f time address v out :=
    if address &&& 1 == 0 then (f.writeAddress v, out) else f.writeData time v out
  read f address := f.register (Word.low address)
  rebase f clocks := { f with nextSample := f.nextSample - clocks }
  setEnabled f time enabled out :=
    let (f, out) := f.runUntil time out
    ({ f with enabled := enabled }, out)
  reset _ := {}

end FmChip

end MasterSystem.Sound
