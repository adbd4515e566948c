import MasterSystem.Sound.Fm
import MasterSystem.Sound.Psg
import MasterSystem.Television

/-! # Sound of the console

The tone generator, the FM chip where one is fitted, and the stereo output that they share.  A
console with an FM chip has a control that lets through one of the two, both or neither; programs
also use it to find out whether there is such a chip.  Without one, the tone generator is always
heard. -/

namespace MasterSystem.Sound

/-- What is let through: the tone generator and the FM chip. -/
structure Mix where
  psg : Bool
  fm : Bool
deriving DecidableEq, Repr

/-- What a byte for the mix control lets through. -/
def Mix.ofControl (v : UInt8) : Mix :=
  let choice := v &&& 3
  { psg := choice == 0 || choice == 3, fm := choice == 1 || choice == 3 }

/-- The sound chips and their output. -/
structure Mixer where
  psg : Psg
  fm : Option FmChip
  /-- Low three bits written to the mix control. -/
  control : UInt8
  output : Stereo
  sampleRate : Nat
deriving DecidableEq, Repr, Inhabited

namespace Mixer

/-- The choice in force. -/
def mix (m : Mixer) : Mix := if m.fm.isSome then Mix.ofControl m.control else ⟨true, false⟩

/-- The FM chip silenced or restored, if there is one. -/
def setFmEnabled (fm : Option FmChip) (time : Nat) (enabled : Bool) (out : Stereo) :
    Option FmChip × Stereo :=
  match fm with
  | none => (none, out)
  | some c =>
    let (c, out) := Chip.setEnabled c time enabled out
    (some c, out)

/-- Put the choice in force into effect at a clock of the current frame. -/
def applyMix (m : Mixer) (time : Nat) : Mixer :=
  let mix := m.mix
  let (psg, out) := Chip.setEnabled m.psg time mix.psg m.output
  let (fm, out) := setFmEnabled m.fm time mix.fm out
  { m with psg := psg, fm := fm, output := out }

/-- Samples that fit into the output: a tenth of a second, but not too few. -/
def capacity (sampleRate : Nat) : Nat := max (sampleRate / 10) 1024

/-- The sound of a console after power-on. -/
def new (timing : Standard) (sampleRate : Nat) (noise : NoiseVariant) (fmFitted : Bool) : Mixer :=
  applyMix
    { psg := .new noise
      fm := if fmFitted then some {} else none
      control := 0
      output := .new timing.clockHz sampleRate (capacity sampleRate)
      sampleRate := sampleRate } 0

/-- The sound as after power-on. -/
def reset (m : Mixer) : Mixer :=
  applyMix
    { m with
      psg := m.psg.reset, fm := m.fm.map Chip.reset, control := 0, output := m.output.clear } 0

/-- Whether an FM chip is fitted. -/
def fmFitted (m : Mixer) : Bool := m.fm.isSome

/-- Write a command to the tone generator. -/
def writePsg (m : Mixer) (time : Nat) (v : UInt8) : Mixer :=
  let (psg, out) := m.psg.writeData time v m.output
  { m with psg := psg, output := out }

/-- Write the stereo register of the tone generator. -/
def writeStereo (m : Mixer) (time : Nat) (v : UInt8) : Mixer :=
  let (psg, out) := m.psg.writeStereo time v m.output
  { m with psg := psg, output := out }

/-- Write to the FM chip: its address at an even port, its data at an odd one. -/
def writeFm (m : Mixer) (time : Nat) (port v : UInt8) : Mixer :=
  match m.fm with
  | none => m
  | some c =>
    let (c, out) := Chip.write c time (port &&& 1).toUInt16 v m.output
    { m with fm := some c, output := out }

/-- Write the mix control. -/
def writeControl (m : Mixer) (time : Nat) (v : UInt8) : Mixer :=
  applyMix { m with output := m.output.note (.soundMix v time), control := v &&& 7 } time

/-- Close a frame of some clocks: its samples can be read. -/
def endFrame (m : Mixer) (clocks : Nat) : Mixer :=
  let (psg, out) := Chip.endFrame m.psg clocks m.output
  let (fm, out) : Option FmChip × Stereo :=
    match m.fm with
    | none => (none, out)
    | some c =>
      let (c, out) := Chip.endFrame c clocks out
      (some c, out)
  { m with psg := psg, fm := fm, output := out.endFrame clocks }

/-- Pairs of samples that can be read. -/
def samplesAvail (m : Mixer) : Nat := m.output.samplesAvail

/-- Read samples, left before right, as many pairs as fit into `length` places. -/
def readSamples (m : Mixer) (length : Nat) : Array Int × Mixer :=
  let (samples, out) := m.output.readInterleaved length
  (samples, { m with output := out })

/-- Drop all samples. -/
def discard (m : Mixer) : Mixer := { m with output := m.output.discard }

end Mixer

end MasterSystem.Sound
