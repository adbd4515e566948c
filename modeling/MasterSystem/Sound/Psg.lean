import MasterSystem.Text.Named
import MasterSystem.Sound.Chip
import MasterSystem.Word

/-! # The programmable sound generator

Three square waves and a noise channel, each with sixteen levels of loudness.

* **Oscillators.**  Each channel remembers the level that it has put into the output and how
  far past the end of the last run its next edge is (`Oscillator`).  Running it over a window of
  clocks plays the edges that fall inside.
* **Tones.**  A tone too high to be heard, and a silent one, only keep their phase.
* **Noise.**  A shift register is clocked at a fixed rate or at twice the third tone's period; its
  lowest bit is the output.  White noise feeds two of its bits back, periodic noise one.
* **Commands.**  A byte with its top bit set chooses a register and gives its low bits; other
  bytes go to the register chosen last. -/

namespace MasterSystem.Sound

/-- The two forms of the noise shift register. -/
inductive NoiseVariant where
  /-- Sixteen bits, fed back from bits 0 and 3. -/
  | sega
  /-- Fifteen bits, fed back from bits 0 and 1. -/
  | ti
deriving DecidableEq, Repr, Inhabited

instance : Text.Named NoiseVariant where
  names := [(.sega, "Sega"), (.ti, "Ti")]

namespace NoiseVariant

/-- Bits fed back by white noise. -/
def whiteTaps : NoiseVariant → UInt16
  | sega => 0x0009
  | ti => 0x0003

/-- The bit fed in by periodic noise. -/
def periodicTaps : NoiseVariant → UInt16
  | sega => 0x8000
  | ti => 0x4000

/-- Contents of the shift register when the noise is chosen. -/
def seed : NoiseVariant → UInt16 := periodicTaps

end NoiseVariant

/-- What all four channels have. -/
structure Oscillator where
  /-- Loudness: 0 is loudest, 15 is off. -/
  attenuation : UInt8 := 0
  routing : Routing := .center
  /-- Level now in the output. -/
  level : Int := 0
  /-- Clocks past the end of the last run until the next edge. -/
  delay : Nat := 0
deriving DecidableEq, Repr, Inhabited

namespace Oscillator

/-- Amplitude for each attenuation. -/
def amplitudes : Array Int := #[64, 50, 39, 31, 24, 19, 15, 12, 9, 7, 5, 4, 3, 2, 1, 0]

/-- Amplitude in the units of the output. -/
def volume (o : Oscillator) (enabled : Bool) : Int :=
  if enabled then amplitudes.getD (o.attenuation &&& 0x0F).toNat 0 * 64 else 0

/-- Bring the channel's level in the output to `level`. -/
def setLevel (o : Oscillator) (time : Nat) (level : Int) (out : Stereo) : Oscillator × Stereo :=
  let delta := level - o.level
  if delta = 0 then (o, out)
  else ({ o with level := level }, out.addDelta o.routing time delta)

end Oscillator

/-- The number of edges from `time` on, `period` apart, before `stop`. -/
def edges (time stop period : Nat) : Nat := (stop - time + (period - 1)) / period

/-! ### Tones -/

/-- A square wave. -/
structure Square where
  osc : Oscillator := {}
  /-- Clocks in half a wave. -/
  period : Nat := 0
  /-- The wave is in its upper half. -/
  phase : Bool := false
deriving DecidableEq, Repr, Inhabited

namespace Square

/-- Half waves at or below this length are above 14 kHz and are not played. -/
def inaudible : Nat := 128

/-- Play `n` edges from `time` on; the first changes the level by the negative of `delta`. -/
def playEdges (routing : Routing) (period : Nat) : Nat → Nat → Int → Stereo → Stereo
  | 0, _, _, out => out
  | n + 1, time, delta, out =>
    playEdges routing period n (time + period) (-delta) (out.addDelta routing time (-delta))

/-- Play a tone from clock `start` to clock `stop`. -/
def run (s : Square) (start stop : Nat) (enabled : Bool) (out : Stereo) : Square × Stereo :=
  let volume := s.osc.volume enabled
  let time := start + s.osc.delay
  let n := if s.period = 0 then 0 else edges time stop s.period
  let phase := s.phase ^^ (n % 2 == 1)
  let last := if s.period = 0 then stop else time + n * s.period
  if volume = 0 ∨ s.period ≤ inaudible then
    let (osc, out) := s.osc.setLevel start 0 out
    ({ s with osc := { osc with delay := last - stop }, phase := phase }, out)
  else
    let level := if s.phase then volume else -volume
    let (osc, out) := s.osc.setLevel start level out
    let out := playEdges osc.routing s.period n time (level * 2) out
    ({ s with
        osc := { osc with level := if phase then volume else -volume, delay := last - stop }
        phase := phase }, out)

end Square

/-! ### Noise -/

/-- The noise channel. -/
structure Noise where
  osc : Oscillator := {}
  shifter : UInt16 := 0
  /-- Bits fed back when a one is shifted out. -/
  taps : UInt16 := 0
  /-- Choice of the rate; 3 follows the third tone. -/
  rate : UInt8 := 0
deriving DecidableEq, Repr, Inhabited

namespace Noise

/-- Clocks between shifts when the third tone's period is zero. -/
def fallbackPeriod : Nat := 16

/-- Clocks between shifts, given the third tone's period. -/
def shiftPeriod (n : Noise) (tone : Nat) : Nat :=
  let period :=
    if n.rate == 0 then 0x200 else if n.rate == 1 then 0x400 else if n.rate == 2 then 0x800
    else tone * 2
  if period = 0 then fallbackPeriod else period

/-- The register after one shift: a one that leaves it enters again at the taps. -/
@[inline] def shift (shifter taps : UInt16) : UInt16 :=
  (if shifter &&& 1 == 0 then 0 else taps) ^^^ (shifter >>> 1)

/-- Whether the two lowest bits differ, so that the next shift changes the output. -/
@[inline] def turns (shifter : UInt16) : Bool := (shifter + 1) &&& 2 != 0

/-- Play `n` shifts from `time` on.  `delta` is the change of level that the last edge made, or
twice the level before the first. -/
def playShifts (routing : Routing) (taps : UInt16) (period : Nat) :
    Nat → Nat → UInt16 → Int → Stereo → UInt16 × Int × Stereo
  | 0, _, shifter, delta, out => (shifter, delta, out)
  | n + 1, time, shifter, delta, out =>
    let next := shift shifter taps
    if turns shifter then
      playShifts routing taps period n (time + period) next (-delta)
        (out.addDelta routing time (-delta))
    else playShifts routing taps period n (time + period) next delta out

/-- Play the noise from clock `start` to clock `stop`.  A silent channel does not shift. -/
def run (s : Noise) (start stop tone : Nat) (enabled : Bool) (out : Stereo) : Noise × Stereo :=
  let volume := s.osc.volume enabled
  let level := if s.shifter &&& 1 == 0 then volume else -volume
  let (osc, out) := s.osc.setLevel start level out
  let time := start + osc.delay
  if volume = 0 ∨ stop ≤ time then
    ({ s with osc := { osc with delay := time - stop } }, out)
  else
    let period := s.shiftPeriod tone
    let n := edges time stop period
    let (shifter, delta, out) :=
      playShifts osc.routing s.taps period n time s.shifter (level * 2) out
    ({ s with
        osc := { osc with level := delta / 2, delay := time + n * period - stop }
        shifter := shifter }, out)

end Noise

/-! ### The chip -/

/-- A sound generator. -/
structure Psg where
  tones : Vector Square 3
  noise : Noise
  /-- Last byte that chose a register. -/
  latch : UInt8 := 0
  /-- Clock of the current frame up to which the chip has played. -/
  time : Nat := 0
  variant : NoiseVariant := .sega
  /-- Enable bits of the right side, then of the left. -/
  stereo : UInt8 := 0xFF
  enabled : Bool := true
deriving DecidableEq, Repr

namespace Psg

/-- A channel that is off. -/
def quiet : Oscillator := { attenuation := 0x0F }

/-- The chip after power-on. -/
def new (variant : NoiseVariant) : Psg where
  tones := Vector.replicate 3 { osc := quiet }
  noise := { osc := quiet, shifter := variant.seed, taps := variant.periodicTaps }
  variant := variant

instance : Inhabited Psg := ⟨new .sega⟩

/-- The chip as after power-on. -/
def reset (p : Psg) : Psg := new p.variant

/-- Play up to a clock of the current frame. -/
def runUntil (p : Psg) (time : Nat) (out : Stereo) : Psg × Stereo :=
  if time ≤ p.time then (p, out)
  else
    let (s0, out) := p.tones[0].run p.time time p.enabled out
    let (s1, out) := p.tones[1].run p.time time p.enabled out
    let (s2, out) := p.tones[2].run p.time time p.enabled out
    let (noise, out) := p.noise.run p.time time s2.period p.enabled out
    ({ p with tones := #v[s0, s1, s2], noise := noise, time := time }, out)

/-- The oscillator of a channel; every number from 3 on is the noise. -/
def osc (p : Psg) (channel : Nat) : Oscillator :=
  if h : channel < 3 then p.tones[channel].osc else p.noise.osc

/-- The chip with a channel's oscillator replaced. -/
def setOsc (p : Psg) (channel : Nat) (o : Oscillator) : Psg :=
  if h : channel < 3 then
    { p with tones := p.tones.set channel { p.tones[channel] with osc := o } }
  else { p with noise := { p.noise with osc := o } }

/-- A tone's period after a command byte: bytes that choose a register give four bits of it,
others six. -/
def newPeriod (period : Nat) (data : UInt8) : Nat :=
  let low := (data &&& 0x0F).toNat * 16
  let high := (data &&& 0x3F).toNat * 256
  if data &&& 0x80 != 0 then period / 256 % 64 * 256 + low else high + period / 16 % 16 * 16

/-- The channel that the latch selects. -/
def channelOf (latch : UInt8) : Nat := (latch >>> 5 &&& 3).toNat

/-- The chip after a command byte, played up to then. -/
def command (p : Psg) (data : UInt8) : Psg :=
  let p := if data &&& 0x80 != 0 then { p with latch := data } else p
  let channel := channelOf p.latch
  if p.latch &&& 0x10 != 0 then
    p.setOsc channel { p.osc channel with attenuation := data &&& 0x0F }
  else if h : channel < 3 then
    let s := p.tones[channel]
    { p with tones := p.tones.set channel { s with period := newPeriod s.period data } }
  else
    { p with
      noise := { p.noise with
        rate := data &&& 3
        taps := if data &&& 0x04 != 0 then p.variant.whiteTaps else p.variant.periodicTaps
        shifter := p.variant.seed } }

/-- Write a command byte. -/
def writeData (p : Psg) (time : Nat) (data : UInt8) (out : Stereo) : Psg × Stereo :=
  let (p, out) := p.runUntil time out
  (p.command data, out)

/-- The routing that the stereo register gives a channel. -/
def routingOf (data : UInt8) (channel : Nat) : Routing :=
  let n := UInt8.ofNat channel
  Routing.ofBits ((data >>> n) &&& 1 != 0) ((data >>> (n + 4)) &&& 1 != 0)

/-- Route a channel.  Its level is taken off the side it leaves; the next run puts it back on
the new one. -/
def route (p : Psg) (channel : Nat) (routing : Routing) (time : Nat) (out : Stereo) :
    Psg × Stereo :=
  let o := p.osc channel
  if o.routing = routing then (p, out)
  else
    let out := if o.level = 0 then out else out.addDelta o.routing time (-o.level)
    (p.setOsc channel { o with level := 0, routing := routing }, out)

/-- Write the stereo register. -/
def writeStereo (p : Psg) (time : Nat) (data : UInt8) (out : Stereo) : Psg × Stereo :=
  let (p, out) := p.runUntil time out
  let p := { p with stereo := data }
  let (p, out) := p.route 0 (routingOf data 0) time out
  let (p, out) := p.route 1 (routingOf data 1) time out
  let (p, out) := p.route 2 (routingOf data 2) time out
  let (p, out) := p.route 3 (routingOf data 3) time out
  (p, out.note (.stereo data))

/-- Attenuation of a channel. -/
def attenuation (p : Psg) (channel : Nat) : UInt8 := (p.osc channel).attenuation

/-- The ten-bit period register of a tone; the numbers go round. -/
def tonePeriod (p : Psg) (tone : Nat) : Nat := (p.tones[tone % 3]).period / 16 % 65536

/-- Clocks between shifts of the noise. -/
def noisePeriod (p : Psg) : Nat := p.noise.shiftPeriod p.tones[2].period

instance : Chip Psg where
  runUntil := runUntil
  write p time address v out :=
    if Word.low address == 0x06 then p.writeStereo time v out else p.writeData time v out
  read _ _ := 0xFF
  rebase p clocks := { p with time := p.time - clocks }
  setEnabled p time enabled out :=
    let (p, out) := p.runUntil time out
    ({ p with enabled := enabled }, out)
  reset := reset

end Psg

end MasterSystem.Sound
