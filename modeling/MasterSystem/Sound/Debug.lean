import MasterSystem.Sound.Fm
import MasterSystem.Sound.Psg
import MasterSystem.Text.Json
import MasterSystem.Text.Numeral

/-! # Snapshots of the sound chips

The registers and generators of the two chips as documents, for a debugger to show. -/

namespace MasterSystem.Sound

open Text (Json name)

/-- What a debugger shows of a channel's output. -/
def Oscillator.toJson (o : Oscillator) : Json :=
  .object [("attenuation", .nat o.attenuation.toNat), ("routing", .string (name o.routing)),
    ("last_amp", .int o.level), ("delay", .nat o.delay)]

/-- What a debugger shows of a tone. -/
def Square.toJson (s : Square) : Json :=
  .object [("osc", s.osc.toJson), ("period", .nat s.period), ("phase", .bool s.phase)]

/-- What a debugger shows of the noise. -/
def Noise.toJson (n : Noise) : Json :=
  .object [("osc", n.osc.toJson), ("shifter", .nat n.shifter.toNat),
    ("feedback", .nat n.taps.toNat), ("rate", .nat n.rate.toNat)]

/-- What a debugger shows of the tone generator. -/
def Psg.toJson (p : Psg) : Json :=
  .object [("squares", .array (p.tones.toList.map Square.toJson)), ("noise", p.noise.toJson),
    ("latch", .nat p.latch.toNat), ("last_time", .nat p.time),
    ("variant", .string (name p.variant)), ("stereo", .nat p.stereo.toNat),
    ("enabled", .bool p.enabled)]

/-- What a debugger shows of an operator. -/
def Fm.Operator.toJson (o : Fm.Operator) : Json :=
  .object [("phase", .nat o.phase), ("env", .nat o.level), ("state", .string (name o.stage)),
    ("history", .array [.int o.older, .int o.newer])]

/-- What a debugger shows of a channel of the FM chip. -/
def FmChannel.toJson (c : FmChannel) : Json :=
  .object [("modulator", c.modulator.toJson), ("carrier", c.carrier.toJson), ("key", .bool c.key)]

/-- What a debugger shows of the FM chip. -/
def FmChip.toJson (f : FmChip) : Json :=
  .object [("address", .nat f.address.toNat),
    ("regs", .string (String.join (f.regs.toList.map Text.hex8))),
    ("channels", .array (f.channels.toList.map FmChannel.toJson)),
    ("rhythm_keys", .nat f.rhythmKeys.toNat), ("noise", .nat f.noise.toNat),
    ("eg_counter", .nat f.counters.envelope.toNat), ("am_counter", .nat f.counters.tremolo),
    ("pm_counter", .nat f.counters.vibrato), ("next_sample", .nat f.nextSample),
    ("last_output", .int f.lastOutput), ("enabled", .bool f.enabled)]

end MasterSystem.Sound
