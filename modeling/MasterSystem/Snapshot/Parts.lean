import MasterSystem.Controls
import MasterSystem.Mapper.Basic
import MasterSystem.Snapshot.Codec
import MasterSystem.Sound.Mixer
import MasterSystem.Video.Vdp
import MasterSystem.Z80.Registers

/-! # Layouts of the machine's parts

The layout of each part of the machine in a save state.  A layout is a sequence of fields (`pair`)
seen as a record (`map`).  What the host or the next line of the picture provides is left out. -/

namespace MasterSystem.Snapshot

open Codec

/-! ### Processor -/

/-- The register file. -/
def registers : Codec Z80.Registers :=
  (word.pair <| word.pair <| word.pair <| word.pair <| word.pair <| word.pair <| word.pair <|
    word.pair <| word.pair <| word.pair <| word.pair <| word.pair <| word.pair <| byte.pair <|
    byte.pair <| bool.pair <| bool.pair <| byte.pair <| bool.pair <| bool.pair <| bool.pair <|
    bool.pair quad).map
    (fun (af, bc, de, hl, afAlt, bcAlt, deAlt, hlAlt, ix, iy, sp, pc, wz, i, r, iff1, iff2, im,
        halted, irqLine, nmiPending, eiPending, cycles) =>
      { a := Word.high af, f := Word.low af, bc, de, hl, afAlt, bcAlt, deAlt, hlAlt, ix, iy, sp, pc
        wz, i, r, iff1, iff2, im, halted, irqLine, nmiPending, eiPending, cycles })
    (fun s => (s.af, s.bc, s.de, s.hl, s.afAlt, s.bcAlt, s.deAlt, s.hlAlt, s.ix, s.iy, s.sp, s.pc,
      s.wz, s.i, s.r, s.iff1, s.iff2, s.im, s.halted, s.irqLine, s.nmiPending, s.eiPending,
      s.cycles))

/-! ### Mappers -/

open Mapper in
/-- The Sega board. -/
def sega : Codec Sega :=
  (byte.pair <| (byte.vector 3).pair <| byte.array.pair bool).map
    (fun (control, banks, ram, ramUsed) => { control, banks, ram, ramUsed })
    (fun m => (m.control, m.banks, m.ram, m.ramUsed))

open Mapper in
/-- Codemasters' board. -/
def codemasters : Codec Codemasters :=
  ((byte.vector 3).pair <| bool.pair <| byte.array.pair bool).map
    (fun (banks, ramShown, ram, ramUsed) => { banks, ramShown, ram, ramUsed })
    (fun m => (m.banks, m.ramShown, m.ram, m.ramUsed))

open Mapper in
/-- The Janggun board. -/
def janggun : Codec Janggun :=
  ((byte.vector 4).pair (bool.vector 4)).map
    (fun (pages, reversed) => { pages, reversed }) (fun m => (m.pages, m.reversed))

/-- The number of a board before its registers. -/
def boardNumber : Mapper → Nat
  | .romOnly => 0
  | .sega _ => 1
  | .codemasters _ => 2
  | .korean _ => 3
  | .msx _ => 4
  | .janggun _ => 5
  | .sg1000 _ => 6

/-- The registers of a board, after its number. -/
def writeBoard : Mapper → List UInt8
  | .romOnly => []
  | .sega m => sega.write m
  | .codemasters m => codemasters.write m
  | .korean m => byte.write m.bank
  | .msx m => (byte.vector 4).write m.pages
  | .janggun m => janggun.write m
  | .sg1000 m => byte.array.write m.ram

/-- Read the registers of the board with a number. -/
def readBoard : Nat → List UInt8 → Option (Mapper × List UInt8)
  | 0, bs => some (.romOnly, bs)
  | 1, bs => (sega.read bs).map fun p => (.sega p.1, p.2)
  | 2, bs => (codemasters.read bs).map fun p => (.codemasters p.1, p.2)
  | 3, bs => (byte.read bs).map fun p => (.korean ⟨p.1⟩, p.2)
  | 4, bs => ((byte.vector 4).read bs).map fun p => (.msx ⟨p.1⟩, p.2)
  | 5, bs => (janggun.read bs).map fun p => (.janggun p.1, p.2)
  | 6, bs => (byte.array.read bs).map fun p => (.sg1000 ⟨p.1⟩, p.2)
  | _, _ => none

/-- A mapper: the number of its board, and the registers. -/
def mapper : Codec Mapper where
  write m := (nat 4).write (boardNumber m) ++ writeBoard m
  read bs := do
    let (n, bs) ← (nat 4).read bs
    readBoard n bs

/-! ### Video -/

/-- A picture. -/
def frame : Codec Video.Frame :=
  ((nat 4).pair <| (nat 4).pair double.array).map
    (fun (width, height, pixels) => ⟨width, height, pixels⟩)
    (fun f => (f.width, f.height, f.pixels))

/-- The video processor.  The picture being drawn, the glasses and the aim of the phaser are not
written; they are read as after power-on. -/
def video : Codec Video.Vdp :=
  (named.pair <| named.pair <| (byte.vector 16).pair <| byte.array.pair <| byte.array.pair <|
    byte.pair <| double.array.pair <| word.pair <| byte.pair <| byte.option.pair <| byte.pair <|
    byte.pair <| (nat 4).pair <| (nat 4).pair <| byte.pair <| bool.pair <| byte.pair <|
    byte.pair <| bool.pair <| bool.pair frame).map
    (fun (model, timing, regs, vram, cram, cramLatch, colors, address, code, controlLow,
        readBuffer, status, line, lineCycles, lineCounter, lineIrq, vscroll, hLatch, shutterRight,
        fieldAccepted, display) =>
      { Video.Vdp.new model timing with
        regs, vram, cram, cramLatch, palette := ⟨colors⟩, address, code, controlLow, readBuffer
        status, line, lineCycles, lineCounter, lineIrq, vscroll, hLatch, shutterRight
        fieldAccepted, display })
    (fun v => (v.model, v.timing, v.regs, v.vram, v.cram, v.cramLatch, v.palette.colors, v.address,
      v.code, v.controlLow, v.readBuffer, v.status, v.line, v.lineCycles, v.lineCounter, v.lineIrq,
      v.vscroll, v.hLatch, v.shutterRight, v.fieldAccepted, v.display))

/-! ### Sound -/

section

open Sound

/-- What all channels of the tone generator have. -/
def oscillator : Codec Oscillator :=
  (byte.pair <| named.pair <| (int 4).pair (nat 4)).map
    (fun (attenuation, routing, level, delay) => { attenuation, routing, level, delay })
    (fun x => (x.attenuation, x.routing, x.level, x.delay))

/-- A square wave. -/
def square : Codec Square :=
  (oscillator.pair <| (nat 4).pair bool).map
    (fun (osc, period, phase) => { osc, period, phase })
    (fun s => (s.osc, s.period, s.phase))

/-- The noise channel. -/
def noise : Codec Noise :=
  (oscillator.pair <| word.pair <| word.pair byte).map
    (fun (osc, shifter, taps, rate) => { osc, shifter, taps, rate })
    (fun n => (n.osc, n.shifter, n.taps, n.rate))

/-- The tone generator. -/
def psg : Codec Psg :=
  ((square.vector 3).pair <| noise.pair <| byte.pair <| (nat 4).pair <| named.pair <|
    byte.pair bool).map
    (fun (tones, noise, latch, time, variant, stereo, enabled) =>
      { tones, noise, latch, time, variant, stereo, enabled })
    (fun p => (p.tones, p.noise, p.latch, p.time, p.variant, p.stereo, p.enabled))

/-- An operator of the FM chip. -/
def operator : Codec Fm.Operator :=
  ((nat 4).pair <| (nat 4).pair <| named.pair <| (int 4).pair (int 4)).map
    (fun (phase, level, stage, older, newer) => { phase, level, stage, older, newer })
    (fun x => (x.phase, x.level, x.stage, x.older, x.newer))

/-- A channel of the FM chip. -/
def fmChannel : Codec FmChannel :=
  (operator.pair <| operator.pair bool).map
    (fun (modulator, carrier, key) => { modulator, carrier, key })
    (fun c => (c.modulator, c.carrier, c.key))

/-- The FM chip. -/
def fm : Codec FmChip :=
  (byte.pair <| byte.array.pair <| (fmChannel.vector 9).pair <| byte.pair <| double.pair <|
    double.pair <| (nat 4).pair <| (nat 4).pair <| (nat 4).pair <| (int 4).pair bool).map
    (fun (address, regs, channels, rhythmKeys, noise, envelope, tremolo, vibrato, nextSample,
        lastOutput, enabled) =>
      { address, regs, channels, rhythmKeys, noise, counters := { envelope, tremolo, vibrato }
        nextSample, lastOutput, enabled })
    (fun f => (f.address, f.regs, f.channels, f.rhythmKeys, f.noise, f.counters.envelope,
      f.counters.tremolo, f.counters.vibrato, f.nextSample, f.lastOutput, f.enabled))

/-- One side of the output. -/
def resampler : Codec Resampler :=
  ((nat 8).pair <| (nat 8).pair <| (nat 8).pair <| (int 8).pair (int 8).array).map
    (fun (factor, offset, avail, integrator, slots) => ⟨factor, offset, avail, integrator, slots⟩)
    (fun b => (b.factor, b.offset, b.avail, b.integrator, b.slots))

/-- The output. -/
def stereo : Codec Stereo :=
  (resampler.pair resampler).map
    (fun (left, right) => { left, right }) (fun b => (b.left, b.right))

/-- The sound chips and their output. -/
def mixer : Codec Mixer :=
  (psg.pair <| fm.option.pair <| byte.pair <| stereo.pair (nat 4)).map
    (fun (psg, fm, control, output, sampleRate) => { psg, fm, control, output, sampleRate })
    (fun m => (m.psg, m.fm, m.control, m.output, m.sampleRate))

end

/-! ### Controls -/

/-- A light phaser. -/
def phaser : Codec Phaser :=
  ((int 4).pair <| (int 4).pair bool).map
    (fun (x, y, trigger) => ⟨x, y, trigger⟩) (fun p => (p.x, p.y, p.trigger))

/-- The ports; what the host allows is not written. -/
def controls : Codec Controls :=
  ((byte.vector 2).pair <| byte.pair phaser.option).map
    (fun (pads, ioControl, phaser) => { pads, ioControl, phaser })
    (fun c => (c.pads, c.ioControl, c.phaser))

end MasterSystem.Snapshot
