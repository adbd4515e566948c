import MasterSystem.Machine.Basic

/-! # Running the machine

A frame is a sequence of processor steps (`runToBlank`), after each of which the beam moves by as
many T-states and the interrupt line takes the level that the video processor gives it.  The frame
ends with the step in which the vertical blank begins.  Then the sound of the frame is closed,
pokes are repeated, and the host gets the picture and the samples that it asks for.

A step of the processor that fails ends the frame early. -/

namespace MasterSystem

namespace Machine

/-- The notes of the board moved behind those of the processor. -/
@[inline] def collect (z : Z80.Processor Mainboard) : Z80.Processor Mainboard :=
  if z.bus.notes.isEmpty then z
  else { z with notes := z.notes ++ z.bus.notes, bus := { z.bus with notes := #[] } }

/-- The beam after a step of some T-states, and the interrupt line. -/
@[inline] def follow (z : Z80.Processor Mainboard) (cycles : Nat) :
    Bool × Z80.Processor Mainboard :=
  let (blank, board) := z.bus.advance cycles
  (blank, collect ({ z with bus := board }.setIrqLine board.vdp.irq))

/-- Steps from a clock of the frame up to the vertical blank, at most a number of them.  The result
has the clock, and the fault of a step that fails. -/
def runToBlank : Nat → Nat → Z80.Processor Mainboard →
    Option Z80.Fault × Nat × Z80.Processor Mainboard
  | 0, cycle, z => (none, cycle, z)
  | n + 1, cycle, z =>
    match Z80.Processor.step { z with bus := { z.bus with cycle := cycle } } with
    | (z, .error x) => (some x, cycle, collect z)
    | (z, .ok cycles) =>
      let cycle := cycle + cycles
      match follow z cycles with
      | (true, z) => (none, cycle, z)
      | (false, z) => runToBlank n cycle z

/-- Steps in the longest frame whose clock fits into 32 bits, since a step has at least four
T-states. -/
def stepLimit : Nat := 0x40000000

/-- Close the frame whose clock is `cycle`: its sound ends where the line that the beam is on
started. -/
def closeFrame (m : Machine) (cycle : Nat) : Machine :=
  let overrun := m.board.vdp.lineCycles
  let cheats := m.cheats
  let cpu := collect { m.cpu with
    bus := m.cpu.bus.endFrame (cycle - overrun) }
  { m with
    cpu := { cpu with
      bus := {
        cpu.bus with
        memory := { cpu.bus.memory with ram := cheats.poke cpu.bus.memory.ram } } }
    frameCycle := overrun
    frameCount := m.frameCount + 1 }

/-- Run up to the vertical blank. -/
def runField (m : Machine) : Machine × Except Error Unit :=
  match runToBlank stepLimit m.frameCycle m.cpu with
  | (some x, _, cpu) => ({ m with cpu := cpu }, .error (.cpu x))
  | (none, cycle, cpu) => ({ m with cpu := cpu }.closeFrame cycle, .ok ())

/-- What a host gets from a frame: its memory with the picture in it, and samples. -/
structure Output where
  video : Option (Array UInt8) := none
  samples : Array Int := #[]
deriving Inhabited

/-- The host's memory with the picture in it. -/
def writePicture (m : Machine) (dst : Array UInt8) : Except Error (Array UInt8) :=
  let frame := m.outputFrame
  let format := m.settings.pixelFormat
  match frame.writeTo format dst with
  | some (_, dst) => .ok dst
  | none => .error (.bufferTooSmall (frame.pixels.size * format.bytesPerPixel) dst.size)

/-- The machine without the samples that a host wants, or without any if it wants none. -/
def takeSamples (m : Machine) (audio : Option Nat) : Array Int × Machine :=
  match audio with
  | some n =>
    let (samples, sound) := m.board.sound.readSamples n
    (samples, m.mapBoard fun b => { b with sound := sound })
  | none => (#[], m.mapBoard fun b => { b with sound := b.sound.discard })

/-- Run a frame.  A host may give memory for the picture, and a number of places for samples.  A
machine that is paused does nothing. -/
def run (m : Machine) (video : Option (Array UInt8)) (audio : Option Nat) :
    Machine × Except Error Output :=
  if m.board.memory.cartridge.isNone then (m, .error .noCartridge)
  else if m.paused then (m, .ok { video := video })
  else
    match m.runField with
    | (m, .error x) => (m, .error x)
    | (m, .ok ()) =>
      match video.mapM m.writePicture with
      | .error x => (m, .error x)
      | .ok video =>
        let (samples, m) := m.takeSamples audio
        (m, .ok { video := video, samples := samples })

end Machine

end MasterSystem
