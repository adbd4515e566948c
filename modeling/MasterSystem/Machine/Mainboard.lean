import MasterSystem.Controls
import MasterSystem.Machine.Memory
import MasterSystem.Settings
import MasterSystem.Sound.Mixer
import MasterSystem.Video.Beam
import MasterSystem.Z80.Processor

/-! # The main board

Everything that the processor is wired to.  Ports are told apart by three address lines: `A7`,
`A6` and `A0`.  The Game Gear has seven more at the bottom, and the FM chip three at the top.

* `00`–`3F`: memory control at even ports, pins of the controller ports at odd ones.
* `40`–`7F`: reading gives the line and the latched column of the beam; writing goes to the tone
  generator.
* `80`–`BF`: data and control port of the video processor.
* `C0`–`FF`: the two controller ports; nothing takes a write.

Memory gets the writes for addresses; those at `FFF8`–`FFFB` move the shutter of the 3-D glasses as
well.  Notes of the devices are moved to the board's own queue as soon as they occur, so that the
queue has the order of events. -/

namespace MasterSystem

open Video (Vdp)
open Sound (Mixer)

/-- A main board. -/
structure Mainboard where
  memory : Memory
  vdp : Vdp
  sound : Mixer
  controls : Controls
  console : Console
  /-- The console was sold in Japan. -/
  japan : Bool
  /-- The console was sold for PAL television. -/
  pal : Bool
  /-- Clock of the current frame at which the current instruction started. -/
  cycle : Nat
  notes : Notes
deriving DecidableEq, Repr, Inhabited

namespace Mainboard

/-! ### Power and reset -/

/-- The video chip of a console. -/
def videoModel : Console → Video.Model
  | .gameGear => .gameGear
  | .sg1000 => .legacy
  | .master | .unknown => .master

/-- Whether the FM chip is expected: it was sold in Japan, and some games elsewhere use it. -/
def expectsFm : Option Info → Bool
  | none => true
  | some i => i.fm || i.zone.isJapan || i.zone = .unknown

/-- The television standard: the territory's, or without a cartridge the one insisted on. -/
def standard (info : Option Info) (s : Settings) : Standard :=
  match info with
  | some i => i.zone.timing
  | none => s.overrides.timing.getD .ntsc

/-- The board of the console that a cartridge is for, after power-on. -/
def new (cartridge : Option Cartridge) (bootRom : Option (Array UInt8)) (s : Settings) :
    Mainboard :=
  let info := cartridge.map (·.info)
  let console := (info.map (·.console)).getD .master
  let timing := standard info s
  let model := videoModel console
  { memory := .new cartridge bootRom console s.bootRom
    vdp := { Vdp.new model timing with glasses := s.glasses }
    sound := .new timing s.sampleRate ((info.map (·.noise)).getD .sega)
      (s.fm && model == .master && expectsFm info)
    controls := { allowOpposites := s.allowOpposites }
    console := console
    japan := (info.map (·.zone.isJapan)).getD false
    pal := (info.map (·.zone.isPal)).getD false
    cycle := 0
    notes := #[] }

/-- What is known about the cartridge. -/
def info (b : Mainboard) : Option Info := b.memory.cartridge.map (·.info)

/-- Install a boot ROM or take it out. -/
def setBootRom (b : Mainboard) (bootRom : Option (Array UInt8)) : Mainboard :=
  { b with memory := b.memory.setBootRom bootRom }

/-- The board after a reset that keeps some of the memory. -/
def reset (b : Mainboard) (keepCartridgeRam keepRam bootRomEnabled : Bool) : Mainboard :=
  { b with
    memory := b.memory.reset keepCartridgeRam keepRam bootRomEnabled b.console
    vdp := b.vdp.reset
    sound := b.sound.reset
    controls := b.controls.reset
    cycle := 0 }

/-! ### Notes -/

/-- Record a note. -/
def note (b : Mainboard) (n : Note) : Mainboard := { b with notes := b.notes.push n }

/-- Move the notes of the video processor to the board's queue. -/
def collectVideo (b : Mainboard) : Mainboard :=
  if b.vdp.notes.isEmpty then b
  else { b with notes := b.notes ++ b.vdp.notes, vdp := { b.vdp with notes := #[] } }

/-- Move the notes of the sound chips to the board's queue. -/
def collectSound (b : Mainboard) : Mainboard :=
  if b.sound.output.notes.isEmpty then b
  else
    { b with
      notes := b.notes ++ b.sound.output.notes
      sound := { b.sound with output := { b.sound.output with notes := #[] } } }

/-! ### Memory -/

/-- Store a byte. -/
def write (b : Mainboard) (address : UInt16) (v : UInt8) : Mainboard :=
  let b := { b with
    notes := b.notes ++ b.memory.mapper.writeNotes address v
    memory := b.memory.write address v }
  if 0xFFF8 ≤ address && address ≤ 0xFFFB then { b with vdp := b.vdp.setShutter v } else b

/-! ### Ports -/

/-- A port of the Game Gear: its own controls, and the link cable with nothing on it. -/
def readGear (b : Mainboard) (port : UInt8) : UInt8 :=
  if port == 0x00 then b.controls.readGear b.japan b.pal
  else if port == 0x01 then 0x7F
  else if port == 0x03 || port == 0x05 then 0x00
  else 0xFF

/-- Whether a port is one of the Game Gear's own. -/
def isGearPort (b : Mainboard) (port : UInt8) : Bool := b.console = .gameGear && port < 0x07

/-- Whether a port belongs to the FM chip. -/
def isFmPort (b : Mainboard) (port : UInt8) : Bool :=
  0xF0 ≤ port && port ≤ 0xF2 && b.sound.fmFitted

/-- The port of the mix control. -/
def mixPort : UInt8 := 0xF2

/-- Read the data port of the video processor. -/
def readVideoData (b : Mainboard) : UInt8 × Mainboard :=
  let (v, vdp) := b.vdp.readData
  (v, { b with vdp := vdp })

/-- Read the status of the video processor. -/
def readVideoStatus (b : Mainboard) : UInt8 × Mainboard :=
  let (v, vdp) := b.vdp.readStatus
  (v, { b with vdp := vdp })

/-- Read a port that every console has. -/
def readPort (b : Mainboard) (port : UInt8) : UInt8 × Mainboard :=
  let lines := port &&& 0xC1
  if lines == 0x40 then (b.vdp.vCounter, b)
  else if lines == 0x41 then (b.vdp.hLatch, b)
  else if lines == 0x80 then b.readVideoData
  else if lines == 0x81 then b.readVideoStatus
  else if lines == 0xC0 then (b.controls.readA, b)
  else if lines == 0xC1 then (b.controls.readB b.vdp.lightDetected b.japan, b)
  else (0xFF, b.note (.unmappedRead port))

/-- Read a port. -/
def input (b : Mainboard) (port : UInt8) : UInt8 × Mainboard :=
  if b.isGearPort port then (b.readGear port, b)
  else if b.isFmPort port then (if port == mixPort then b.sound.control else 0xFF, b)
  else b.readPort port

/-- Write the memory control port. -/
def writeMemoryControl (b : Mainboard) (v : UInt8) : Mainboard :=
  let b := if b.memory.unmapsBootRom v then b.note .bootRomOff else b
  { b with memory := b.memory.writeControl v }

/-- Set the pins of the controller ports; a pin that rises latches the beam's column. -/
def writePins (b : Mainboard) (v : UInt8) : Mainboard :=
  let vdp := if b.controls.raisesPin v then b.vdp.latchHCounter else b.vdp
  { b with vdp := vdp, controls := b.controls.writeIoControl v }

/-- Write a command to the tone generator. -/
def writePsg (b : Mainboard) (v : UInt8) : Mainboard :=
  ({ b with sound := b.sound.writePsg b.cycle v } : Mainboard).collectSound

/-- Write the stereo register. -/
def writeStereo (b : Mainboard) (v : UInt8) : Mainboard :=
  ({ b with sound := b.sound.writeStereo b.cycle v } : Mainboard).collectSound

/-- Write a port of the FM chip. -/
def writeFmPort (b : Mainboard) (port v : UInt8) : Mainboard :=
  let sound :=
    if port == mixPort then b.sound.writeControl b.cycle v else b.sound.writeFm b.cycle port v
  ({ b with sound := sound } : Mainboard).collectSound

/-- Write a port that every console has. -/
def writePort (b : Mainboard) (port v : UInt8) : Mainboard :=
  let lines := port &&& 0xC1
  if lines == 0x00 then b.writeMemoryControl v
  else if lines == 0x01 then b.writePins v
  else if lines == 0x40 || lines == 0x41 then b.writePsg v
  else if lines == 0x80 then { b with vdp := b.vdp.writeData v }
  else if lines == 0x81 then ({ b with vdp := b.vdp.writeControl v } : Mainboard).collectVideo
  else b.note (.unmappedWrite v port)

/-- Write a port.  Of the Game Gear's own ports, only the stereo register takes a write. -/
def output (b : Mainboard) (port v : UInt8) : Mainboard :=
  if b.isGearPort port then (if port == 0x06 then b.writeStereo v else b)
  else if b.isFmPort port then b.writeFmPort port v
  else b.writePort port v

/-- Nothing drives the data lines while an interrupt is acknowledged. -/
instance : Z80.Bus Mainboard where
  read b address := b.memory.read address
  write b address v := b.write address v
  input b port := b.input (Word.low port)
  output b port v := b.output (Word.low port) v
  vector b := (0xFF, b)

/-! ### Time -/

/-- Move the beam by some T-states; true when the vertical blank begins. -/
def advance (b : Mainboard) (cycles : Nat) : Bool × Mainboard :=
  let (blank, vdp) := b.vdp.advance cycles
  (blank, ({ b with vdp := vdp } : Mainboard).collectVideo)

/-- Close a frame of sound. -/
def endFrame (b : Mainboard) (clocks : Nat) : Mainboard :=
  ({ b with sound := b.sound.endFrame clocks } : Mainboard).collectSound

end Mainboard

end MasterSystem
