import MasterSystem.Cheat.Engine
import MasterSystem.Machine.Mainboard
import MasterSystem.Machine.Picture
import MasterSystem.Z80.Step

/-! # The machine

A processor on a main board, the settings, the cheats in force, and where the machine stands in
time.  A frame ends where the vertical blank begins; the last instruction of a frame runs into the
next one, by `frameCycle` T-states.

The operations here are those of a host between two frames: inserting and removing cartridges,
resetting, pressing buttons, and so on.  The processor's queue of notes is the machine's. -/

namespace MasterSystem

/-- A machine. -/
structure Machine where
  cpu : Z80.Processor Mainboard
  settings : Settings
  cheats : Cheats
  paused : Bool
  /-- Frames since the cartridge was inserted. -/
  frameCount : Nat
  /-- T-states already run into the next frame. -/
  frameCycle : Nat

namespace Machine

/-- A processor on a board, after power-on. -/
def power (board : Mainboard) (s : Settings) : Z80.Processor Mainboard :=
  { strict := s.strict, bus := board }

/-- A machine without a cartridge. -/
def new (s : Settings) : Machine where
  cpu := power (.new none none s) s
  settings := s
  cheats := {}
  paused := false
  frameCount := 0
  frameCycle := 0

instance : Inhabited Machine := ⟨new {}⟩

/-! ### Parts -/

/-- The main board. -/
@[inline] def board (m : Machine) : Mainboard := m.cpu.bus

/-- The machine with its board changed. -/
@[inline] def mapBoard (m : Machine) (g : Mainboard → Mainboard) : Machine :=
  { m with cpu := { m.cpu with bus := g m.cpu.bus } }

/-- What is known about the cartridge. -/
def cartridge (m : Machine) : Option Info := m.board.info

/-- The notes so far. -/
def notes (m : Machine) : Notes := m.cpu.notes

/-- Record some notes. -/
def log (m : Machine) (notes : Notes) : Machine :=
  { m with cpu := { m.cpu with notes := m.cpu.notes ++ notes } }

/-! ### Settings -/

/-- Change the settings.  What concerns the picture, the pads and the processor takes effect at
once, the rest when the next cartridge is inserted. -/
def configure (m : Machine) (s : Settings) : Machine :=
  { m with
    settings := s
    cpu := {
      m.cpu with
      strict := s.strict
      bus := {
        m.cpu.bus with
        vdp := { m.cpu.bus.vdp with glasses := s.glasses }
        controls := { m.cpu.bus.controls with allowOpposites := s.allowOpposites } } } }

/-- Choose the fields shown to a viewer of 3-D glasses. -/
def setGlasses (m : Machine) (g : Video.Glasses) : Machine :=
  { m with
    settings := { m.settings with glasses := g }
    cpu := {
      m.cpu with
      bus := { m.cpu.bus with vdp := { m.cpu.bus.vdp with glasses := g } } } }

/-! ### Resets -/

/-- Whether the cartridge's RAM outlives a loss of power: it is known to, or the program has shown
it, which only boards with a battery have. -/
def batteryBacked (m : Machine) : Bool :=
  match m.cartridge with
  | none => false
  | some info =>
    let mapper := m.board.memory.mapper
    !mapper.ram.isEmpty && (info.battery || mapper.ramUsed)

/-- Restart the processor on a board that was reset. -/
def restart (m : Machine) (board : Mainboard) : Machine :=
  let target := board.controls.phaser.map Phaser.target
  { m with
    cpu := { m.cpu.reset with bus := { board with vdp := board.vdp.setPhaserTarget target } }
    frameCycle := 0 }

/-- Turn the power off and on. -/
def reset (m : Machine) : Machine :=
  m.restart (m.board.reset m.batteryBacked false m.settings.bootRom)

/-- Press the reset button, which keeps all RAM. -/
def softReset (m : Machine) : Machine := m.restart (m.board.reset true true m.settings.bootRom)

/-! ### Cartridges and boot ROMs -/

/-- Replace the board, without cheats, and turn the power on. -/
def install (m : Machine) (board : Mainboard) : Machine where
  cpu := { power board m.settings with notes := m.cpu.notes }
  settings := m.settings
  cheats := {}
  paused := false
  frameCount := 0
  frameCycle := 0

/-- Insert the cartridge of an image.  What the host leaves open is taken from the settings.  An
image that cannot be used leaves the machine as it is. -/
def insert (m : Machine) (data : Array UInt8) (o : Overrides) (path : Option String) :
    Machine × Except Error Unit :=
  let result := Cartridge.load data (o.orElse m.settings.overrides) path
  let m := m.log (Cartridge.loadNotes data result)
  match result with
  | .ok c => (m.install (.new (some c) m.board.memory.bootRom m.settings), .ok ())
  | .error x => (m, .error x)

/-- Insert the cartridge of a file. -/
def insertFile (m : Machine) (files : String → Option (Array UInt8)) (path : String) :
    Machine × Except Error Unit :=
  match files path with
  | some data => m.insert data {} (some path)
  | none => (m, .error .io)

/-- Take the cartridge out. -/
def eject (m : Machine) : Machine := m.install (.new none m.board.memory.bootRom m.settings)

/-- Install a boot ROM.  It runs from the next reset on, which is at once if it is enabled. -/
def insertBootRom (m : Machine) (data : Array UInt8) : Machine × Except Error Unit :=
  if data.isEmpty then (m, .error (.romTooSmall 0))
  else
    let m := (m.mapBoard (·.setBootRom (some data))).log
      #[.bootRom data.size (Checksum.crc32 data)]
    (if m.settings.bootRom then m.reset else m, .ok ())

/-- Take the boot ROM out. -/
def ejectBootRom (m : Machine) : Machine := m.mapBoard (·.setBootRom none)

/-! ### Players -/

/-- Press a key.  On a television console the start button is the pause button, which raises the
non-maskable interrupt. -/
def press (m : Machine) (player : Nat) (k : Key) : Machine :=
  let controls := m.board.controls
  let pause := controls.isFresh player k && k = .start && m.board.console ≠ .gameGear
  let m := m.mapBoard fun b => { b with controls := controls.press player k }
  if pause then { m with cpu := m.cpu.requestNMI } else m

/-- Release a key. -/
def release (m : Machine) (player : Nat) (k : Key) : Machine :=
  m.mapBoard fun b => { b with controls := b.controls.release player k }

/-- Plug in a light phaser or unplug it. -/
def setPhaser (m : Machine) (p : Option Phaser) : Machine :=
  m.mapBoard fun b =>
    { b with
      controls := { b.controls with phaser := p }
      vdp := b.vdp.setPhaserTarget (p.map Phaser.target) }

/-! ### Cheats -/

/-- The machine with its cartridge's image replaced. -/
def setRom (m : Machine) (c : Cartridge) (rom : Array UInt8) : Machine :=
  m.mapBoard fun b =>
    { b with memory := { b.memory with cartridge := some { c with rom := rom } } }

/-- Put a cheat code in force. -/
def addCheat (m : Machine) (code : String) : Machine × Except Error Cheat :=
  match m.board.memory.cartridge with
  | none => (m, .error .noCartridge)
  | some c =>
    match m.cheats.add code c.rom with
    | .error x => (m, .error x)
    | .ok (cheat, cheats, rom) =>
      ({ (m.setRom c rom).log #[Cheats.note code cheat] with cheats := cheats }, .ok cheat)

/-- Put all cheats out of force. -/
def clearCheats (m : Machine) : Machine :=
  let cleared := match m.board.memory.cartridge with
    | none => m
    | some c => m.setRom c (m.cheats.restore c.rom)
  { cleared with cheats := {} }

/-! ### Cartridge RAM -/

/-- Cartridge RAM that is worth keeping, if there is any. -/
def saveRam (m : Machine) : Option (Array UInt8) :=
  if m.batteryBacked then some m.board.memory.mapper.ram else none

/-- Fill the cartridge's RAM. -/
def loadRam (m : Machine) (data : Array UInt8) : Machine × Except Error Unit :=
  if m.cartridge.isNone then (m, .error .noCartridge)
  else
    let size := m.board.memory.mapper.ram.size
    if size ≠ data.size then (m, .error (.ramSizeMismatch size data.size))
    else
      (m.mapBoard fun b =>
        { b with memory := { b.memory with mapper := b.memory.mapper.setRam data } }, .ok ())

/-! ### Output -/

/-- Columns and lines of the picture. -/
def outputSize (m : Machine) : Nat × Nat := Picture.size m.board.vdp m.settings

/-- The picture. -/
def outputFrame (m : Machine) : Video.Frame := Picture.frame m.board.vdp m.settings

end Machine

end MasterSystem
