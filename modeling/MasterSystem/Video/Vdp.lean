import MasterSystem.Text.Named
import MasterSystem.Journal
import MasterSystem.Television
import MasterSystem.Video.Frame
import MasterSystem.Word

/-! # The video processor

The chip behind two ports: a data port that reads and writes video RAM and colour RAM at an
address that counts up, and a control port that takes pairs of bytes (an address or a register)
and gives the status.

* **Models.**  The Master System's chip and the Game Gear's differ in their colour RAM; the
  older chip of the SG-1000 has only the legacy display modes and fixed colours.
* **Interrupts.**  The status holds the flag of the vertical blank; a second flag is raised by a
  counter of lines.  Reading the status clears both.
* **Pictures.**  The chip draws into `scratch`, line by line.  At the vertical blank the field
  becomes `display`, unless 3-D glasses let only the other eye see it.

What a scanline does is in the modules on rendering and on the beam. -/

namespace MasterSystem.Video

/-- The three chips. -/
inductive Model where
  | master
  | gameGear
  | legacy
deriving DecidableEq, Repr, Inhabited

/-- Which fields a viewer of 3-D glasses is shown. -/
inductive Glasses where
  | both
  | left
  | right
deriving DecidableEq, Repr, Inhabited

instance : Text.Named Model where
  names := [(.master, "Sms"), (.gameGear, "GameGear"), (.legacy, "Tms9918")]

instance : Text.Named Glasses where
  names := [(.both, "Both"), (.left, "Left"), (.right, "Right")]

/-- Whether a field is shown when the shutter is open for the right eye, or not. -/
def Glasses.accepts (g : Glasses) (rightOpen : Bool) : Bool :=
  match g with
  | both => true
  | left => !rightOpen
  | right => rightOpen

/-- Pixels in a line. -/
def screenWidth : Nat := 256

/-- Lines in the tallest picture. -/
def maxHeight : Nat := 240

/-- Bytes of video RAM. -/
def vramSize : Nat := 16384

namespace Status

/-- The vertical blank has begun. -/
def vblank : UInt8 := 0x80
/-- A line had too many sprites. -/
def overflow : UInt8 := 0x40
/-- Two sprites overlapped. -/
def collision : UInt8 := 0x20

end Status

/-- A video processor. -/
structure Vdp where
  model : Model
  timing : Standard
  regs : Vector UInt8 16
  /-- Video RAM.  Pictures are made of its first `vramSize` bytes, which is all there is unless a
  restored state has more. -/
  vram : Array UInt8
  /-- Colour RAM: 32 bytes, or 64 on the Game Gear. -/
  cram : Array UInt8
  /-- First byte of a word of colour RAM. -/
  cramLatch : UInt8
  palette : Palette
  address : UInt16
  /-- Top two bits of the last command. -/
  code : UInt8
  /-- First byte of a command that waits for its second. -/
  controlLow : Option UInt8
  /-- The byte that the next read of the data port gives. -/
  readBuffer : UInt8
  status : UInt8
  /-- Line that the beam is on. -/
  line : Nat
  /-- T-states that it has been there. -/
  lineCycles : Nat
  lineCounter : UInt8
  /-- The line counter ran out. -/
  lineIrq : Bool
  /-- Vertical scroll, sampled when a field starts. -/
  vscroll : UInt8
  hLatch : UInt8
  /-- The shutter of 3-D glasses is open for the right eye. -/
  shutterRight : Bool
  /-- The field being drawn will be shown. -/
  fieldAccepted : Bool
  glasses : Glasses
  /-- Where the light phaser points. -/
  phaserTarget : Option (Int × Int)
  /-- The phaser sees the beam on this line. -/
  lightDetected : Bool
  /-- The picture being drawn. -/
  scratch : Frame
  /-- The last picture shown. -/
  display : Frame
  notes : Notes
deriving DecidableEq, Repr

namespace Vdp

/-- Bytes of colour RAM. -/
def cramSize (m : Model) : Nat := if m = .gameGear then 64 else 32

/-- The chip after power-on.  The beam stands where the vertical blank starts, so that the first
field is a whole one. -/
def new (model : Model) (timing : Standard) : Vdp where
  model := model
  timing := timing
  regs := Vector.replicate 16 0
  vram := Array.replicate vramSize 0
  cram := Array.replicate (cramSize model) 0
  cramLatch := 0
  palette := .black 32
  address := 0
  code := 0
  controlLow := none
  readBuffer := 0
  status := 0
  line := 192
  lineCycles := 0
  lineCounter := 0xFF
  lineIrq := false
  vscroll := 0
  hLatch := 0
  shutterRight := false
  fieldAccepted := true
  glasses := .both
  phaserTarget := none
  lightDetected := false
  scratch := .new screenWidth maxHeight
  display := .new screenWidth 192
  notes := #[]

instance : Inhabited Vdp := ⟨new .master .ntsc⟩

/-- The chip as after power-on; what is outside it stays: the glasses, the aim of the phaser
and the notes. -/
def reset (v : Vdp) : Vdp :=
  { new v.model v.timing with
    vram := Array.replicate v.vram.size 0, cram := Array.replicate v.cram.size 0
    glasses := v.glasses, phaserTarget := v.phaserTarget, notes := v.notes }

/-! ### Registers -/

/-- The value of a register, zero where there is none. -/
@[inline] def register (v : Vdp) (i : Nat) : UInt8 := v.regs.getD i 0

/-- Whether a bit of a mask is set in a register. -/
@[inline] def regBit (v : Vdp) (i : Nat) (mask : UInt8) : Bool :=
  v.register i &&& mask != 0

/-- Whether the newer display mode is on. -/
def mode4 (v : Vdp) : Bool := v.model ≠ .legacy && v.regBit 0 0x04

/-- Lines of the picture. -/
def activeHeight (v : Vdp) : Nat :=
  if !v.mode4 || !v.regBit 0 0x02 then 192
  else
    match v.regBit 1 0x10, v.regBit 1 0x08 with
    | true, false => 224
    | false, true => if v.model = .master then 240 else 192
    | _, _ => 192

theorem activeHeight_cases (v : Vdp) :
    v.activeHeight = 192 ∨ v.activeHeight = 224 ∨ v.activeHeight = 240 := by
  unfold activeHeight
  split
  · simp
  · split
    · simp
    · split <;> simp
    · simp

/-- Whether anything but the backdrop is drawn. -/
def displayEnabled (v : Vdp) : Bool := v.regBit 1 0x40

/-- Whether the leftmost column shows the backdrop. -/
def leftColumnMasked (v : Vdp) : Bool := v.mode4 && v.regBit 0 0x20

/-- Colour of the border and of transparent pixels. -/
def backdrop (v : Vdp) : Color :=
  let i := v.register 7 &&& 0x0F
  if v.mode4 then v.palette.get (16 + i.toNat) else fixedColor i

/-- Level of the interrupt line. -/
def irq (v : Vdp) : Bool :=
  (v.status &&& Status.vblank != 0 && v.regBit 1 0x20) ||
    (v.lineIrq && v.regBit 0 0x10 && v.model ≠ .legacy)

/-- Open a shutter of the glasses: bit 0 chooses the right eye's. -/
def setShutter (v : Vdp) (b : UInt8) : Vdp := { v with shutterRight := b &&& 1 != 0 }

/-- Point the light phaser at a pixel, or away from the screen. -/
def setPhaserTarget (v : Vdp) (target : Option (Int × Int)) : Vdp :=
  { v with
    phaserTarget := target, lightDetected := if target.isNone then false else v.lightDetected }

/-! ### Ports -/

/-- A byte of video RAM that a picture is made of; the display has fourteen address lines. -/
@[inline] def vramAt (v : Vdp) (i : Nat) : UInt8 := v.vram.getD (i % vramSize) 0

/-- The byte of video RAM at the address of the ports. -/
@[inline] def vramByte (v : Vdp) : UInt8 := v.vram.getD v.address.toNat 0

/-- The address one further. -/
@[inline] def nextAddress (a : UInt16) : UInt16 := (a + 1) &&& 0x3FFF

/-- Read the data port.  The byte was fetched by the access before. -/
def readData (v : Vdp) : UInt8 × Vdp :=
  (v.readBuffer,
    { v with
      controlLow := none
      readBuffer := v.vramByte
      address := nextAddress v.address })

/-- The chip with a byte written to colour RAM.  The Game Gear takes words: the first byte waits
for the second. -/
def writeCram (v : Vdp) (b : UInt8) : Vdp :=
  if v.model = .gameGear then
    let i := v.address.toNat % 64
    if i % 2 = 0 then { v with cramLatch := b }
    else
      { v with
        cram := (v.cram.setIfInBounds (i - 1) v.cramLatch).setIfInBounds i (b &&& 0x0F)
        palette := v.palette.set (i / 2) (gearColor (Word.ofBytes b v.cramLatch)) }
  else
    let i := v.address.toNat % 32
    { v with
      cram := v.cram.setIfInBounds i (b &&& 0x3F), palette := v.palette.set i (masterColor b) }

/-- The chip with a byte written to video RAM. -/
def writeVram (v : Vdp) (b : UInt8) : Vdp :=
  { v with vram := v.vram.setIfInBounds v.address.toNat b }

/-- Write the data port. -/
def writeData (v : Vdp) (b : UInt8) : Vdp :=
  let v := if v.code == 3 && v.model ≠ .legacy then v.writeCram b else v.writeVram b
  { v with controlLow := none, readBuffer := b, address := nextAddress v.address }

/-- Read the status, which clears the flags and the line interrupt.  The newer chips give ones in
the low bits. -/
def readStatus (v : Vdp) : UInt8 × Vdp :=
  (if v.model = .legacy then v.status else v.status ||| 0x1F,
    { v with controlLow := none, status := v.status &&& 0x1F, lineIrq := false })

/-- Write a register.  There are eleven; other numbers are ignored. -/
def writeRegister (v : Vdp) (i : UInt8) (b : UInt8) : Vdp :=
  let v := { v with notes := v.notes.push (.videoRegister i b v.line) }
  if 10 < i then v
  else
    let before := v.activeHeight
    let v := { v with regs := v.regs.setIfInBounds i.toNat b }
    let after := v.activeHeight
    if after = before then v
    else { v with notes := v.notes.push (.activeHeight before after) }

/-- Write the control port.  The first byte of a pair sets the low half of the address; the
second one completes the command: fetch a byte to read, write a register, or nothing more. -/
def writeControl (v : Vdp) (b : UInt8) : Vdp :=
  match v.controlLow with
  | none =>
    { v with controlLow := some b, address := (v.address &&& 0x3F00) ||| b.toUInt16 }
  | some low =>
    let v := {
      v with
      controlLow := none
      code := b >>> 6, address := Word.ofBytes (b &&& 0x3F) low }
    if v.code == 0 then
      { v with readBuffer := v.vramByte, address := nextAddress v.address }
    else if v.code == 2 then v.writeRegister (b &&& 0x0F) low
    else v

/-! ### Counters -/

/-- The values that the line counter runs through in a field, as first and last of each run.  It
jumps back so as to stay within a byte. -/
def lineRuns (timing : Standard) (height : Nat) : List (Nat × Nat) :=
  match timing, height with
  | .ntsc, 224 => [(0x00, 0xEA), (0xE5, 0xFF)]
  | .ntsc, 240 => [(0x00, 0xFF), (0x00, 0x05)]
  | .ntsc, _ => [(0x00, 0xDA), (0xD5, 0xFF)]
  | .pal, 224 => [(0x00, 0xFF), (0x00, 0x02), (0xCA, 0xFF)]
  | .pal, 240 => [(0x00, 0xFF), (0x00, 0x0A), (0xD2, 0xFF)]
  | .pal, _ => [(0x00, 0xF2), (0xBA, 0xFF)]

/-- The value number `n` of a list of runs; `FF` after the last. -/
def valueInRuns : List (Nat × Nat) → Nat → UInt8
  | [], _ => 0xFF
  | (first, last) :: runs, n =>
    if first + n ≤ last then UInt8.ofNat (first + n) else valueInRuns runs (n - (last + 1 - first))

/-- The line as a program sees it. -/
def vCounter (v : Vdp) : UInt8 := valueInRuns (lineRuns v.timing v.activeHeight) v.line

/-- The beam's position in the line: 171 values, with a jump from `93` to `E9`. -/
def hCounter (v : Vdp) : UInt8 :=
  let h := v.lineCycles * 3 / 4
  UInt8.ofNat (if h ≤ 0x93 then h else h - 0x94 + 0xE9)

/-- Keep the beam's position for a program to read. -/
def latchHCounter (v : Vdp) : Vdp := { v with hLatch := v.hCounter }

/-- Whether the displayed picture has the shape of a field. -/
def displayConsistent (v : Vdp) : Bool :=
  let d := v.display
  d.width == screenWidth && (d.height == 192 || d.height == 224 || d.height == 240) &&
    d.pixels.size == d.width * d.height

end Vdp

end MasterSystem.Video
