import MasterSystem.Video.Render.Legacy
import MasterSystem.Video.Render.Mode4

/-! # The beam

Time on the screen.  `advance` moves the beam by some T-states; every line that it enters is
started (`startLine`): drawn, if it belongs to the picture, and counted for the line interrupt.
The line after the last of the picture is where the vertical blank begins, and the only one
that `startLine` reports. -/

namespace MasterSystem.Video

namespace Vdp

/-! ### Drawing -/

/-- Lines above and below its aim at which the phaser still sees the beam. -/
def phaserRange : Nat := 4

/-- Whether a colour is bright enough for the phaser. -/
def isBright (c : Color) : Bool :=
  170 ≤ (c >>> 16).toUInt8.toNat || 170 ≤ (c >>> 8).toUInt8.toNat || 170 ≤ c.toUInt8.toNat

/-- Whether there is a bright pixel from one column to another. -/
def brightBetween (row : Array Color) (first last : Nat) : Bool :=
  (row.extract first (last + 1)).any isBright

/-- What the phaser, aimed at a place, makes of a line being drawn: the position to keep, if there
is a bright pixel within two columns.  All of it is computed with 32 bits and a sign, and there is
no outcome if a result does not fit. -/
def look (row : Array Color) (line : Nat) (x y : Int) : Option (Option UInt8) := do
  let gap ← Word.signed32? (line - y)
  let distance ← Word.signed32? gap.natAbs
  if phaserRange < distance || x < 0 || screenWidth ≤ x then
    pure none
  else
    let left ← Word.signed32? (x - 2)
    let right ← Word.signed32? (x + 2)
    if brightBetween row (max left 0).toNat (min right (screenWidth - 1)).toNat then
      let position ← Word.signed32? (x + 40)
      pure (some (UInt8.ofNat (position.tdiv 2).toNat))
    else
      pure none

/-- The chip after the phaser looked at a line being drawn. -/
def senseLight (v : Vdp) (line : Nat) (row : Array Color) : Vdp :=
  match v.phaserTarget with
  | none => v
  | some (x, y) =>
    match look row line x y with
    | none => { v with notes := v.notes.push .overflow }
    | some none => v
    | some (some position) => { v with lightDetected := true, hLatch := position }

/-- Copy `n` colours of a row from its column `k` on into the pixels from index `i` on. -/
def copyRow (row : Array Color) : Nat → Nat → Nat → Array Color → Array Color
  | 0, _, _, pixels => pixels
  | n + 1, k, i, pixels =>
    copyRow row n (k + 1) (i + 1) (pixels.setIfInBounds i (row.getD k 0))

/-- Draw a line into the scratch picture. -/
def renderLine (v : Vdp) (line : Nat) : Vdp :=
  let (row, v) :=
    if !v.displayEnabled then (Array.replicate screenWidth v.backdrop, v)
    else if v.mode4 then v.drawMode4 line
    else v.drawLegacy line
  let v := v.senseLight line row
  { v with
    scratch := {
      v.scratch with
      pixels := copyRow row screenWidth 0 (line * screenWidth) v.scratch.pixels } }

/-! ### Lines and fields -/

/-- What happens at the top of a field: the vertical scroll is sampled, and it is decided whether
the field will be shown. -/
def startField (v : Vdp) : Vdp :=
  { v with vscroll := v.register 9, fieldAccepted := v.glasses.accepts v.shutterRight }

/-- Count a line of the picture, or the one after it.  A counter at zero raises the line interrupt
and starts again from its register. -/
def countLine (v : Vdp) : Vdp :=
  if v.lineCounter == 0 then
    { v with
      lineCounter := v.register 10, lineIrq := true, notes := v.notes.push (.lineInterrupt v.line) }
  else { v with lineCounter := v.lineCounter - 1 }

/-- Show the picture drawn, if the field is to be shown. -/
def finishField (v : Vdp) (height : Nat) : Vdp :=
  if v.fieldAccepted then
    { v with
      display := ⟨screenWidth, height, v.scratch.pixels.extract 0 (screenWidth * height)⟩ }
  else v

/-- Start the line that the beam is on; true when the vertical blank begins there. -/
def startLine (v : Vdp) : Bool × Vdp :=
  let line := v.line
  let height := v.activeHeight
  let v := if line = 0 then v.startField else v
  let v := { v with lightDetected := false }
  let v := if line < height then v.renderLine line else v
  let v := if line ≤ height then v.countLine else { v with lineCounter := v.register 10 }
  if line = height then
    (true, ({ v with status := v.status ||| Status.vblank } : Vdp).finishField height)
  else (false, v)

/-- The beam enters the next line, which it starts. -/
def nextLine (v : Vdp) : Bool × Vdp :=
  startLine { v with line := (v.line + 1) % v.timing.linesPerFrame }

/-- Enter `n` lines; true when the vertical blank begins at one of them. -/
def nextLines : Nat → Vdp → Bool × Vdp
  | 0, v => (false, v)
  | n + 1, v =>
    let (blank, v) := v.nextLine
    let (later, v) := nextLines n v
    (blank || later, v)

/-- Move the beam by some T-states; true when the vertical blank begins. -/
def advance (v : Vdp) (cycles : Nat) : Bool × Vdp :=
  let total := v.lineCycles + cycles
  nextLines (total / cyclesPerLine) { v with lineCycles := total % cyclesPerLine }

end Vdp

end MasterSystem.Video
