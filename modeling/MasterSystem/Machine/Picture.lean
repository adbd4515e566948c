import MasterSystem.Settings
import MasterSystem.Video.Beam

/-! # The picture that a host is given

The last field shown by the video processor, fitted to the display.  The Game Gear's own screen
shows a window in the middle.  A television shows the whole field, with a border in the colour of
the backdrop if the settings ask for one, and perhaps with the leftmost columns blanked.

The picture is put together row by row, from one array of colours into another.  There is none if a
row reaches past the end of either (`frame?`), which the fields that the video processor shows do
not do; a host would be given a black picture then. -/

namespace MasterSystem.Picture

open Video (Vdp Frame Color)

/-- Columns of the Game Gear's screen. -/
def gearWidth : Nat := 160

/-- Lines of the Game Gear's screen. -/
def gearHeight : Nat := 144

/-- First column of the window. -/
def gearLeft : Nat := 48

/-- First line of the window, in the lowest field. -/
def gearTop : Nat := 24

/-- Columns that are blanked on the left. -/
def leftBarWidth : Nat := 8

/-- Columns of a television picture. -/
def width (v : Vdp) (s : Settings) : Nat := v.display.width + 2 * s.overscan.side

/-- Lines of a television picture: those of the field, or of the field with its border. -/
def height (v : Vdp) (s : Settings) : Nat :=
  match s.overscan.fullHeight v.timing with
  | some h => max h v.display.height
  | none => v.display.height

/-- Columns and lines of the picture. -/
def size (v : Vdp) (s : Settings) : Nat × Nat :=
  if v.model = .gameGear then (gearWidth, gearHeight) else (width v s, height v s)

/-- The pixels with `n` colours, from index `source` on, copied over those from index `target`
on. -/
def copy? (colors : Array Color) (source n target : Nat) (pixels : Array Color) :
    Option (Array Color) :=
  if source + n ≤ colors.size ∧ target + n ≤ pixels.size then
    some (Vdp.copyRow colors n source target pixels)
  else none

/-- The pixels after `n` rows, from row `y` on, were drawn into them. -/
def rows? (row : Nat → Array Color → Option (Array Color)) :
    Nat → Nat → Array Color → Option (Array Color)
  | 0, _, pixels => some pixels
  | n + 1, y, pixels => (row y pixels).bind (rows? row n (y + 1))

/-- First line of the Game Gear's window. -/
def windowTop (v : Vdp) : Nat := gearTop + (v.display.height - 192) / 2

/-- Draw a line of the Game Gear's window. -/
def windowRow? (v : Vdp) (y : Nat) (pixels : Array Color) : Option (Array Color) :=
  copy? v.display.pixels ((windowTop v + y) * v.display.width + gearLeft) gearWidth (y * gearWidth)
    pixels

/-- The window of the Game Gear; lines that the field does not have are black. -/
def gear? (v : Vdp) : Option Frame := do
  let pixels ← rows? (windowRow? v) (min gearHeight (v.display.height - windowTop v)) 0
    (Array.replicate (gearWidth * gearHeight) 0)
  return ⟨gearWidth, gearHeight, pixels⟩

/-- Whether the leftmost columns are blanked. -/
def hidesLeft (v : Vdp) (s : Settings) : Bool :=
  v.model = .master &&
    match s.leftBar with
    | .never => false
    | .always => true
    | .auto => v.leftColumnMasked

/-- Lines of border above the field. -/
def border (v : Vdp) (s : Settings) : Nat := (height v s - v.display.height) / 2

/-- Blank the leftmost columns of a line, drawn from index `target` on. -/
def blankRow? (v : Vdp) (target : Nat) (pixels : Array Color) : Option (Array Color) :=
  if leftBarWidth ≤ v.display.width then
    copy? (Array.replicate leftBarWidth 0) 0 leftBarWidth target pixels
  else none

/-- Draw a line of the field into a television picture. -/
def fieldRow? (v : Vdp) (s : Settings) (y : Nat) (pixels : Array Color) :
    Option (Array Color) := do
  let target := (border v s + y) * width v s + s.overscan.side
  let pixels ← copy? v.display.pixels (y * v.display.width) v.display.width target pixels
  if hidesLeft v s then blankRow? v target pixels else return pixels

/-- The television picture.  The field stands in its middle, which needs a picture at least as high
as the field. -/
def television? (v : Vdp) (s : Settings) : Option Frame :=
  if v.display.height ≤ height v s then do
    let pixels ← rows? (fieldRow? v s) v.display.height 0
      (Array.replicate (width v s * height v s) v.backdrop)
    return ⟨width v s, height v s, pixels⟩
  else none

/-- The picture, if it can be put together. -/
def frame? (v : Vdp) (s : Settings) : Option Frame :=
  if v.model = .gameGear then gear? v else television? v s

/-- The picture. -/
def frame (v : Vdp) (s : Settings) : Frame :=
  (frame? v s).getD (.new (size v s).1 (size v s).2)

end MasterSystem.Picture
