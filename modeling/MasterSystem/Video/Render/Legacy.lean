import MasterSystem.Video.Render.Sprite
import MasterSystem.Video.Vdp

/-! # The legacy display modes

The four modes of the older chip: two of tiles in two colours, one of coarse blocks, and one of
text.  All but text have sprites, which are drawn over the line as they come; a sprite in colour
zero takes part in collisions and leaves the line as it is. -/

namespace MasterSystem.Video

namespace Vdp

/-- The colour of a number; zero is the backdrop. -/
def legacyColor (v : Vdp) (i : UInt8) : Color := if i == 0 then v.backdrop else fixedColor i

/-- Where the name table starts. -/
def legacyNames (v : Vdp) : Nat := (v.register 2 &&& 0x0F).toNat * 1024

/-- Where the patterns start. -/
def legacyPatterns (v : Vdp) : Nat := (v.register 4 &&& 0x07).toNat * 2048

/-- Append `n` pixels of a pattern, from its bit `7 - i` on. -/
def pushPattern (pattern : UInt8) (fore back : Color) : Nat → Nat → Array Color → Array Color
  | 0, _, out => out
  | n + 1, i, out =>
    pushPattern pattern fore back n (i + 1) <|
      out.push (if pattern &&& (0x80 >>> UInt8.ofNat i) == 0 then back else fore)

/-- Append eight pixels of a pattern in the two colours of a colour byte. -/
def pushTile (v : Vdp) (pattern colors : UInt8) (out : Array Color) : Array Color :=
  pushPattern pattern (v.legacyColor (colors >>> 4)) (v.legacyColor (colors &&& 0x0F)) 8 0 out

/-! ### Backgrounds -/

/-- Eight pixels of graphics mode I: a colour byte for eight tiles. -/
def graphics1 (v : Vdp) (line column : Nat) (out : Array Color) : Array Color :=
  let name := (v.vramAt (v.legacyNames + line / 8 * 32 + column)).toNat
  v.pushTile (v.vramAt (v.legacyPatterns + name * 8 + line % 8))
    (v.vramAt ((v.register 3).toNat * 64 + name / 8)) out

/-- Eight pixels of graphics mode II: a colour byte for each row of each tile, and patterns of
its own for each third of the screen. -/
def graphics2 (v : Vdp) (line column : Nat) (out : Array Color) : Array Color :=
  let name := (v.vramAt (v.legacyNames + line / 8 * 32 + column)).toNat
  let offset := (line / 64 * 256 + name) * 8 + line % 8
  let patternBase := (v.register 4 &&& 0x04).toNat * 2048
  let patternMask := (v.register 4 &&& 0x03).toNat * 2048 + 0x7FF
  let colorBase := (v.register 3 &&& 0x80).toNat * 64
  let colorMask := (v.register 3 &&& 0x7F).toNat * 64 + 0x3F
  v.pushTile (v.vramAt (patternBase ||| (offset &&& patternMask)))
    (v.vramAt (colorBase ||| (offset &&& colorMask))) out

/-- Eight pixels of multicolour mode: two blocks. -/
def multicolor (v : Vdp) (line column : Nat) (out : Array Color) : Array Color :=
  let name := (v.vramAt (v.legacyNames + line / 8 * 32 + column)).toNat
  let colors := v.vramAt (v.legacyPatterns + name * 8 + line / 8 % 4 * 2 + line / 4 % 2)
  v.pushTile 0xF0 colors out

/-- Six pixels of text. -/
def text (v : Vdp) (line column : Nat) (out : Array Color) : Array Color :=
  let name := (v.vramAt (v.legacyNames + line / 8 * 40 + column)).toNat
  let pattern := v.vramAt (v.legacyPatterns + name * 8 + line % 8)
  pushPattern pattern (v.legacyColor (v.register 7 >>> 4)) (v.legacyColor (v.register 7 &&& 0x0F))
    6 0 out

/-- `n` columns of a background, from column `i` on. -/
def columns (g : Nat → Array Color → Array Color) : Nat → Nat → Array Color → Array Color
  | 0, _, out => out
  | n + 1, i, out => columns g n (i + 1) (g i out)

/-- A line of text: forty characters between two margins of backdrop. -/
def textLine (v : Vdp) (line : Nat) : Array Color :=
  columns (v.text line) 40 0 (Array.replicate 8 v.backdrop) ++ Array.replicate 8 v.backdrop

/-- A line of the background of the three other modes. -/
def legacyBackground (v : Vdp) (line : Nat) : Array Color :=
  let mode :=
    if v.regBit 1 0x08 then v.multicolor line
    else if v.regBit 0 0x02 then v.graphics2 line
    else v.graphics1 line
  columns mode 32 0 (Array.mkEmpty screenWidth)

/-! ### Sprites -/

/-- Where the entry of sprite `i` starts. -/
def legacyEntry (v : Vdp) (i : Nat) : Nat := (v.register 5 &&& 0x7F).toNat * 128 + i * 4

/-- How many times sprites are enlarged. -/
def legacyZoom (v : Vdp) : Nat := if v.regBit 1 0x01 then 2 else 1

/-- Pixels across a sprite before it is enlarged. -/
def legacySize (v : Vdp) : Nat := if v.regBit 1 0x02 then 16 else 8

/-- First line of sprite `i`. -/
def legacyTop (v : Vdp) (i : Nat) : Int := Sprite.top (v.vramAt (v.legacyEntry i)) 0xE0

/-- The sprites to draw on a line, at most four of 32, and the one too many. -/
def legacySpritesOn (v : Vdp) (line : Nat) : List Nat × Option Nat :=
  Sprite.search (fun i => v.vramAt (v.legacyEntry i) == 0xD0)
    (fun i => Sprite.covers (v.legacyTop i) (v.legacySize * v.legacyZoom : Nat) line) 32 0 4

/-- Column of the screen where sprite `i` starts. -/
def legacyLeft (v : Vdp) (i : Nat) : Int :=
  (v.vramAt (v.legacyEntry i + 1)).toNat -
    (if v.vramAt (v.legacyEntry i + 3) &&& 0x80 == 0 then 0 else 32)

/-- Whether sprite `i` has a pixel in its column `column` on a line.  A large sprite is four small
ones, the left two first. -/
def legacyBit (v : Vdp) (i line column : Nat) : Bool :=
  let name := v.vramAt (v.legacyEntry i + 2)
  let name := (if v.regBit 1 0x02 then name &&& 0xFC else name).toNat
  let row := ((line - v.legacyTop i) / v.legacyZoom).toNat
  let address := (v.register 6 &&& 0x07).toNat * 2048 + name * 8 + column / 8 * 16 + row
  v.vramAt address &&& (0x80 >>> UInt8.ofNat (column % 8)) != 0

/-- A line while sprites are drawn over it: its colours, the pixels that a sprite has taken, and
whether two met. -/
structure Overlay where
  row : Array Color
  taken : Array Bool
  collision : Bool
deriving DecidableEq, Repr

/-- Put a pixel of a sprite on the line; a transparent one only takes it. -/
def Overlay.plot (o : Overlay) (x : Int) (color : Option Color) : Overlay :=
  if x < 0 || (screenWidth : Int) ≤ x then o
  else if o.taken.getD x.toNat false then { o with collision := true }
  else
    { o with
      taken := o.taken.setIfInBounds x.toNat true
      row := match color with
        | some c => o.row.setIfInBounds x.toNat c
        | none => o.row }

/-- Put the pixels of a sprite on the line: those of its columns from `k` on where `bit` is
set. -/
def Overlay.plotRow (bit : Nat → Bool) (left : Int) (color : Option Color) :
    Nat → Nat → Overlay → Overlay
  | 0, _, o => o
  | n + 1, k, o =>
    plotRow bit left color n (k + 1) (if bit k then o.plot (left + k) color else o)

/-- The colour of sprite `i`, if it is not transparent. -/
def legacySpriteColor (v : Vdp) (i : Nat) : Option Color :=
  let c := v.vramAt (v.legacyEntry i + 3) &&& 0x0F
  if c == 0 then none else some (fixedColor c)

/-- Draw sprite `i` over a line. -/
def overlaySprite (v : Vdp) (line : Nat) (o : Overlay) (i : Nat) : Overlay :=
  let zoom := v.legacyZoom
  o.plotRow (fun k => v.legacyBit i line (k / zoom)) (v.legacyLeft i) (v.legacySpriteColor i)
    (v.legacySize * zoom) 0

/-- The status after the sprites of a line.  The first overflow also stores the number of the
sprite that was too many. -/
def legacyStatus (status : UInt8) (extra : Option Nat) (collision : Bool) : UInt8 :=
  let status := if collision then status ||| Status.collision else status
  match extra with
  | some i =>
    if status &&& Status.overflow == 0 then
      (status &&& 0xE0) ||| Status.overflow ||| UInt8.ofNat i
    else status
  | none => status

/-- Draw the sprites of a line over it. -/
def drawLegacySprites (v : Vdp) (line : Nat) (row : Array Color) : Array Color × Vdp :=
  let (drawn, extra) := v.legacySpritesOn line
  let o := drawn.foldl (v.overlaySprite line) ⟨row, Array.replicate screenWidth false, false⟩
  (o.row, { v with status := legacyStatus v.status extra o.collision })

/-! ### The line -/

/-- Draw a line: its colours, and the flags that its sprites raise. -/
def drawLegacy (v : Vdp) (line : Nat) : Array Color × Vdp :=
  if v.regBit 1 0x10 then (v.textLine line, v)
  else v.drawLegacySprites line (v.legacyBackground line)

end Vdp

end MasterSystem.Video
