import MasterSystem.Video.Render.Sprite
import MasterSystem.Video.Tile
import MasterSystem.Video.Vdp

/-! # The newer display mode

A line of the newer mode is a background of tiles with sprites before it.  A pixel of either is
an index into the palette: five bits, and for the background a sixth that puts it in front of
the sprites.

The background is scrolled.  Vertical scroll is held still in the eight rightmost columns and
horizontal scroll in the two topmost rows, if the program asks for it. -/

namespace MasterSystem.Video

/-- A background tile's row as it is fetched: the name table entry and the bytes of the row. -/
structure TileRow where
  entry : UInt16
  planes : Planes
deriving DecidableEq, Repr, Inhabited

namespace TileRow

/-- The palette index of column `x` of the row, with bit 5 for an opaque pixel in front of the
sprites. -/
def pixel (t : TileRow) (x : Nat) : UInt8 :=
  let color := t.planes.pixel (if t.entry &&& 0x0200 == 0 then x else 7 - x)
  color ||| (if t.entry &&& 0x0800 == 0 then 0 else 0x10) |||
    (if t.entry &&& 0x1000 == 0 || color == 0 then 0 else 0x20)

end TileRow

namespace Vdp

/-- Four consecutive bytes of video RAM. -/
@[inline] def planesAt (v : Vdp) (i : Nat) : Planes :=
  ⟨v.vramAt i, v.vramAt (i + 1), v.vramAt (i + 2), v.vramAt (i + 3)⟩

/-! ### Background -/

/-- Where the name table starts. -/
def nameTable (v : Vdp) : Nat :=
  if 192 < v.activeHeight then (v.register 2 &&& 0x0C).toNat * 1024 + 0x700
  else (v.register 2 &&& 0x0E).toNat * 1024

/-- Lines of the background before it repeats. -/
def backgroundHeight (v : Vdp) : Nat := if 192 < v.activeHeight then 256 else 224

/-- Vertical scroll at column `x` of the screen. -/
def scrollY (v : Vdp) (x : Nat) : Nat := if v.regBit 0 0x80 && 192 ≤ x then 0 else v.vscroll.toNat

/-- Horizontal scroll on a line. -/
def scrollX (v : Vdp) (line : Nat) : Nat :=
  if v.regBit 0 0x40 && line < 16 then 0 else (v.register 8).toNat

/-- Column of the background shown at column `x` of the screen. -/
def sourceX (v : Vdp) (line x : Nat) : Nat := (x + 256 - v.scrollX line) % 256

/-- Line of the background shown at column `x` of the screen. -/
def sourceY (v : Vdp) (line x : Nat) : Nat := (line + v.scrollY x) % v.backgroundHeight

/-- Address of the name table entry for a place of the background. -/
def entryAddress (v : Vdp) (sx sy : Nat) : Nat := v.nameTable + (sy / 8 * 32 + sx / 8) * 2

/-- The tile that the entry at an address names, its row `y` or, turned over, `7 - y`. -/
def fetchTile (v : Vdp) (address y : Nat) : TileRow :=
  let entry := Word.ofBytes (v.vramAt (address + 1)) (v.vramAt address)
  let y := if entry &&& 0x0400 == 0 then y else 7 - y
  ⟨entry, v.planesAt ((entry &&& 0x01FF).toNat * 32 + y * 4)⟩

/-- The background at a pixel of the screen. -/
def backgroundPixel (v : Vdp) (line x : Nat) : UInt8 :=
  let sx := v.sourceX line x
  let sy := v.sourceY line x
  (v.fetchTile (v.entryAddress sx sy) (sy % 8)).pixel (sx % 8)

/-- The background from column `x` on, `n` pixels.  A tile is fetched when the address of its
entry differs from that of the one before. -/
def backgroundFrom (v : Vdp) (line : Nat) :
    Nat → Nat → Option (Nat × TileRow) → Array UInt8 → Array UInt8
  | 0, _, _, out => out
  | n + 1, x, held, out =>
    let sx := v.sourceX line x
    let sy := v.sourceY line x
    let address := v.entryAddress sx sy
    let tile :=
      match held with
      | some (a, t) => if a = address then t else v.fetchTile address (sy % 8)
      | none => v.fetchTile address (sy % 8)
    backgroundFrom v line n (x + 1) (some (address, tile)) (out.push (tile.pixel (sx % 8)))

/-- The background of a line. -/
def background (v : Vdp) (line : Nat) : Array UInt8 :=
  v.backgroundFrom line screenWidth 0 none (Array.mkEmpty screenWidth)

/-! ### Sprites -/

/-- Where the sprite table starts. -/
def spriteTable (v : Vdp) : Nat := (v.register 5 &&& 0x7E).toNat * 128

/-- Sprites are two tiles high. -/
def tallSprites (v : Vdp) : Bool := v.regBit 1 0x02

/-- How many times sprites are enlarged. -/
def spriteZoom (v : Vdp) : Nat := if v.regBit 1 0x01 then 2 else 1

/-- Lines of a sprite. -/
def spriteHeight (v : Vdp) : Nat := (if v.tallSprites then 16 else 8) * v.spriteZoom

/-- First line of sprite `i`. -/
def spriteTop (v : Vdp) (i : Nat) : Int := Sprite.top (v.vramAt (v.spriteTable + i)) 240

/-- Whether entry `i` ends the table, which only the smallest picture lets it. -/
def spriteEnds (v : Vdp) (i : Nat) : Bool :=
  v.activeHeight == 192 && v.vramAt (v.spriteTable + i) == 0xD0

/-- The sprites to draw on a line, at most eight of 64, and the one too many. -/
def spritesOn (v : Vdp) (line : Nat) : List Nat × Option Nat :=
  Sprite.search v.spriteEnds (fun i => Sprite.covers (v.spriteTop i) v.spriteHeight line) 64 0 8

/-- Column of the screen where sprite `i` starts. -/
def spriteLeft (v : Vdp) (i : Nat) : Int :=
  (v.vramAt (v.spriteTable + 0x80 + i * 2)).toNat - (if v.regBit 0 0x08 then 8 else 0)

/-- The row of sprite `i` that a line shows. -/
def spritePlanes (v : Vdp) (i line : Nat) : Planes :=
  let name := v.vramAt (v.spriteTable + 0x81 + i * 2)
  let name := (if v.tallSprites then name &&& 0xFE else name).toNat
  let row := ((line - v.spriteTop i) / v.spriteZoom).toNat
  let tile := (if v.regBit 6 0x04 then 256 else 0) + name + row / 8
  v.planesAt (tile * 32 + row % 8 * 4)

/-- What a line of sprites holds: an index per pixel, zero for none, and whether two sprites
met. -/
structure SpriteLine where
  pixels : Array UInt8
  collision : Bool
deriving DecidableEq, Repr

/-- Put a pixel of a sprite on its line.  An earlier sprite stays in front. -/
def SpriteLine.plot (s : SpriteLine) (x : Int) (color : UInt8) : SpriteLine :=
  if color == 0 || x < 0 || (screenWidth : Int) ≤ x then s
  else if s.pixels.getD x.toNat 0 != 0 then { s with collision := true }
  else { s with pixels := s.pixels.setIfInBounds x.toNat (0x10 ||| color) }

/-- Put `n` pixels of a sprite on its line, from its column `i` on. -/
def SpriteLine.plotRow (planes : Planes) (left : Int) (zoom : Nat) :
    Nat → Nat → SpriteLine → SpriteLine
  | 0, _, s => s
  | n + 1, i, s => plotRow planes left zoom n (i + 1) (s.plot (left + i) (planes.pixel (i / zoom)))

/-- The sprites of a line, and whether there were too many. -/
def spriteLine (v : Vdp) (line : Nat) : SpriteLine × Bool :=
  let (drawn, extra) := v.spritesOn line
  let zoom := v.spriteZoom
  (drawn.foldl
    (fun s i => SpriteLine.plotRow (v.spritePlanes i line) (v.spriteLeft i) zoom (8 * zoom) 0 s)
    ⟨Array.replicate screenWidth 0, false⟩, extra.isSome)

/-! ### The line -/

/-- The palette index of a pixel: the sprite's, unless there is none or the background is in
front. -/
@[inline] def compose (background sprite : UInt8) : UInt8 :=
  if sprite != 0 && background &&& 0x20 == 0 then sprite else background &&& 0x1F

/-- The colours of a line from column `x` on, `n` pixels. -/
def colorsFrom (v : Vdp) (masked : Bool) (backdrop : Color) (bg sprites : Array UInt8) :
    Nat → Nat → Array Color → Array Color
  | 0, _, out => out
  | n + 1, x, out =>
    colorsFrom v masked backdrop bg sprites n (x + 1) <| out.push <|
      if masked && x < 8 then backdrop
      else v.palette.get (compose (bg.getD x 0) (sprites.getD x 0)).toNat

/-- Draw a line: its colours, and the flags that its sprites raise. -/
def drawMode4 (v : Vdp) (line : Nat) : Array Color × Vdp :=
  let bg := v.background line
  let (sprites, overflow) := v.spriteLine line
  let row := v.colorsFrom (v.regBit 0 0x20) v.backdrop bg sprites.pixels screenWidth 0
    (Array.mkEmpty screenWidth)
  (row, { v with
    status := v.status ||| (if overflow then Status.overflow else 0) |||
      (if sprites.collision then Status.collision else 0) })

end Vdp

end MasterSystem.Video
