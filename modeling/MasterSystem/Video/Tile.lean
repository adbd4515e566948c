/-! # Tiles of four planes

A tile of the newer display mode has eight rows of eight pixels.  A row is four bytes, one per
bit of the colour number; their top bits make the leftmost pixel. -/

namespace MasterSystem.Video

/-- The four bytes of a row of pixels. -/
structure Planes where
  p0 : UInt8
  p1 : UInt8
  p2 : UInt8
  p3 : UInt8
deriving DecidableEq, Repr, Inhabited

namespace Planes

/-- Bit `7 - x` of a byte. -/
@[inline] def bitAt (p : UInt8) (x : Nat) : UInt8 := (p >>> (7 - UInt8.ofNat x)) &&& 1

/-- The colour number of the pixel in column `x`. -/
def pixel (p : Planes) (x : Nat) : UInt8 :=
  bitAt p.p0 x ||| (bitAt p.p1 x <<< 1) ||| (bitAt p.p2 x <<< 2) ||| (bitAt p.p3 x <<< 3)

/-- The eight colour numbers of the row. -/
def row (p : Planes) : List UInt8 := (List.range 8).map p.pixel

end Planes

/-- Bytes of a tile. -/
def tileSize : Nat := 32

/-- Row `y` of the tile at the start of `data`; blank when the data does not hold a whole tile or
the tile no such row. -/
def tileRow (data : Array UInt8) (y : Nat) : List UInt8 :=
  if tileSize ≤ data.size ∧ y * 4 + 4 ≤ data.size then
    Planes.row ⟨data.getD (y * 4) 0, data.getD (y * 4 + 1) 0, data.getD (y * 4 + 2) 0,
      data.getD (y * 4 + 3) 0⟩
  else List.replicate 8 0

end MasterSystem.Video
