import MasterSystem.Proofs.Video.Layers
import MasterSystem.Video.Render.Legacy
import MasterSystem.Video.Render.Mode4

/-! # What a sprite table says

Where a sprite is on the screen, and what is in it, as the bytes of video RAM and the bits of the
registers say it.  Nothing here is about lines or about drawing.

* **Places.**  A sprite is a rectangle of pixels, each of which is a square of columns and lines
  (`Sprite.Place`).
* **Bits.**  A mask on a byte asks for one of its bits (`regBit_eq_flag`), and four bits, one of
  each plane, are a colour number (`Planes.pixel_eq`).
* **Newer mode.**  `spritePlace` and `spriteDot` say it of the newer mode, where a tall sprite is
  two tiles.
* **Legacy modes.**  `legacyPlace` and `legacyDot` say it of the legacy modes, where a large sprite
  is four patterns.
* **Contents.**  `holding` puts given bytes into video RAM.

What the drawing of a line computes from a table is in each case what the table says. -/

namespace MasterSystem.Video

open Word (forall_byte)

/-! ### Places -/

/-- Where a sprite is: its first line and its first column, its pixels across and down, and how many
columns and lines each of them takes. -/
structure Sprite.Place where
  top : Int
  left : Int
  width : Nat
  height : Nat
  zoom : Nat
deriving DecidableEq, Repr

/-- A difference below zero counts as zero, before it is divided or after. -/
theorem toNat_div_natCast (n : Int) (k : Nat) : (n / k).toNat = n.toNat / k := by
  cases n with
  | ofNat m => rfl
  | negSucc m =>
      cases k with
      | zero => simp
      | succ k => exact (Nat.zero_div (k + 1)).symm

namespace Sprite.Place

/-- The sprite has pixels on a line. -/
def covers (p : Place) (line : Nat) : Bool :=
  p.top ≤ line && line < p.top + (p.height * p.zoom : Nat)

/-- The row of the sprite that is on a line. -/
def row (p : Place) (line : Nat) : Nat := (line - p.top).toNat / p.zoom

/-- The column of the sprite that is in a column of the screen, if one is. -/
def column? (p : Place) (x : Fin screenWidth) : Option Nat :=
  if p.left ≤ x.val ∧ x.val < p.left + (p.width * p.zoom : Nat) then
    some ((x.val - p.left).toNat / p.zoom)
  else none

theorem column?_lt {p : Place} {x : Fin screenWidth} {k : Nat} (h : p.column? x = some k) :
    k < p.width := by
  unfold column? at h
  split at h
  · rename_i hin
    obtain rfl := Option.some.inj h
    refine Nat.div_lt_of_lt_mul ?_
    rw [Nat.mul_comm]
    omega
  · simp at h

/-- What is in the columns of a sprite, as a layer of the line. -/
theorem row_eq {γ : Type} (p : Place) (c : Nat → Option γ) (x : Fin screenWidth) :
    Layer.row p.left (p.width * p.zoom) (fun k => c (k / p.zoom)) x = (p.column? x).bind c := by
  unfold Layer.row column?
  split <;> rfl

end Sprite.Place

/-! ### Bits -/

theorem and_shift_eq_testBit : ∀ b : UInt8, ∀ k : Fin 8,
    (b &&& (1 <<< UInt8.ofNat k.val) != 0) = b.toNat.testBit k.val :=
  forall_byte (by decide +kernel)

/-- Bit `7 - x` of a byte, by a mask that goes down from the top bit. -/
theorem and_shiftDown_eq_testBit : ∀ b : UInt8, ∀ x : Fin 8,
    (b &&& (0x80 >>> UInt8.ofNat x.val) != 0) = b.toNat.testBit (7 - x.val) :=
  forall_byte (by decide +kernel)

theorem Planes.bitAt_eq : ∀ b : UInt8, ∀ x : Fin 8,
    bitAt b x.val = UInt8.ofNat (b.toNat.testBit (7 - x.val)).toNat :=
  forall_byte (by decide +kernel)

/-- A colour number, by its bits. -/
def colorNumber (bit : Nat → Bool) : UInt8 :=
  UInt8.ofNat ((bit 0).toNat + 2 * (bit 1).toNat + 4 * (bit 2).toNat + 8 * (bit 3).toNat)

/-- The bytes of a row of pixels, by their numbers. -/
def Planes.byte (p : Planes) : Nat → UInt8
  | 0 => p.p0
  | 1 => p.p1
  | 2 => p.p2
  | _ => p.p3

/-- A pixel takes a bit of each plane, those of the leftmost column from the top. -/
theorem Planes.pixel_eq (p : Planes) {x : Nat} (hx : x < 8) :
    p.pixel x = colorNumber fun k => (p.byte k).toNat.testBit (7 - x) := by
  have hbits : ∀ b₀ b₁ b₂ b₃ : Bool, UInt8.ofNat b₀.toNat ||| (UInt8.ofNat b₁.toNat <<< 1) |||
      (UInt8.ofNat b₂.toNat <<< 2) ||| (UInt8.ofNat b₃.toNat <<< 3) =
        UInt8.ofNat (b₀.toNat + 2 * b₁.toNat + 4 * b₂.toNat + 8 * b₃.toNat) := by decide
  have hbit (b : UInt8) := bitAt_eq b ⟨x, hx⟩
  unfold pixel
  rw [hbit, hbit, hbit, hbit]
  exact hbits _ _ _ _

namespace Vdp

variable (v : Vdp)

/-- Bit `k` of register `r`. -/
def flag (r k : Nat) : Bool := (v.register r).toNat.testBit k

theorem regBit_eq_flag (r : Nat) (k : Fin 8) :
    v.regBit r (1 <<< UInt8.ofNat k.val) = v.flag r k.val := and_shift_eq_testBit _ k

theorem enlarged_eq : v.regBit 1 0x01 = v.flag 1 0 := v.regBit_eq_flag 1 0

theorem tall_eq : v.regBit 1 0x02 = v.flag 1 1 := v.regBit_eq_flag 1 1

/-! ### Newer mode -/

/-- Byte `k` of the sprite table.  Register 5 tells which 256 bytes it is. -/
def spriteByte (k : Nat) : UInt8 := v.vramAt ((v.register 5).toNat / 2 % 64 * 256 + k)

/-- Where sprite `i` is.  The table starts with the vertical bytes of all sprites, and from its byte
128 on each of them has a horizontal byte and the number of a tile. -/
def spritePlace (i : Nat) : Sprite.Place :=
  let below : Int := (v.spriteByte i).toNat + 1
  { top := if 240 < below then below - 256 else below
    left := (v.spriteByte (128 + 2 * i)).toNat - (if v.flag 0 3 then 8 else 0)
    width := 8
    height := if v.flag 1 1 then 16 else 8
    zoom := if v.flag 1 0 then 2 else 1 }

/-- The colour number in a row and a column of sprite `i`.  A tall sprite is a tile with an even
number and the next one below it. -/
def spriteDot (i row column : Nat) : UInt8 :=
  let name := (v.spriteByte (129 + 2 * i)).toNat
  let first := if v.flag 1 1 then name / 2 * 2 else name
  let tile := (if v.flag 6 2 then 256 else 0) + first + row / 8
  colorNumber fun k =>
    (v.vramAt (tile * 32 + row % 8 * 4 + k)).toNat.testBit (7 - column)

theorem spriteTable_eq : v.spriteTable = (v.register 5).toNat / 2 % 64 * 256 := by
  have h : ∀ b : UInt8, (b &&& 0x7E).toNat * 128 = b.toNat / 2 % 64 * 256 :=
    forall_byte (by decide +kernel)
  exact h _

theorem vramAt_spriteTable (k : Nat) : v.vramAt (v.spriteTable + k) = v.spriteByte k := by
  unfold spriteByte
  rw [spriteTable_eq]

theorem spriteZoom_eq (i : Nat) : v.spriteZoom = (v.spritePlace i).zoom := by
  unfold spriteZoom
  rw [enlarged_eq]
  rfl

theorem spriteHeight_eq (i : Nat) :
    v.spriteHeight = (v.spritePlace i).height * (v.spritePlace i).zoom := by
  unfold spriteHeight tallSprites
  rw [tall_eq, spriteZoom_eq v i]
  rfl

theorem spriteTop_eq (i : Nat) : v.spriteTop i = (v.spritePlace i).top := by
  unfold spriteTop
  rw [vramAt_spriteTable]
  rfl

theorem spriteLeft_eq (i : Nat) : v.spriteLeft i = (v.spritePlace i).left := by
  unfold spriteLeft
  rw [Nat.add_assoc, vramAt_spriteTable, Nat.mul_comm i 2,
    show v.regBit 0 0x08 = v.flag 0 3 from v.regBit_eq_flag 0 3]
  rfl

/-- A sprite covers the lines that the table says. -/
theorem spriteCovers_eq (line i : Nat) :
    Sprite.covers (v.spriteTop i) v.spriteHeight line = (v.spritePlace i).covers line := by
  rw [spriteTop_eq, spriteHeight_eq v i]
  rfl

/-- The row of a sprite that is drawn on a line has the colours that the table says. -/
theorem spritePlanes_pixel (line i : Nat) {column : Nat} (h : column < 8) :
    (v.spritePlanes i line).pixel column =
      v.spriteDot i ((v.spritePlace i).row line) column := by
  have heven : ∀ b : UInt8, (b &&& 0xFE).toNat = b.toNat / 2 * 2 := forall_byte (by decide +kernel)
  have hname : (if v.regBit 1 0x02 then v.spriteByte (129 + 2 * i) &&& 0xFE
      else v.spriteByte (129 + 2 * i)).toNat =
        if v.flag 1 1 then (v.spriteByte (129 + 2 * i)).toNat / 2 * 2
        else (v.spriteByte (129 + 2 * i)).toNat := by
    rw [tall_eq]
    split
    · exact heven _
    · rfl
  have hrow : ((line - v.spriteTop i) / v.spriteZoom).toNat = (v.spritePlace i).row line := by
    rw [toNat_div_natCast, spriteZoom_eq v i, spriteTop_eq]
    rfl
  rw [Planes.pixel_eq _ h]
  unfold spritePlanes tallSprites
  rw [Nat.add_assoc, vramAt_spriteTable, Nat.mul_comm i 2]
  dsimp only
  rw [hname, hrow, show v.regBit 6 0x04 = v.flag 6 2 from v.regBit_eq_flag 6 2]
  rfl

/-! ### Legacy modes -/

/-- Byte `k` of entry `i` of the sprite table: a vertical byte, a horizontal one, the number of a
pattern, and attributes.  Register 5 tells which 128 bytes the table is. -/
def legacyByte (i k : Nat) : UInt8 := v.vramAt ((v.register 5).toNat % 128 * 128 + 4 * i + k)

/-- Where sprite `i` is.  The top bit of its attributes puts it 32 columns to the left. -/
def legacyPlace (i : Nat) : Sprite.Place :=
  let below : Int := (v.legacyByte i 0).toNat + 1
  let size := if v.flag 1 1 then 16 else 8
  { top := if 0xE0 < below then below - 256 else below
    left := (v.legacyByte i 1).toNat - (if (v.legacyByte i 3).toNat.testBit 7 then 32 else 0)
    width := size
    height := size
    zoom := if v.flag 1 0 then 2 else 1 }

/-- Whether there is a bit in a row and a column of sprite `i`.  A sprite of sixteen rows is four
patterns, whose numbers follow each other down the left half and then down the right. -/
def legacyDot (i row column : Nat) : Bool :=
  let name := (v.legacyByte i 2).toNat
  let pattern := (if v.flag 1 1 then name / 4 * 4 else name) + column / 8 * 2 + row / 8
  (v.vramAt ((v.register 6).toNat % 8 * 2048 + pattern * 8 + row % 8)).toNat.testBit
    (7 - column % 8)

theorem legacyEntry_eq (i : Nat) :
    v.legacyEntry i = (v.register 5).toNat % 128 * 128 + 4 * i := by
  have h : ∀ b : UInt8, (b &&& 0x7F).toNat = b.toNat % 128 := forall_byte (by decide +kernel)
  unfold legacyEntry
  rw [h, Nat.mul_comm i 4]

theorem vramAt_legacyEntry (i k : Nat) : v.vramAt (v.legacyEntry i + k) = v.legacyByte i k := by
  unfold legacyByte
  rw [legacyEntry_eq]

theorem legacyZoom_eq (i : Nat) : v.legacyZoom = (v.legacyPlace i).zoom := by
  unfold legacyZoom
  rw [enlarged_eq]
  rfl

theorem legacySize_eq (i : Nat) : v.legacySize = (v.legacyPlace i).width := by
  unfold legacySize
  rw [tall_eq]
  rfl

theorem legacyTop_eq (i : Nat) : v.legacyTop i = (v.legacyPlace i).top := by
  unfold legacyTop
  rw [show v.vramAt (v.legacyEntry i) = v.legacyByte i 0 from v.vramAt_legacyEntry i 0]
  rfl

theorem legacyLeft_eq (i : Nat) : v.legacyLeft i = (v.legacyPlace i).left := by
  have hclock : ∀ b : UInt8, (if b &&& 0x80 == 0 then (0 : Int) else 32) =
      if b.toNat.testBit 7 then 32 else 0 := forall_byte (by decide +kernel)
  unfold legacyLeft
  rw [vramAt_legacyEntry, vramAt_legacyEntry, hclock]
  rfl

/-- A sprite covers the lines that the table says. -/
theorem legacyCovers_eq (line i : Nat) :
    Sprite.covers (v.legacyTop i) (v.legacySize * v.legacyZoom : Nat) line =
      (v.legacyPlace i).covers line := by
  rw [legacyTop_eq, legacySize_eq v i, legacyZoom_eq v i]
  rfl

/-- The pattern that is drawn on a line has the bits that the table says. -/
theorem legacyBit_eq (line i column : Nat) :
    v.legacyBit i line column = v.legacyDot i ((v.legacyPlace i).row line) column := by
  have hfourth : ∀ b : UInt8, (b &&& 0xFC).toNat = b.toNat / 4 * 4 :=
    forall_byte (by decide +kernel)
  have hbase : ∀ b : UInt8, (b &&& 0x07).toNat = b.toNat % 8 := forall_byte (by decide +kernel)
  have hname : (if v.regBit 1 0x02 then v.legacyByte i 2 &&& 0xFC else v.legacyByte i 2).toNat =
      if v.flag 1 1 then (v.legacyByte i 2).toNat / 4 * 4 else (v.legacyByte i 2).toNat := by
    rw [tall_eq]
    split
    · exact hfourth _
    · rfl
  have hrow : ((line - v.legacyTop i) / v.legacyZoom).toNat = (v.legacyPlace i).row line := by
    rw [toNat_div_natCast, legacyZoom_eq v i, legacyTop_eq]
    rfl
  have haddress (base name row : Nat) : base + name * 8 + column / 8 * 16 + row =
      base + (name + column / 8 * 2 + row / 8) * 8 + row % 8 := by omega
  unfold legacyBit legacyDot
  dsimp only
  rw [vramAt_legacyEntry, hname, hbase, hrow, haddress]
  exact and_shiftDown_eq_testBit _ ⟨column % 8, Nat.mod_lt _ (by decide)⟩

/-! ### Contents -/

/-- The chip with a byte for each address of video RAM. -/
def holding (f : Nat → UInt8) : Vdp := { v with vram := Array.ofFn fun i : Fin vramSize => f i }

theorem vramAt_holding (f : Nat → UInt8) : (v.holding f).vramAt = fun i => f (i % vramSize) := by
  funext i
  have hi : i % vramSize < vramSize := Nat.mod_lt _ (by decide)
  unfold vramAt holding
  rw [Array.getD_eq_getD_getElem?, Array.getElem?_ofFn, dif_pos hi]
  rfl

end Vdp

end MasterSystem.Video
