/-! # Colours

A colour is a number with eight bits each of red, green and blue.  The colour RAM of the Master
System holds two bits per component in a byte, that of the Game Gear four bits in a word; the
older video chip has sixteen colours of its own. -/

namespace MasterSystem.Video

/-- Red, green and blue, eight bits each from bit 16 down. -/
abbrev Color := UInt32

/-- The colour with the given components. -/
@[inline] def rgb (r g b : UInt32) : Color := (r <<< 16) ||| (g <<< 8) ||| b

/-- The colour of a Master System colour byte. -/
def masterColor (v : UInt8) : Color :=
  let part (c : UInt8) : UInt32 := (c &&& 3).toUInt32 * 85
  rgb (part v) (part (v >>> 2)) (part (v >>> 4))

/-- The colour of a Game Gear colour word. -/
def gearColor (w : UInt16) : Color :=
  let part (c : UInt16) : UInt32 := (c &&& 0x0F).toUInt32 * 17
  rgb (part w) (part (w >>> 4)) (part (w >>> 8))

/-- The fixed colours of the older chip; the first is transparent and drawn black. -/
def fixedColors : Vector Color 16 := #v[
  0x000000, 0x000000, 0x21C842, 0x5EDC78, 0x5455ED, 0x7D76FC, 0xD4524D, 0x42EBF5,
  0xFC5554, 0xFF7978, 0xD4C154, 0xE6CE80, 0x21B03B, 0xC95BBA, 0xCCCCCC, 0xFFFFFF]

/-- The fixed colour of a nibble. -/
def fixedColor (i : UInt8) : Color := fixedColors.get (Fin.ofNat 16 i.toNat)

/-- An array of nothing but the value that stands for a missing one. -/
theorem getD_replicate {α : Type} (n : Nat) (a : α) (i : Nat) :
    (Array.replicate n a).getD i a = a := by
  rw [Array.getD_eq_getD_getElem?, Array.getElem?_replicate]
  split <;> rfl

/-- Decoded colours, kept beside the raw colour RAM. -/
structure Palette where
  colors : Array Color
deriving DecidableEq, Repr, Inhabited

namespace Palette

/-- A palette of black entries. -/
def black (size : Nat) : Palette := ⟨Array.replicate size 0⟩

/-- Number of entries. -/
def size (p : Palette) : Nat := p.colors.size

/-- The colour of an entry, black where there is none. -/
@[inline] def get (p : Palette) (i : Nat) : Color := p.colors.getD i 0

/-- The palette with an entry replaced, if there is such an entry. -/
def set (p : Palette) (i : Nat) (c : Color) : Palette := ⟨p.colors.setIfInBounds i c⟩

theorem get_black (size i : Nat) : (black size).get i = 0 := getD_replicate size 0 i

theorem size_set (p : Palette) (i : Nat) (c : Color) : (p.set i c).size = p.size := by
  simp [set, size]

theorem get_set_same (p : Palette) (i : Nat) (c : Color) (h : i < p.size) :
    (p.set i c).get i = c := by
  simp only [size] at h
  simp [get, set, h]

theorem get_set_ne (p : Palette) {i j : Nat} (c : Color) (h : i ≠ j) :
    (p.set i c).get j = p.get j := by
  simp [get, set, Array.getD_eq_getD_getElem?, Array.getElem?_setIfInBounds_ne h]

end Palette

end MasterSystem.Video
