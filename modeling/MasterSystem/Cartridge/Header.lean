import MasterSystem.Word

/-! # Headers inside an image

Two marks that publishers left in their images.  The console maker's licence header names a
region; it is looked for at the end of the first 32, 16 and 8 kilobytes.  Codemasters left a
checksum together with its negative. -/

namespace MasterSystem.Header

/-- The bytes `TMR SEGA`. -/
def signature : Array UInt8 := #[0x54, 0x4D, 0x52, 0x20, 0x53, 0x45, 0x47, 0x41]

/-- Where the licence header may stand, in the order of preference. -/
def places : List Nat := [0x7FF0, 0x3FF0, 0x1FF0]

/-- Whether the image holds a whole licence header at a place. -/
def standsAt (rom : Array UInt8) (place : Nat) : Bool :=
  rom.extract place (place + 8) == signature && place + 0x0F < rom.size

/-- The region code of the licence header, if there is one. -/
def region? (rom : Array UInt8) : Option Nat :=
  (places.find? (standsAt rom)).map fun place => (rom.getD (place + 0x0F) 0).toNat / 16

/-- The little-endian word at an index. -/
def wordAt (rom : Array UInt8) (i : Nat) : UInt16 :=
  Word.ofBytes (rom.getD (i + 1) 0) (rom.getD i 0)

/-- Whether the image carries Codemasters' checksum and its negative. -/
def isCodemasters (rom : Array UInt8) : Bool :=
  0x8000 ≤ rom.size && wordAt rom 0x7FE6 != 0 && wordAt rom 0x7FE6 + wordAt rom 0x7FE8 == 0

end MasterSystem.Header
