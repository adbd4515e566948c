import MasterSystem.Word

/-! # Banks

An image is larger than the space in which the processor sees it, so a cartridge shows it in pieces
of equal size.  Bank numbers go round at the number of banks in the image, and past the end of the
image nothing answers. -/

namespace MasterSystem.Mapper

/-- What the processor reads where nothing answers. -/
def openBus : UInt8 := 0xFF

/-- Banks of `size` bytes in an image, the last one perhaps cut short; there is at least one. -/
def bankCount (rom : Array UInt8) (size : Nat) : Nat := max ((rom.size + (size - 1)) / size) 1

/-- The byte at an offset in a bank of `size` bytes. -/
@[inline] def bankByte (rom : Array UInt8) (size bank offset : Nat) : UInt8 :=
  rom.getD (bank % bankCount rom size * size + offset) openBus

/-- The byte at an address that is not banked. -/
@[inline] def fixedByte (rom : Array UInt8) (address : UInt16) : UInt8 :=
  rom.getD address.toNat openBus

/-- The byte at an address of an image that repeats. -/
@[inline] def repeatedByte (rom : Array UInt8) (address : UInt16) : UInt8 :=
  rom.getD (address.toNat % rom.size) openBus

/-- Only the number modulo the bank count matters. -/
theorem bankByte_mod (rom : Array UInt8) (size bank offset : Nat) :
    bankByte rom size (bank % bankCount rom size) offset = bankByte rom size bank offset := by
  simp [bankByte]

end MasterSystem.Mapper
