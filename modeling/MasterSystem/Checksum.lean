import MasterSystem.ByteTable

/-! # CRC-32

The cyclic redundancy check that identifies a cartridge image: the reflected polynomial
`EDB88320`, all ones at the start and an inversion at the end.  `shift` divides out one bit,
`table` holds the eight-fold shift of each byte, and `crc32` folds a byte string with it. -/

namespace MasterSystem.Checksum

/-- One bit of the division by the polynomial. -/
def shift (r : UInt32) : UInt32 :=
  if r &&& 1 == 1 then (r >>> 1) ^^^ 0xEDB88320 else r >>> 1

/-- `n` bits of the division. -/
def shifts : Nat → UInt32 → UInt32
  | 0, r => r
  | n + 1, r => shifts n (shift r)

/-- The remainder left by each byte alone. -/
def table : ByteTable UInt32 := ByteTable.tabulate fun b => shifts 8 b.toUInt32

/-- The remainder after one more byte. -/
def step (r : UInt32) (b : UInt8) : UInt32 := table.look (r.toUInt8 ^^^ b) ^^^ (r >>> 8)

/-- CRC-32 of a byte string. -/
def crc32 (bytes : Array UInt8) : UInt32 := ~~~(bytes.foldl step 0xFFFFFFFF)

end MasterSystem.Checksum
