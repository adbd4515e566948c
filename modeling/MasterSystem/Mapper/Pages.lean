import MasterSystem.Mapper.Bank

/-! # Boards with pages of eight kilobytes

The first sixteen kilobytes of the image are fixed at `0000`.  Four windows follow, from `4000` on,
each showing a page of the image.

* **MSX.**  The first four addresses are the registers of the windows.
* **Janggun.**  The first address of each window is its register, and the last two addresses of all
  choose two pages at once.  A page can be shown with the bits of each byte in reverse. -/

namespace MasterSystem.Mapper

/-- Bytes in a page. -/
def pageSize : Nat := 0x2000

/-- The window that an address from `4000` to `BFFF` lies in. -/
@[inline] def windowOf (address : UInt16) : Fin 4 :=
  Fin.ofNat 4 ((address.toNat - 0x4000) / pageSize)

/-- The byte that a window shows at an address when a page is in it. -/
@[inline] def pageByte (rom : Array UInt8) (page : UInt8) (address : UInt16) : UInt8 :=
  bankByte rom pageSize page.toNat (address.toNat % pageSize)

/-! ### MSX -/

/-- The board with registers at the bottom. -/
structure Msx where
  pages : Vector UInt8 4 := #v[0, 0, 0, 0]
deriving DecidableEq, Repr, Inhabited

namespace Msx

/-- The byte at an address. -/
def read (m : Msx) (rom : Array UInt8) (address : UInt16) : UInt8 :=
  if address < 0x4000 then fixedByte rom address
  else if address < 0xC000 then pageByte rom m.pages[windowOf address] address
  else openBus

/-- The window whose register is at an address. -/
def register? (address : UInt16) : Option (Fin 4) :=
  if address = 0x0000 then some 2
  else if address = 0x0001 then some 3
  else if address = 0x0002 then some 0
  else if address = 0x0003 then some 1
  else none

/-- The board after a write. -/
def write (m : Msx) (address : UInt16) (v : UInt8) : Msx :=
  match register? address with
  | some i => { pages := m.pages.set i.val v }
  | none => m

end Msx

/-! ### Janggun -/

/-- A byte with its bits in reverse. -/
def reverseBits (b : UInt8) : UInt8 :=
  let b := (b >>> 4) ||| (b <<< 4)
  let b := ((b &&& 0xCC) >>> 2) ||| ((b &&& 0x33) <<< 2)
  ((b &&& 0xAA) >>> 1) ||| ((b &&& 0x55) <<< 1)

/-- The board that can reverse bytes. -/
structure Janggun where
  pages : Vector UInt8 4 := #v[2, 3, 4, 5]
  reversed : Vector Bool 4 := #v[false, false, false, false]
deriving DecidableEq, Repr, Inhabited

namespace Janggun

/-- The byte at an address. -/
def read (m : Janggun) (rom : Array UInt8) (address : UInt16) : UInt8 :=
  if address < 0x4000 then fixedByte rom address
  else if address < 0xC000 then
    let i := windowOf address
    let b := pageByte rom m.pages[i] address
    if m.reversed[i] then reverseBits b else b
  else openBus

/-- The board with a page in a window: six bits of a number, and bit 6 for reversal. -/
def select (m : Janggun) (i : Fin 4) (v : UInt8) : Janggun where
  pages := m.pages.set i.val (v &&& 0x3F)
  reversed := m.reversed.set i.val (v &&& 0x40 != 0)

/-- The board with two pages that follow each other in two windows. -/
def selectPair (m : Janggun) (i j : Fin 4) (v : UInt8) : Janggun :=
  let first := (v &&& 0x3F) <<< 1
  let reversal := v &&& 0x40
  (m.select i (first ||| reversal)).select j ((first + 1) ||| reversal)

/-- The board after a write. -/
def write (m : Janggun) (address : UInt16) (v : UInt8) : Janggun :=
  if address = 0x4000 then m.select 0 v
  else if address = 0x6000 then m.select 1 v
  else if address = 0x8000 then m.select 2 v
  else if address = 0xA000 then m.select 3 v
  else if address = 0xFFFE then m.selectPair 0 1 v
  else if address = 0xFFFF then m.selectPair 2 3 v
  else m

end Janggun

end MasterSystem.Mapper
