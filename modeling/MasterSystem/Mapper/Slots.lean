import MasterSystem.Journal
import MasterSystem.Mapper.Bank

/-! # Boards with slots of sixteen kilobytes

Three slots, at `0000`, `4000` and `8000`, each showing a bank of the image.

* **Sega.**  Registers at the top of the address space; the third slot can show cartridge RAM
  instead.  The first kilobyte always shows the start of the image, so that the interrupt
  vectors stay.
* **Codemasters.**  The first byte of each slot is its register; RAM can cover the upper half of
  the third slot.
* **Korean.**  One register, for the third slot. -/

namespace MasterSystem.Mapper

/-- Bytes in a slot. -/
def slotSize : Nat := 0x4000

/-- The byte that a slot shows at an address when a bank is in it. -/
@[inline] def slotByte (rom : Array UInt8) (bank : UInt8) (address : UInt16) : UInt8 :=
  bankByte rom slotSize bank.toNat (address.toNat % slotSize)

/-! ### Sega -/

/-- The console maker's board. -/
structure Sega where
  /-- Bit 3 shows RAM in the third slot, bit 2 is the half of the RAM. -/
  control : UInt8 := 0
  banks : Vector UInt8 3 := #v[0, 1, 2]
  ram : Array UInt8
  /-- The program has shown the RAM at least once. -/
  ramUsed : Bool := false
deriving DecidableEq, Repr, Inhabited

namespace Sega

/-- The board after power-on. -/
def new (ram : Nat) : Sega := { ram := Array.replicate ram 0 }

/-- The board after a reset, which keeps the RAM. -/
def reset (m : Sega) : Sega := { m with control := 0, banks := #v[0, 1, 2] }

/-- The cell of RAM shown at an address of the third slot, if RAM is shown there. -/
def ramCell? (m : Sega) (address : UInt16) : Option Nat :=
  if m.control &&& 0x08 == 0 || m.ram.isEmpty then none
  else
    let base := if m.control &&& 0x04 == 0 then 0 else slotSize
    some ((base + address.toNat % slotSize) % m.ram.size)

/-- The byte at an address. -/
def read (m : Sega) (rom : Array UInt8) (address : UInt16) : UInt8 :=
  if address < 0x0400 then fixedByte rom address
  else if address < 0x4000 then slotByte rom (m.banks.getD 0 0) address
  else if address < 0x8000 then slotByte rom (m.banks.getD 1 0) address
  else if address < 0xC000 then
    match m.ramCell? address with
    | some i => m.ram.getD i openBus
    | none => slotByte rom (m.banks.getD 2 0) address
  else openBus

/-- Whether a byte for the control register shows RAM. -/
def showsRam (v : UInt8) : Bool := v &&& 0x08 != 0

/-- The board after a write. -/
def write (m : Sega) (address : UInt16) (v : UInt8) : Sega :=
  if 0xFFFC ≤ address then
    if address = 0xFFFC then
      { m with
        control := v
        ramUsed := if showsRam v && !m.ramUsed then !m.ram.isEmpty else m.ramUsed }
    else { m with banks := m.banks.setIfInBounds (address.toNat - 0xFFFD) v }
  else if 0x8000 ≤ address && address < 0xC000 then
    match m.ramCell? address with
    | some i => { m with ram := m.ram.setIfInBounds i v }
    | none => m
  else m

/-- The notes about a write. -/
def writeNotes (m : Sega) (address : UInt16) (v : UInt8) : List Note :=
  if address ≠ 0xFFFC then []
  else
    (if showsRam v && !m.ramUsed then [.cartridgeRamOn] else []) ++
      (if v &&& 3 == 0 then [] else [.bankShift (v &&& 3)])

end Sega

/-! ### Codemasters -/

/-- Codemasters' board. -/
structure Codemasters where
  banks : Vector UInt8 3 := #v[0, 1, 0]
  ramShown : Bool := false
  ram : Array UInt8
  /-- The program has shown the RAM at least once. -/
  ramUsed : Bool := false
deriving DecidableEq, Repr, Inhabited

namespace Codemasters

/-- The board after power-on. -/
def new (ram : Nat) : Codemasters := { ram := Array.replicate ram 0 }

/-- The board after a reset, which keeps the RAM. -/
def reset (m : Codemasters) : Codemasters := { m with banks := #v[0, 1, 0], ramShown := false }

/-- The cell of RAM shown at an address, if RAM is shown there. -/
def ramCell? (m : Codemasters) (address : UInt16) : Option Nat :=
  if m.ramShown && 0xA000 ≤ address && !m.ram.isEmpty then
    some ((address.toNat - 0xA000) % m.ram.size)
  else none

/-- The byte at an address. -/
def read (m : Codemasters) (rom : Array UInt8) (address : UInt16) : UInt8 :=
  if address < 0x4000 then slotByte rom (m.banks.getD 0 0) address
  else if address < 0x8000 then slotByte rom (m.banks.getD 1 0) address
  else if address < 0xC000 then
    match m.ramCell? address with
    | some i => m.ram.getD i openBus
    | none => slotByte rom (m.banks.getD 2 0) address
  else openBus

/-- The board after a write. -/
def write (m : Codemasters) (address : UInt16) (v : UInt8) : Codemasters :=
  if 0xC000 ≤ address then m
  else if 0xA000 ≤ address then
    match m.ramCell? address with
    | some i => { m with ram := m.ram.setIfInBounds i v }
    | none => m
  else if address = 0x0000 then { m with banks := m.banks.setIfInBounds 0 v }
  else if address = 0x4000 then
    let shown := v &&& 0x80 != 0
    { m with
      banks := m.banks.setIfInBounds 1 (v &&& 0x7F)
      ramShown := shown
      ramUsed := m.ramUsed || (shown && !m.ram.isEmpty) }
  else if address = 0x8000 then { m with banks := m.banks.setIfInBounds 2 v }
  else m

end Codemasters

/-! ### Korean -/

/-- The Korean board. -/
structure Korean where
  bank : UInt8 := 2
deriving DecidableEq, Repr, Inhabited

namespace Korean

/-- The byte at an address. -/
def read (m : Korean) (rom : Array UInt8) (address : UInt16) : UInt8 :=
  if address < 0x4000 then slotByte rom 0 address
  else if address < 0x8000 then slotByte rom 1 address
  else if address < 0xC000 then slotByte rom m.bank address
  else openBus

/-- The board after a write. -/
def write (m : Korean) (address : UInt16) (v : UInt8) : Korean :=
  if address = 0xA000 then { bank := v } else m

end Korean

end MasterSystem.Mapper
