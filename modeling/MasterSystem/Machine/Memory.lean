import MasterSystem.Cartridge.Image
import MasterSystem.Mapper.Basic

/-! # The console's memory

What the processor sees at its addresses: below `C000` the cartridge, or the boot ROM while it is
mapped, and from there on the console's RAM, which repeats up to the top.  A write reaches the
mapper wherever it goes, because some boards have registers in the RAM's part. -/

namespace MasterSystem

/-- The memory of a console. -/
structure Memory where
  cartridge : Option Cartridge
  mapper : Mapper
  ram : Array UInt8
  bootRom : Option (Array UInt8)
  /-- The boot ROM covers the cartridge. -/
  bootRomMapped : Bool
  /-- Last byte written to the memory control port. -/
  control : UInt8
deriving DecidableEq, Repr, Inhabited

namespace Memory

/-- The first address of the RAM. -/
def ramStart : UInt16 := 0xC000

/-- Bytes of RAM in a console. -/
def ramSize (c : Console) : Nat := if c = .sg1000 then 0x400 else 0x2000

/-- The mapper of a cartridge after power-on; an empty slot has none to speak of. -/
def mapperOf : Option Cartridge → Mapper
  | some c => .new c.info.board c.info.ram
  | none => .romOnly

/-- Whether the boot ROM is mapped at a reset, given that it is enabled or not; the SG-1000 has
no place for one. -/
def mapsBootRom (enabled : Bool) (bootRom : Option (Array UInt8)) (c : Console) : Bool :=
  enabled && bootRom.isSome && c ≠ .sg1000

/-- The memory of a console after power-on. -/
def new (cartridge : Option Cartridge) (bootRom : Option (Array UInt8)) (c : Console)
    (bootRomEnabled : Bool) : Memory where
  cartridge := cartridge
  mapper := mapperOf cartridge
  ram := Array.replicate (ramSize c) 0
  bootRom := bootRom
  bootRomMapped := mapsBootRom bootRomEnabled bootRom c
  control := 0

/-- The memory after a reset that keeps some of its contents. -/
def reset (m : Memory) (keepCartridgeRam keepRam bootRomEnabled : Bool) (c : Console) : Memory :=
  let mapper := m.mapper.reset
  { m with
    mapper := if keepCartridgeRam then mapper else mapper.clearRam
    ram := if keepRam then m.ram else Array.replicate m.ram.size 0
    bootRomMapped := mapsBootRom bootRomEnabled m.bootRom c
    control := 0 }

/-- Install a boot ROM or take it out.  A new one is mapped at the next reset. -/
def setBootRom (m : Memory) (bootRom : Option (Array UInt8)) : Memory :=
  { m with
    bootRom := bootRom, bootRomMapped := if bootRom.isNone then false else m.bootRomMapped }

/-- The byte of the cartridge at an address. -/
@[inline] def cartridgeByte (m : Memory) (address : UInt16) : UInt8 :=
  match m.cartridge with
  | some c => m.mapper.read c.rom address
  | none => Mapper.openBus

/-- The byte at an address. -/
def read (m : Memory) (address : UInt16) : UInt8 :=
  if ramStart ≤ address then m.ram.getD (address.toNat % m.ram.size) 0
  else if m.bootRomMapped then
    match m.bootRom with
    | some b => if b.isEmpty then m.cartridgeByte address else b.getD (address.toNat % b.size) 0
    | none => m.cartridgeByte address
  else m.cartridgeByte address

/-- The memory after a write. -/
def write (m : Memory) (address : UInt16) (v : UInt8) : Memory :=
  let m := { m with mapper := m.mapper.write address v }
  if ramStart ≤ address then
    { m with ram := m.ram.setIfInBounds (address.toNat % m.ram.size) v }
  else m

/-- Whether a byte for the memory control port takes the boot ROM out of the way. -/
def unmapsBootRom (m : Memory) (v : UInt8) : Bool := m.bootRomMapped && v &&& 0x08 != 0

/-- Write the memory control port.  The boot ROM cannot be mapped again by a program. -/
def writeControl (m : Memory) (v : UInt8) : Memory :=
  { m with control := v, bootRomMapped := m.bootRomMapped && !m.unmapsBootRom v }

end Memory

end MasterSystem
