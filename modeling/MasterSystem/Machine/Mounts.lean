import MasterSystem.Machine.Basic

/-! # Mount points

The slots of the machine as a host sees them: each has an identifier, a name and the extensions of
the files that fit. -/

namespace MasterSystem

/-- A slot that media can be put into. -/
structure MountPoint where
  id : String
  name : String
  /-- Extensions of files that fit, without the dot. -/
  extensions : List String
  /-- The machine does nothing while the slot is empty. -/
  required : Bool
deriving DecidableEq, Repr

namespace Machine

/-- The identifier of the cartridge slot. -/
def cartridgeSlot : String := "Cartridge"

/-- The identifier of the slot for the boot ROM. -/
def bootRomSlot : String := "Bios"

/-- The slots. -/
def mountPoints : List MountPoint := [
  ⟨cartridgeSlot, "Cartridge Slot", ["sms", "gg", "sg", "sc", "bin"], true⟩,
  ⟨bootRomSlot, "BIOS ROM", ["sms", "bin", "rom"], false⟩]

/-- Put an image into a slot. -/
def mount (m : Machine) (id : String) (data : Array UInt8) : Machine × Except Error Unit :=
  if id = cartridgeSlot then m.insert data {} none
  else if id = bootRomSlot then m.insertBootRom data
  else (m, .error (.invalidMountPoint id))

/-- Empty a slot. -/
def unmount (m : Machine) (id : String) : Machine × Except Error Unit :=
  if id = cartridgeSlot then (m.eject, .ok ())
  else if id = bootRomSlot then (m.ejectBootRom, .ok ())
  else (m, .error (.invalidMountPoint id))

/-- Whether there is something in a slot. -/
def isMounted (m : Machine) (id : String) : Bool :=
  if id = cartridgeSlot then m.board.memory.cartridge.isSome
  else id = bootRomSlot && m.board.memory.bootRom.isSome

end Machine

end MasterSystem
