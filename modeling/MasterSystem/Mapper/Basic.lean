import MasterSystem.Cartridge.Kinds
import MasterSystem.Mapper.Pages
import MasterSystem.Mapper.Slots

/-! # Mappers

The part of a cartridge that changes: bank registers and RAM.  A mapper sees every write of the
processor, because some registers lie outside the cartridge's own space; the image is handed to
it for reading. -/

namespace MasterSystem

namespace Mapper

/-- The SG-1000 board: an image that repeats, and up to eight kilobytes of RAM over its second
page. -/
structure Expansion where
  ram : Array UInt8
deriving DecidableEq, Repr, Inhabited

namespace Expansion

/-- The board after power-on. -/
def new (ram : Nat) : Expansion := ⟨Array.replicate (min ram pageSize) 0⟩

/-- The cell of RAM at an address. -/
def ramCell? (m : Expansion) (address : UInt16) : Option Nat :=
  if 0x2000 ≤ address && address < 0x4000 && !m.ram.isEmpty then
    some ((address.toNat - 0x2000) % m.ram.size)
  else none

/-- The byte at an address. -/
def read (m : Expansion) (rom : Array UInt8) (address : UInt16) : UInt8 :=
  match m.ramCell? address with
  | some i => m.ram.getD i openBus
  | none => if 0xC000 ≤ address then openBus else repeatedByte rom address

/-- The board after a write. -/
def write (m : Expansion) (address : UInt16) (v : UInt8) : Expansion :=
  match m.ramCell? address with
  | some i => { ram := m.ram.setIfInBounds i v }
  | none => m

end Expansion

end Mapper

open Mapper in
/-- A mapper of one of the boards. -/
inductive Mapper where
  | romOnly
  | sega (m : Sega)
  | codemasters (m : Codemasters)
  | korean (m : Korean)
  | msx (m : Msx)
  | janggun (m : Janggun)
  | sg1000 (m : Expansion)
deriving DecidableEq, Repr

namespace Mapper

instance : Inhabited Mapper := ⟨romOnly⟩

/-- The mapper of a board with some RAM, after power-on.  A board that is not known has no
registers. -/
def new (board : Board) (ram : Nat) : Mapper :=
  match board with
  | .sega => sega (.new ram)
  | .codemasters => codemasters (.new ram)
  | .korean => korean {}
  | .msx => msx {}
  | .janggun => janggun {}
  | .sg1000 => sg1000 (.new ram)
  | .romOnly | .unknown | .unsupported => romOnly

/-- The board. -/
def board : Mapper → Board
  | romOnly => .romOnly
  | sega _ => .sega
  | codemasters _ => .codemasters
  | korean _ => .korean
  | msx _ => .msx
  | janggun _ => .janggun
  | sg1000 _ => .sg1000

/-- The byte of the cartridge at an address. -/
def read (m : Mapper) (rom : Array UInt8) (address : UInt16) : UInt8 :=
  match m with
  | romOnly => repeatedByte rom address
  | sega m => m.read rom address
  | codemasters m => m.read rom address
  | korean m => m.read rom address
  | msx m => m.read rom address
  | janggun m => m.read rom address
  | sg1000 m => m.read rom address

/-- The mapper after a write anywhere in the address space. -/
def write (m : Mapper) (address : UInt16) (v : UInt8) : Mapper :=
  match m with
  | romOnly => romOnly
  | sega m => sega (m.write address v)
  | codemasters m => codemasters (m.write address v)
  | korean m => korean (m.write address v)
  | msx m => msx (m.write address v)
  | janggun m => janggun (m.write address v)
  | sg1000 m => sg1000 (m.write address v)

/-- The notes about a write. -/
def writeNotes (m : Mapper) (address : UInt16) (v : UInt8) : List Note :=
  match m with
  | sega m => m.writeNotes address v
  | _ => []

/-- The RAM on the cartridge. -/
def ram : Mapper → Array UInt8
  | sega m => m.ram
  | codemasters m => m.ram
  | sg1000 m => m.ram
  | _ => #[]

/-- The mapper with its RAM replaced, on the boards that have any. -/
def setRam (m : Mapper) (ram : Array UInt8) : Mapper :=
  match m with
  | sega m => sega { m with ram := ram }
  | codemasters m => codemasters { m with ram := ram }
  | sg1000 _ => sg1000 { ram := ram }
  | m => m

/-- The mapper with zeros in its RAM. -/
def clearRam (m : Mapper) : Mapper := m.setRam (Array.replicate m.ram.size 0)

/-- Whether the program has shown the RAM since power-on; on the SG-1000 it always does. -/
def ramUsed : Mapper → Bool
  | sega m => m.ramUsed
  | codemasters m => m.ramUsed
  | sg1000 m => !m.ram.isEmpty
  | _ => false

/-- The mapper with its bank registers as after power-on and its RAM as it is. -/
def reset : Mapper → Mapper
  | romOnly => romOnly
  | sega m => sega m.reset
  | codemasters m => codemasters m.reset
  | korean _ => korean {}
  | msx _ => msx {}
  | janggun _ => janggun {}
  | sg1000 m => sg1000 m

theorem board_write (m : Mapper) (address : UInt16) (v : UInt8) :
    (m.write address v).board = m.board := by cases m <;> rfl

theorem board_reset (m : Mapper) : m.reset.board = m.board := by cases m <;> rfl

theorem ram_reset (m : Mapper) : m.reset.ram = m.ram := by cases m <;> rfl

end Mapper

end MasterSystem
