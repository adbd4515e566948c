import MasterSystem.Cheat.Code

/-! # Cheats in force

The codes that are in force, and the bytes of the image that their patches replaced.  Patches are
made once, when a code is added; pokes are repeated after every frame.  Clearing the cheats puts
the bytes back, the newest first, so that overlapping patches are undone too. -/

namespace MasterSystem

/-- Codes in force and the bytes that they replaced. -/
structure Cheats where
  /-- Oldest first. -/
  active : Array (String × Cheat) := #[]
  /-- Index and byte before each patch, newest first. -/
  replaced : List (Nat × UInt8) := []
deriving DecidableEq, Repr, Inhabited

namespace Cheats

/-- Bytes in a bank, for patches that look for a byte. -/
def bankSize : Nat := 0x4000

/-- The codes, oldest first. -/
def codes (e : Cheats) : List String := e.active.toList.map (·.1)

/-- Whether no code is in force. -/
def isEmpty (e : Cheats) : Bool := e.active.isEmpty

/-- The places of an image that a patch changes.  Without a byte to compare there is one, where the
address points at power-on.  With one, it is the same offset in every bank where that byte
stands; the first bank counts only for addresses in the first slot. -/
def places (rom : Array UInt8) (address : UInt16) : Option UInt8 → List Nat
  | none => if rom.isEmpty then [] else [address.toNat % rom.size]
  | some b =>
    let first := if address < 0x4000 then 0 else 1
    let count := (rom.size + (bankSize - 1)) / bankSize
    ((List.range' first (count - first)).map fun bank =>
      bank * bankSize + address.toNat % bankSize).filter fun i => rom[i]? == some b

/-- An image with a byte replaced, and the byte remembered. -/
def replaceByte (value : UInt8) (s : List (Nat × UInt8) × Array UInt8) (i : Nat) :
    List (Nat × UInt8) × Array UInt8 :=
  ((i, s.2.getD i 0) :: s.1, s.2.setIfInBounds i value)

/-- Make the patch of a cheat in an image. -/
def install (e : Cheats) (c : Cheat) (rom : Array UInt8) : Cheats × Array UInt8 :=
  match c with
  | .poke .. => (e, rom)
  | .patch address value compare =>
    let (replaced, rom) :=
      (places rom address compare).foldl (replaceByte value) (e.replaced, rom)
    ({ e with replaced := replaced }, rom)

/-- Put a code in force, without an image. -/
def record (e : Cheats) (code : String) (c : Cheat) : Cheats :=
  { e with active := e.active.push (code, c) }

/-- Put a code in force on an image. -/
def add (e : Cheats) (code : String) (rom : Array UInt8) :
    Except Error (Cheat × Cheats × Array UInt8) :=
  match Cheat.parse code with
  | .error x => .error x
  | .ok c =>
    let (e, rom) := e.install c rom
    .ok (c, e.record code c, rom)

/-- The note that a code is in force. -/
def note (code : String) (c : Cheat) : Note := .cheat code c.describe

/-- RAM with one cheat's byte in it; the address counts from the start of RAM and goes round. -/
def pokeOne (ram : Array UInt8) : Cheat → Array UInt8
  | .poke address value => ram.setIfInBounds ((address.toNat - Cheat.ramStart) % ram.size) value
  | .patch .. => ram

/-- RAM with all pokes made, oldest first. -/
def poke (e : Cheats) (ram : Array UInt8) : Array UInt8 :=
  e.active.foldl (fun ram c => pokeOne ram c.2) ram

/-- An image with the replaced bytes put back. -/
def restore (e : Cheats) (rom : Array UInt8) : Array UInt8 :=
  e.replaced.foldl (fun rom p => rom.setIfInBounds p.1 p.2) rom

theorem size_restore (e : Cheats) (rom : Array UInt8) : (e.restore rom).size = rom.size := by
  unfold restore
  induction e.replaced generalizing rom with
  | nil => rfl
  | cons p ps ih => simp [ih]

end Cheats

end MasterSystem
