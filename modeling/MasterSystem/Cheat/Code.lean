import MasterSystem.Error
import MasterSystem.Text.Fields

/-! # Cheat codes

A code is typed by a person and stands for one change of memory (`Cheat`).

* **Pokes**, `00AAAA:VV`: the byte `VV` is put into RAM at address `AAAA` after every frame.
* **Patches**, `DDA-AAA` or `DDA-AAA-CxC`: the byte `DD` replaces a byte of the image.  The address
  is scrambled: its top digit comes last and is inverted.  The optional third group is the byte
  that must be there before, rotated and masked.

Blanks around a code do not count. -/

namespace MasterSystem

/-- A change of memory. -/
inductive Cheat where
  | poke (address : UInt16) (value : UInt8)
  | patch (address : UInt16) (value : UInt8) (compare : Option UInt8)
deriving DecidableEq, Repr

namespace Cheat

/-- The first address of RAM: pokes go there or above, patches below. -/
def ramStart : Nat := 0xC000

/-- A byte turned right by two bits. -/
def rotateRight2 (b : UInt8) : UInt8 := (b >>> 2) ||| (b <<< 6)

/-- The byte that a patch expects, from the outer digits of the third group. -/
def expected (high low : Nat) : UInt8 :=
  rotateRight2 (UInt8.ofNat (16 * high + low)) ^^^ 0xBA

/-- A patch, if its address lies below the RAM. -/
def mkPatch? (address value : Nat) (compare : Option UInt8) : Option Cheat :=
  if address < ramStart then some (.patch (UInt16.ofNat address) (UInt8.ofNat value) compare)
  else none

/-- The address of a patch from its digits: the last of them is the top one, inverted. -/
def patchAddress (d2 d3 d4 d5 : Nat) : Nat := Text.ofDigits 16 [15 - d5, d2, d3, d4]

/-- The patch that groups of digits stand for. -/
def ofGroups? : List (List Nat) → Option Cheat
  | [[d0, d1, d2], [d3, d4, d5]] => mkPatch? (patchAddress d2 d3 d4 d5) (16 * d0 + d1) none
  | [[d0, d1, d2], [d3, d4, d5], [d6, _, d8]] =>
    mkPatch? (patchAddress d2 d3 d4 d5) (16 * d0 + d1) (some (expected d6 d8))
  | _ => none

/-- The poke that eight digits stand for: two zeros, an address in RAM and a byte. -/
def ofDigits? : List Nat → Option Cheat
  | [0, 0, a, b, c, d, e, f] =>
    let address := Text.ofDigits 16 [a, b, c, d]
    if ramStart ≤ address then
      some (.poke (UInt16.ofNat address) (UInt8.ofNat (16 * e + f)))
    else none
  | _ => none

/-- A code without the blanks around it: groups between hyphens are a patch, anything else is a poke
whose colons do not count. -/
def ofCharacters? (cs : List Char) : Option Cheat :=
  if cs.contains '-' then
    ((Text.fields '-' cs).mapM (List.mapM Text.hexDigit?)).bind ofGroups?
  else ((cs.filter (· ≠ ':')).mapM Text.hexDigit?).bind ofDigits?

/-- The change that a code stands for. -/
def parse (code : String) : Except Error Cheat :=
  match ofCharacters? (Text.trimBlanks code.toList) with
  | some c => .ok c
  | none => .error (.invalidCheat code)

/-- A change in words, for the journal. -/
def describe : Cheat → String
  | poke address value =>
    "RamPoke \x7b addr: " ++ toString address ++ ", value: " ++ toString value ++ " \x7d"
  | patch address value compare =>
    "RomPatch \x7b addr: " ++ toString address ++ ", value: " ++ toString value ++ ", compare: " ++
      (match compare with
        | some b => "Some(" ++ toString b ++ ")"
        | none => "None") ++ " \x7d"

end Cheat

end MasterSystem
