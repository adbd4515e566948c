/-! # Numerals

Hexadecimal numerals with capital digits, as every message of the machine writes them, and
the reading of decimal and hexadecimal digits. -/

namespace MasterSystem.Text

/-- The hexadecimal numeral of `n` with capital digits and at least `width` of them. -/
def hex (width n : Nat) : String :=
  String.ofList (((Nat.toDigits 16 n).map Char.toUpper).leftpad width '0')

/-- A byte as two digits. -/
def hex8 (b : UInt8) : String := hex 2 b.toNat

/-- A word as four digits. -/
def hex16 (w : UInt16) : String := hex 4 w.toNat

/-- A double word as eight digits. -/
def hex32 (d : UInt32) : String := hex 8 d.toNat

/-- The value of a hexadecimal digit of either case. -/
def hexDigit? (c : Char) : Option Nat :=
  if '0' ≤ c && c ≤ '9' then some (c.toNat - 0x30)
  else if 'a' ≤ c && c ≤ 'f' then some (c.toNat - 0x57)
  else if 'A' ≤ c && c ≤ 'F' then some (c.toNat - 0x37)
  else none

/-- The value of a decimal digit. -/
def digit? (c : Char) : Option Nat :=
  if '0' ≤ c && c ≤ '9' then some (c.toNat - 0x30) else none

/-- The number that a list of digits of the given base writes, most significant first. -/
def ofDigits (base : Nat) (ds : List Nat) : Nat := ds.foldl (fun n d => base * n + d) 0

/-- A decimal numeral below `2 ^ 64`: at least one digit, a plus sign allowed in front. -/
def natural? (s : String) : Option Nat :=
  let cs := match s.toList with
    | '+' :: r => r
    | r => r
  match cs.mapM digit? with
  | none => none
  | some [] => none
  | some ds =>
    let n := ofDigits 10 ds
    if n < 0x10000000000000000 then some n else none

end MasterSystem.Text
