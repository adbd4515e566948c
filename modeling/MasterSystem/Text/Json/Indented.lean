import MasterSystem.Text.Json

/-! # Indented JSON

The form in which documents are printed for people: every item of an array and every field of an
object stands on a line of its own, two blanks further in than what contains it.  A container
without items is closed where it is opened. -/

namespace MasterSystem.Text.Json

/-- A character of a string.  Quotes, backslashes and control characters are escaped. -/
def escape (c : Char) : String :=
  match c with
  | '"' => "\\\""
  | '\\' => "\\\\"
  | '\x08' => "\\b"
  | '\x0c' => "\\f"
  | '\n' => "\\n"
  | '\r' => "\\r"
  | '\t' => "\\t"
  | c =>
    if c.toNat < 0x20 then "\\u" ++ String.ofList ((Nat.toDigits 16 c.toNat).leftpad 4 '0')
    else String.singleton c

/-- A string between quotes. -/
def quoted (s : String) : String := "\"" ++ String.join (s.toList.map escape) ++ "\""

/-- The start of a line in the given depth of containers. -/
def newLine (depth : Nat) : String := "\n" ++ String.ofList (List.replicate (2 * depth) ' ')

mutual

/-- A value in the given depth of containers. -/
def indentedAt (depth : Nat) : Json → String
  | null => "null"
  | bool b => if b then "true" else "false"
  | int n => toString n
  | decimal text => text
  | string s => quoted s
  | array [] => "[]"
  | array (x :: xs) =>
    "[" ++ newLine (depth + 1) ++ indentedAt (depth + 1) x ++ moreItems (depth + 1) xs ++
      newLine depth ++ "]"
  | object [] => "\x7b\x7d"
  | object ((key, x) :: fields) =>
    "\x7b" ++ newLine (depth + 1) ++ quoted key ++ ": " ++ indentedAt (depth + 1) x ++
      moreFields (depth + 1) fields ++ newLine depth ++ "\x7d"

/-- The items of an array after its first one. -/
def moreItems (depth : Nat) : List Json → String
  | [] => ""
  | x :: xs => "," ++ newLine depth ++ indentedAt depth x ++ moreItems depth xs

/-- The fields of an object after its first one. -/
def moreFields (depth : Nat) : List (String × Json) → String
  | [] => ""
  | (key, x) :: fields =>
    "," ++ newLine depth ++ quoted key ++ ": " ++ indentedAt depth x ++ moreFields depth fields

end

/-- A document. -/
def indented (j : Json) : String := indentedAt 0 j

end MasterSystem.Text.Json
