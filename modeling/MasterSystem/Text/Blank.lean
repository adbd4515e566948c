/-! # Blank characters

The characters that carry no ink: the Unicode property *White_Space*, which has members
outside ASCII such as the no-break space and the em space.  Names and codes typed by a
person are read after the blanks at both ends are removed (`trim`). -/

namespace MasterSystem.Text

/-- Members of the Unicode property *White_Space*. -/
def isBlank (c : Char) : Bool :=
  let n := c.val
  (0x09 ≤ n && n ≤ 0x0D) || n == 0x20 || n == 0x85 || n == 0xA0 || n == 0x1680 ||
    (0x2000 ≤ n && n ≤ 0x200A) || n == 0x2028 || n == 0x2029 || n == 0x202F ||
    n == 0x205F || n == 0x3000

/-- A list of characters without the blanks in front of it and behind it. -/
def trimBlanks (cs : List Char) : List Char :=
  ((cs.dropWhile isBlank).reverse.dropWhile isBlank).reverse

/-- A text without the blanks in front of it and behind it. -/
def trim (s : String) : String := String.ofList (trimBlanks s.toList)

end MasterSystem.Text
