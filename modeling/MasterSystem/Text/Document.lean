import MasterSystem.Text.Numeral

/-! # JSON documents

The reading of a JSON text into its tree of values (`Document.parse?`).

Strings and numbers keep their literal.  A literal can be well formed and still denote nothing: an
escape can stand for half of a surrogate pair.  That matters only to a reader who uses the string,
so `unescape` is a step of its own, and a value that nobody looks at may hold any literal. -/

namespace MasterSystem.Text

/-- What stands between the quotes of a string, escapes and all. -/
abbrev Literal := List Char

/-- A JSON value as it is written. -/
inductive Document where
  | null
  | bool (b : Bool)
  | number (literal : Literal)
  | string (literal : Literal)
  | array (items : List Document)
  | object (fields : List (Literal × Document))
deriving Inhabited

namespace Document

/-! ### Tokens -/

/-- The characters that may stand between tokens. -/
def isSpace (c : Char) : Bool := c == ' ' || c == '\n' || c == '\t' || c == '\r'

/-- Input after the space in front of it. -/
def skip (cs : List Char) : List Char := cs.dropWhile isSpace

/-- Input after a given character, which must come next. -/
def expect (c : Char) : List Char → Option (List Char)
  | d :: cs => if d = c then some cs else none
  | [] => none

/-- The number written by four hexadecimal digits. -/
def hex4? (a b c d : Char) : Option Nat := ([a, b, c, d].mapM hexDigit?).map (ofDigits 16)

/-- The literal of a string whose opening quote has been read, last character first, and the input
after it.  Control characters must be escaped, and an escape must be one of those that exist. -/
def literal : List Char → Literal → Option (Literal × List Char)
  | '"' :: cs, acc => some (acc.reverse, cs)
  | '\\' :: 'u' :: a :: b :: c :: d :: cs, acc =>
    if (hex4? a b c d).isSome then literal cs (d :: c :: b :: a :: 'u' :: '\\' :: acc) else none
  | '\\' :: c :: cs, acc =>
    if "\"\\/bfnrt".toList.contains c then literal cs (c :: '\\' :: acc) else none
  | c :: cs, acc => if c.toNat < 0x20 || c == '\\' then none else literal cs (c :: acc)
  | [], _ => none

/-- Whether a character is a decimal digit. -/
def isDigit (c : Char) : Bool := (digit? c).isSome

/-- The digits in front of the input, at least one, and the input after them. -/
def digits (cs : List Char) : Option (Literal × List Char) :=
  match cs.span isDigit with
  | ([], _) => none
  | (ds, rest) => some (ds, rest)

/-- The whole part of a number: a zero, or digits that do not start with one. -/
def wholePart : List Char → Option (Literal × List Char)
  | '0' :: cs =>
    match cs with
    | c :: _ => if isDigit c then none else some (['0'], cs)
    | [] => some (['0'], [])
  | cs => digits cs

/-- The fraction of a number, if there is one. -/
def fractionPart : List Char → Option (Literal × List Char)
  | '.' :: cs => (digits cs).map fun p => ('.' :: p.1, p.2)
  | cs => some ([], cs)

/-- The exponent of a number, if there is one. -/
def exponentPart : List Char → Option (Literal × List Char)
  | c :: cs =>
    if c == 'e' || c == 'E' then
      match cs with
      | '+' :: cs => (digits cs).map fun p => (c :: '+' :: p.1, p.2)
      | '-' :: cs => (digits cs).map fun p => (c :: '-' :: p.1, p.2)
      | cs => (digits cs).map fun p => (c :: p.1, p.2)
    else some ([], c :: cs)
  | [] => some ([], [])

/-- A number without its sign. -/
def unsigned (cs : List Char) : Option (Literal × List Char) := do
  let (whole, cs) ← wholePart cs
  let (fraction, cs) ← fractionPart cs
  let (exponent, cs) ← exponentPart cs
  return (whole ++ fraction ++ exponent, cs)

/-! ### Values -/

mutual

/-- A value in front of the input, and the input after it.  The number bounds how many values and
separators can follow each other. -/
def value : Nat → List Char → Option (Document × List Char)
  | 0, _ => none
  | n + 1, cs =>
    match skip cs with
    | 'n' :: 'u' :: 'l' :: 'l' :: cs => some (null, cs)
    | 't' :: 'r' :: 'u' :: 'e' :: cs => some (bool true, cs)
    | 'f' :: 'a' :: 'l' :: 's' :: 'e' :: cs => some (bool false, cs)
    | '"' :: cs => (literal cs []).map fun p => (string p.1, p.2)
    | '-' :: cs => (unsigned cs).map fun p => (number ('-' :: p.1), p.2)
    | '[' :: cs =>
      match skip cs with
      | ']' :: cs => some (array [], cs)
      | cs => (items n cs []).map fun p => (array p.1, p.2)
    | '{' :: cs =>
      match skip cs with
      | '}' :: cs => some (object [], cs)
      | cs => (members n cs []).map fun p => (object p.1, p.2)
    | cs => (unsigned cs).map fun p => (number p.1, p.2)

/-- The items of an array up to its closing bracket, the ones already read last first. -/
def items : Nat → List Char → List Document → Option (List Document × List Char)
  | 0, _, _ => none
  | n + 1, cs, acc =>
    match value n cs with
    | none => none
    | some (v, cs) =>
      match skip cs with
      | ',' :: cs => items n cs (v :: acc)
      | ']' :: cs => some ((v :: acc).reverse, cs)
      | _ => none

/-- The fields of an object up to its closing brace, the ones already read last first. -/
def members : Nat → List Char → List (Literal × Document) →
    Option (List (Literal × Document) × List Char)
  | 0, _, _ => none
  | n + 1, cs, acc =>
    match ((expect '"' (skip cs)).bind fun cs => literal cs []) with
    | none => none
    | some (key, cs) =>
      match (expect ':' (skip cs)).bind (value n) with
      | none => none
      | some (v, cs) =>
        match skip cs with
        | ',' :: cs => members n cs ((key, v) :: acc)
        | '}' :: cs => some (((key, v) :: acc).reverse, cs)
        | _ => none

end

/-- The value that a text writes, with nothing but space around it. -/
def parse? (s : String) : Option Document :=
  let cs := s.toList
  match value (cs.length + 1) cs with
  | some (v, rest) => if (skip rest).isEmpty then some v else none
  | none => none

/-! ### What literals denote -/

/-- The character that an escape with one letter stands for. -/
def escaped : Char → Char
  | 'b' => '\x08'
  | 'f' => '\x0c'
  | 'n' => '\n'
  | 'r' => '\r'
  | 't' => '\t'
  | c => c

/-- The characters of a literal; nothing if an escape stands for half of a surrogate pair. -/
def unescape : Literal → List Char → Option (List Char)
  | [], acc => some acc.reverse
  | '\\' :: 'u' :: a :: b :: c :: d :: cs, acc =>
    match hex4? a b c d with
    | none => none
    | some n =>
      if n < 0xD800 ∨ 0xE000 ≤ n then unescape cs (Char.ofNat n :: acc)
      else if 0xDC00 ≤ n then none
      else
        match cs with
        | '\\' :: 'u' :: a :: b :: c :: d :: cs =>
          match hex4? a b c d with
          | none => none
          | some m =>
            if 0xDC00 ≤ m ∧ m < 0xE000 then
              unescape cs (Char.ofNat (0x10000 + (n - 0xD800) * 0x400 + (m - 0xDC00)) :: acc)
            else none
        | _ => none
  | '\\' :: c :: cs, acc => unescape cs (escaped c :: acc)
  | c :: cs, acc => unescape cs (c :: acc)

/-- The text of a literal. -/
def text? (l : Literal) : Option String := (unescape l []).map String.ofList

/-- The natural number of a literal that is written with digits alone. -/
def natural? (l : Literal) : Option Nat := (l.mapM digit?).map (ofDigits 10)

end Document

end MasterSystem.Text
