import MasterSystem.Text.Fields

/-! # Lines

A text as the lines that it is made of.  A line feed ends a line; it is not part of the line, and
neither is a carriage return before it. -/

namespace MasterSystem.Text

/-- A line without a carriage return at its end. -/
def dropReturn (cs : List Char) : List Char :=
  if cs.getLast? = some '\r' then cs.dropLast else cs

/-- The lines of a text.  What follows the last line feed is a line unless it is empty. -/
def lines (s : String) : List String :=
  let parts := fields '\n' s.toList
  let ended := parts.dropLast.map dropReturn
  let rest := parts.getLast?.toList.filter (· ≠ [])
  (ended ++ rest).map String.ofList

/-- The text of some lines, each of which is ended by a line feed. -/
def unlines (ls : List String) : String := String.join (ls.map (· ++ "\n"))

end MasterSystem.Text
