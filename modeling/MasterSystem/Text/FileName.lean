import MasterSystem.Text.Fields

/-! # File names

The extension of the file that a path names, which hints at what is in the file. -/

namespace MasterSystem.Text

/-- The last step of a path.  Doubled slashes and steps that stay where they are do not count; a
path that ends by going up names no file. -/
def fileName? (path : List Char) : Option (List Char) :=
  match ((fields '/' path).filter fun f => f ≠ [] && f ≠ ['.']).getLast? with
  | none => none
  | some f => if f = ['.', '.'] then none else some f

/-- What follows the last dot of a path's file name.  A name whose only dot is its first character
has no extension. -/
def fileExtension? (path : String) : Option String :=
  match fileName? path.toList with
  | none => none
  | some name =>
    match fields '.' name with
    | [_] | [[], _] => none
    | parts => parts.getLast?.map String.ofList

end MasterSystem.Text
