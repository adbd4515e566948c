import MasterSystem.Text.Fields

/-! # Paths

A path is a list of steps, separated by slashes.  It starts at the working folder, or at the root
if it begins with a slash.  A step is a name, or one of two dots: a single dot stays where it is
and a double one goes up.

A `Place` is where steps lead.  What is above the working folder is not known by name, so places
there are counted in steps up. -/

namespace MasterSystem.Storage

/-- A folder or file, or where one could be. -/
structure Place where
  /-- Steps up from the working folder; none when the place is counted from the root. -/
  above : Option Nat
  /-- Names from there down, the last one first. -/
  names : List String
deriving DecidableEq, Repr, Inhabited

namespace Place

/-- The working folder. -/
def working : Place := ⟨some 0, []⟩

/-- The root, above which there is nothing. -/
def root : Place := ⟨none, []⟩

/-- The folder that a place is in.  The root is in itself. -/
def parent (p : Place) : Place :=
  match p.names with
  | [] => { p with above := p.above.map (· + 1) }
  | _ :: names => { p with names := names }

/-- The place of a name in a folder. -/
def child (p : Place) (name : String) : Place := { p with names := name :: p.names }

/-- Whether a place is a folder on the way from the working folder or the root to another. -/
def isOnWayTo (p q : Place) : Bool :=
  p.above = q.above && p.names.isSuffixOf q.names && p.names ≠ q.names

theorem parent_child (p : Place) (name : String) : (p.child name).parent = p := rfl

end Place

/-- A step of a path. -/
inductive Step where
  | stay
  | up
  | name (s : String)
deriving DecidableEq, Repr

/-- The reading of what is between two slashes. -/
def Step.ofString (s : String) : Step :=
  if s = "." then stay else if s = ".." then up else name s

/-- A path. -/
structure Path where
  start : Place
  steps : List Step
  /-- The path ends with a slash, so that it can only lead to a folder. -/
  slash : Bool
deriving DecidableEq, Repr

namespace Path

/-- The reading of a path.  Repeated slashes count as one. -/
def ofString (s : String) : Path :=
  let parts := Text.fields '/' s.toList
  { start := if parts.head? = some [] then .root else .working
    steps := (parts.filter (· ≠ [])).map fun cs => Step.ofString (String.ofList cs)
    slash := parts.getLast? = some [] }

/-- The place that a path leads to when every name on the way is that of a folder. -/
def place (p : Path) : Place :=
  p.steps.foldl (fun q s =>
    match s with
    | .stay => q
    | .up => q.parent
    | .name n => q.child n) p.start

end Path

end MasterSystem.Storage
