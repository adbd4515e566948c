import MasterSystem.Storage.Basic
import MasterSystem.Storage.Path

/-! # A tree of files

Storage as a value: the files that there are, each at its place.  A folder is there as soon as a
file is in it; the working folder, those above it and a few below the root always are.

* **Reading** a path walks its steps.  Every name on the way has to be that of a folder.
* **Writing** needs the folder that the file is to be in, and a path that does not ask for a folder.
* **The null device** is a file that is always empty and takes everything. -/

namespace MasterSystem.Storage

/-- Files with their places. -/
structure Tree where
  files : List (Place × Array UInt8) := []
deriving DecidableEq, Repr, Inhabited

/-- What is at a place. -/
inductive Entry where
  | folder
  | file (contents : Array UInt8)
deriving DecidableEq, Repr

/-- Folders below the root that every system has. -/
def standardFolders : List Place := [Place.root.child "dev", Place.root.child "tmp"]

/-- The null device. -/
def nullDevice : Place := (Place.root.child "dev").child "null"

/-- Bytes in the longest name. -/
def nameLimit : Nat := 255

/-- Bytes in the longest path. -/
def pathLimit : Nat := 4095

namespace Tree

/-! ### Contents -/

/-- Whether a place is a folder. -/
def isFolder (t : Tree) (p : Place) : Bool :=
  p.names.isEmpty || standardFolders.contains p || t.files.any fun f => p.isOnWayTo f.1

/-- The contents of the file at a place. -/
def contents? (t : Tree) (p : Place) : Option (Array UInt8) :=
  if p = nullDevice then some #[] else (t.files.find? (·.1 = p)).map (·.2)

/-- What is at a place. -/
def entry? (t : Tree) (p : Place) : Option Entry :=
  if t.isFolder p then some .folder else (t.contents? p).map .file

/-- The tree with a file put at a place. -/
def put (t : Tree) (p : Place) (bytes : Array UInt8) : Tree :=
  if p = nullDevice then t else { files := (p, bytes) :: t.files.filter (·.1 ≠ p) }

theorem contents?_put_same (t : Tree) {p : Place} (bytes : Array UInt8) (h : p ≠ nullDevice) :
    (t.put p bytes).contents? p = some bytes := by
  simp [put, contents?, h]

theorem contents?_put_ne (t : Tree) {p q : Place} (bytes : Array UInt8) (h : q ≠ p) :
    (t.put p bytes).contents? q = t.contents? q := by
  unfold put
  split
  · rfl
  · have same (f : Place × Array UInt8) :
        (!decide (f.1 = p) && decide (f.1 = q)) = decide (f.1 = q) := by
      by_cases hf : f.1 = q <;> simp [hf, h]
    simp [contents?, h.symm, List.find?_filter, same]

/-- The tree with the given files in the working folder, each by its path.  Of two files at one
place, the later one stays. -/
def ofList (files : List (String × Array UInt8)) : Tree :=
  files.foldl (fun t f => t.put (Path.ofString f.1).place f.2) {}

/-! ### Paths -/

/-- What a name stands for in a folder. -/
def lookUp (t : Tree) (folder : Place) (name : String) : Except Fault (Option Entry) :=
  if nameLimit < name.utf8ByteSize then .error .nameTooLong
  else .ok (t.entry? (folder.child name))

/-- The folder that steps lead to. -/
def walk (t : Tree) : Place → List Step → Except Fault Place
  | p, [] => .ok p
  | p, .stay :: steps => t.walk p steps
  | p, .up :: steps => t.walk p.parent steps
  | p, .name n :: steps =>
    match t.lookUp p n with
    | .error x => .error x
    | .ok none => .error .missing
    | .ok (some (.file _)) => .error .notFolder
    | .ok (some .folder) => t.walk (p.child n) steps

/-- The folder that holds what a path leads to, and its name there.  A path without a name at its
end leads to a folder. -/
def locate (t : Tree) (path : Path) : Except Fault (Place × String) :=
  match path.steps.getLast? with
  | none => .error .isFolder
  | some last =>
    match t.walk path.start path.steps.dropLast, last with
    | .error x, _ => .error x
    | .ok folder, .name n => .ok (folder, n)
    | .ok _, _ => .error .isFolder

/-- The reading of a path that is neither empty nor too long. -/
def path (s : String) : Except Fault Path :=
  if s.isEmpty then .error .missing
  else if pathLimit < s.utf8ByteSize then .error .nameTooLong
  else .ok (Path.ofString s)

/-! ### Access -/

/-- The contents of a file. -/
def read (t : Tree) (s : String) : Except Fault (Array UInt8) := do
  let path ← path s
  let (folder, name) ← t.locate path
  match ← t.lookUp folder name with
  | none => throw .missing
  | some .folder => throw .isFolder
  | some (.file bytes) => if path.slash then throw .notFolder else return bytes

/-- The place of a file that can be written. -/
def writable (t : Tree) (s : String) : Except Fault Place := do
  let path ← path s
  let (folder, name) ← t.locate path
  if path.slash then throw .isFolder
  match ← t.lookUp folder name with
  | some .folder => throw .isFolder
  | _ => return folder.child name

/-- The tree with a file written. -/
def write (t : Tree) (s : String) (bytes : Array UInt8) : Except Fault Tree :=
  (t.writable s).map fun p => t.put p bytes

/-- The tree with bytes added to a file. -/
def append (t : Tree) (s : String) (bytes : Array UInt8) : Except Fault Tree :=
  (t.writable s).map fun p => t.put p ((t.contents? p).getD #[] ++ bytes)

/-- The outcome of a change, and the tree after it: the same one if it failed. -/
def settle (t : Tree) : Except Fault Tree → Except Fault Unit × Tree
  | .ok t => (.ok (), t)
  | .error x => (.error x, t)

end Tree

instance : Storage (StateM Tree) where
  read s := fun t => (t.read s, t)
  write s bytes := fun t => t.settle (t.write s bytes)
  append s bytes := fun t => t.settle (t.append s bytes)

end MasterSystem.Storage
