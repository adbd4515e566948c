/-! # Storage

Files as a program sees them: named by paths, read, written and appended to.  Where they are kept
is left open; `Storage m` says that the actions of the monad `m` can reach some.  An access that
fails does so for one of a few causes (`Fault`). -/

namespace MasterSystem

/-- Why a file cannot be reached. -/
inductive Storage.Fault where
  /-- There is no such file, or no such folder on the way to it. -/
  | missing
  /-- A step of the path goes through a file. -/
  | notFolder
  /-- The path leads to a folder. -/
  | isFolder
  | nameTooLong
  | other (reason : String)
deriving DecidableEq, Repr

namespace Storage.Fault

/-- The wording of a fault. -/
def message : Fault → String
  | missing => "No such file or directory (os error 2)"
  | notFolder => "Not a directory (os error 20)"
  | isFolder => "Is a directory (os error 21)"
  | nameTooLong => "File name too long (os error 36)"
  | other reason => reason

end Storage.Fault

/-- Files that can be reached from a monad. -/
class Storage (m : Type → Type) where
  /-- The contents of a file. -/
  read : String → m (Except Storage.Fault (Array UInt8))
  /-- Make a file with some contents, in place of one that is there. -/
  write : String → Array UInt8 → m (Except Storage.Fault Unit)
  /-- Add contents to a file, which is made if it is not there. -/
  append : String → Array UInt8 → m (Except Storage.Fault Unit)

end MasterSystem
