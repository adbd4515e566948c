import MasterSystem.CommandLine.Session

/-! # The program

The command line of the machine.  Everything that a session does is decided by `session`; here its
files are those of the system, and its texts are printed. -/

namespace MasterSystem.CommandLine

/-- The number of an error of the system.  Some accesses give it with its sign changed. -/
def errorNumber (code : UInt32) : UInt32 := min code (0 - code)

/-- The fault behind an error of the system. -/
def faultOf : IO.Error → Storage.Fault
  | .noFileOrDirectory .. => .missing
  | .inappropriateType _ code _ => if errorNumber code = 20 then .notFolder else .isFolder
  | x@(.invalidArgument _ code _) =>
    if errorNumber code = 36 then .nameTooLong else .other (toString x)
  | x => .other (toString x)

/-- The result of an access to a file. -/
def attempt {α : Type} (act : IO α) : IO (Except Storage.Fault α) := do
  try
    return .ok (← act)
  catch x => return .error (faultOf x)

instance : Storage IO where
  read path := attempt do return (← IO.FS.readBinFile path).data
  write path bytes := attempt (IO.FS.writeBinFile path ⟨bytes⟩)
  append path bytes := attempt (IO.FS.withFile path .append fun h => h.write ⟨bytes⟩)

end MasterSystem.CommandLine

/-- Run a session. -/
def main (args : List String) : IO UInt32 := do
  let out ← MasterSystem.CommandLine.session args
  IO.print out.stdout
  (← IO.getStderr).putStr out.stderr
  return out.status
