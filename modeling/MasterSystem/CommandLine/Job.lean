import MasterSystem.CommandLine.Arguments
import MasterSystem.Journal
import MasterSystem.Error
import MasterSystem.Settings
import MasterSystem.Storage.Basic

/-! # What a job asks for

The levels of the journal and the settings of the machine, out of the arguments and the settings
document that they name.  Both are settled before there is a machine. -/

namespace MasterSystem.CommandLine

/-- Why a job fails. -/
inductive Failure where
  | unknownLevel (level : String)
  | unknownCategory (category : String)
  /-- A category comes without a level. -/
  | noLevel (entry : String)
  /-- An image or a settings document cannot be read. -/
  | unreadable (path : String)
  | invalidSettings (path : String)
  /-- Another file cannot be read or written. -/
  | storage (x : Storage.Fault)
  | machine (x : Error)
deriving DecidableEq, Repr

/-- The wording of a failure. -/
def Failure.message : Failure → String
  | unknownLevel level => "unknown log level " ++ level
  | unknownCategory category => "unknown log category " ++ category
  | noLevel entry => "expected CATEGORY=LEVEL, got " ++ entry
  | unreadable path => "reading " ++ path
  | invalidSettings path => "parsing " ++ path
  | storage x => x.message
  | machine x => x.message

/-! ### The journal -/

/-- A level by name. -/
def level (s : String) : Except Failure Level :=
  match Level.parse? s with
  | some l => .ok l
  | none => .error (.unknownLevel s)

/-- The levels with one more entry, a category and its level with an equals sign between them. -/
def addLevel (t : Thresholds) (entry : String) : Except Failure Thresholds := do
  match Text.cutAt? '=' entry with
  | none => throw (.noLevel entry)
  | some (name, l) =>
    match Category.parse? name with
    | none => throw (.unknownCategory name)
    | some c => return t.set c (← level l)

/-- The levels of the journal. -/
def Job.thresholds (j : Job) : Except Failure Thresholds := do
  let common ← level j.level
  j.categoryLevels.foldlM addLevel { common := common }

/-! ### Settings -/

/-- The settings of a document, which is the contents of a file. -/
def settingsOf (path : String) (bytes : Array UInt8) : Except Failure Settings :=
  match String.fromUTF8? ⟨bytes⟩ with
  | none => .error (.unreadable path)
  | some text =>
    match Settings.parse? text with
    | none => .error (.invalidSettings path)
    | some s => .ok s

/-- Settings with the choices of the arguments.  A boot ROM is enabled by being named. -/
def Choices.adjust (c : Choices) (s : Settings) : Settings :=
  { s with
    overrides := { s.overrides with
      console := c.console.getD s.overrides.console
      zone := c.zone.getD s.overrides.zone
      board := c.board.getD s.overrides.board }
    fm := s.fm && !c.noFm
    bootRom := s.bootRom || c.bootRom.isSome }

end MasterSystem.CommandLine
