import MasterSystem.Cartridge.Kinds
import MasterSystem.Text.Fields
import MasterSystem.Text.Numeral

/-! # Command line arguments

The grammar of the arguments.  One argument names the image of the cartridge; all others are
options, in any order.

* **Words.**  An argument that starts with two dashes is an option, and the value of the option may
  follow an equals sign.  Otherwise the value is the next argument, which must not look like an
  option itself.  After an argument of two dashes alone, no argument is an option.
* **Values.**  The names of consoles, zones and boards are those of the settings documents.  A
  path is not empty, and a number fits into 32 bits.
* **Repetition.**  Cheats and levels of journal categories may be given many times, everything else
  once. -/

namespace MasterSystem.CommandLine

/-! ### Words -/

/-- How an argument reads by itself. -/
inductive Word where
  /-- A path, or the value of the option before it. -/
  | plain (s : String)
  /-- An option, perhaps with a value. -/
  | long (name : String) (value : Option String)
  /-- An option of one letter. -/
  | short (letter : Char)
  /-- The end of the options. -/
  | stop
deriving DecidableEq, Repr

/-- The reading of an argument.  A dash alone is not an option. -/
def Word.ofArgument (s : String) : Word :=
  match s.toList with
  | ['-', '-'] => .stop
  | '-' :: '-' :: cs =>
    match Text.cutAt? '=' (String.ofList cs) with
    | some (name, value) => .long name (some value)
    | none => .long (String.ofList cs) none
  | '-' :: c :: _ => .short c
  | _ => .plain s

/-! ### Options -/

/-- The options. -/
inductive Choice where
  | help
  | frames
  | config
  | console
  | zone
  | board
  | noFm
  | bootRom
  | cheat
  | stateIn
  | stateOut
  | ramIn
  | ramOut
  | picture
  | every
  | level
  | categoryLevel
  | journalFile
deriving DecidableEq, Repr

instance : Text.Named Choice where
  names := [(.help, "help"), (.frames, "frames"), (.config, "config"), (.console, "system"),
    (.zone, "zone"), (.board, "mapper"), (.noFm, "no-fm"), (.bootRom, "bios"), (.cheat, "cheat"),
    (.stateIn, "load-state"), (.stateOut, "state-out"), (.ramIn, "ram-in"), (.ramOut, "ram-out"),
    (.picture, "dump-frame"), (.every, "every"), (.level, "log-level"), (.categoryLevel, "log"),
    (.journalFile, "log-file")]

namespace Choice

/-- Whether the option has a value. -/
def takesValue : Choice → Bool
  | help | noFm => false
  | _ => true

/-- Whether the option may be given more than once. -/
def isRepeatable : Choice → Bool
  | cheat | categoryLevel => true
  | _ => false

/-- The option as it is written. -/
def written (c : Choice) : String := "--" ++ Text.name c

end Choice

/-- What the options choose. -/
structure Choices where
  /-- Frames to run. -/
  frames : Nat := 60
  /-- A settings document. -/
  config : Option String := none
  console : Option Console := none
  zone : Option Zone := none
  board : Option Board := none
  /-- The FM chip is left out. -/
  noFm : Bool := false
  bootRom : Option String := none
  cheats : List String := []
  stateIn : Option String := none
  stateOut : Option String := none
  ramIn : Option String := none
  ramOut : Option String := none
  /-- Where the last picture goes. -/
  picture : Option String := none
  /-- Frames between two reports, or zero for a single report at the end. -/
  every : Nat := 0
  /-- The level of the journal. -/
  level : String := "off"
  /-- Categories with their levels. -/
  categoryLevels : List String := []
  journalFile : Option String := none
deriving DecidableEq, Repr, Inhabited

/-- A cartridge to run, and how. -/
structure Job extends Choices where
  /-- The path of the image. -/
  rom : String
deriving DecidableEq, Repr

/-- What the arguments ask for. -/
inductive Command where
  | help
  | run (job : Job)
deriving DecidableEq, Repr

/-! ### Values -/

/-- A number below `2 ^ 32`.  A sign is allowed. -/
def count? (s : String) : Option Nat :=
  let (negative, cs) := match s.toList with
    | '-' :: cs => (true, cs)
    | '+' :: cs => (false, cs)
    | cs => (false, cs)
  if cs.isEmpty then none
  else
    ((cs.mapM Text.digit?).map (Text.ofDigits 10)).filter fun n =>
      n < 0x100000000 && (n = 0 || !negative)

/-- A path. -/
def path? (s : String) : Option String := if s.isEmpty then none else some s

namespace Choices

/-- The choices with one more; nothing if the value is none for the option. -/
def set? (c : Choices) (value : String) : Choice → Option Choices
  | .help => none
  | .noFm => some { c with noFm := true }
  | .frames => (count? value).map fun n => { c with frames := n }
  | .every => (count? value).map fun n => { c with every := n }
  | .console => (Text.ofName? value).map fun x => { c with console := some x }
  | .zone => (Text.ofName? value).map fun x => { c with zone := some x }
  | .board => (Text.ofName? value).map fun x => { c with board := some x }
  | .config => (path? value).map fun p => { c with config := some p }
  | .bootRom => (path? value).map fun p => { c with bootRom := some p }
  | .stateIn => (path? value).map fun p => { c with stateIn := some p }
  | .stateOut => (path? value).map fun p => { c with stateOut := some p }
  | .ramIn => (path? value).map fun p => { c with ramIn := some p }
  | .ramOut => (path? value).map fun p => { c with ramOut := some p }
  | .picture => (path? value).map fun p => { c with picture := some p }
  | .journalFile => (path? value).map fun p => { c with journalFile := some p }
  | .cheat => some { c with cheats := c.cheats ++ [value] }
  | .level => some { c with level := value }
  | .categoryLevel => some { c with categoryLevels := c.categoryLevels ++ [value] }

end Choices

/-! ### Reading -/

/-- Why arguments are refused. -/
inductive Misuse where
  | unknownOption (name : String)
  | missingValue (c : Choice)
  /-- An option without a value got one. -/
  | needlessValue (c : Choice)
  | invalidValue (c : Choice) (value : String)
  | repeated (c : Choice)
  /-- There is more than one image, or one with an empty path. -/
  | unexpected (argument : String)
  | missingImage
deriving DecidableEq, Repr

/-- The wording of a misuse. -/
def Misuse.message : Misuse → String
  | unknownOption name => "unexpected argument " ++ name
  | missingValue c => "a value is required for " ++ c.written
  | needlessValue c => "no value is expected for " ++ c.written
  | invalidValue c value => "invalid value " ++ value ++ " for " ++ c.written
  | repeated c => c.written ++ " cannot be used more than once"
  | unexpected argument => "unexpected argument " ++ argument
  | missingImage => "the image to run is required"

/-- What has been read of the arguments. -/
structure Reading where
  rom : Option String := none
  choices : Choices := {}
  seen : List Choice := []

namespace Reading

/-- Read the path of the image. -/
def takeImage (r : Reading) (s : String) : Except Misuse Reading :=
  if r.rom.isSome || s.isEmpty then .error (.unexpected s) else .ok { r with rom := some s }

/-- Read an option with its value. -/
def take (r : Reading) (c : Choice) (value : String) : Except Misuse Reading :=
  match r.choices.set? value c with
  | none => .error (.invalidValue c value)
  | some choices =>
    if r.seen.contains c && !c.isRepeatable then .error (.repeated c)
    else .ok { r with choices := choices, seen := c :: r.seen }

/-- The command at the end of the arguments. -/
def finish (r : Reading) : Except Misuse Command :=
  match r.rom with
  | some rom => .ok (.run { r.choices with rom := rom })
  | none => .error .missingImage

/-- Read the arguments from some point on. -/
def read : Reading → List String → Except Misuse Command
  | r, [] => r.finish
  | r, a :: rest =>
    match Word.ofArgument a with
    | .stop => (rest.foldlM takeImage r).bind finish
    | .plain s =>
      match r.takeImage s with
      | .ok r => r.read rest
      | .error x => .error x
    | .short letter =>
      if letter = 'h' then .ok .help else .error (.unknownOption (String.ofList ['-', letter]))
    | .long name value =>
      match Text.ofName? name, value with
      | none, _ => .error (.unknownOption ("--" ++ name))
      | some c, some value =>
        if !c.takesValue then .error (.needlessValue c)
        else
          match r.take c value with
          | .ok r => r.read rest
          | .error x => .error x
      | some .help, none => .ok .help
      | some c, none =>
        if !c.takesValue then
          match r.take c "" with
          | .ok r => r.read rest
          | .error x => .error x
        else
          match rest with
          | [] => .error (.missingValue c)
          | b :: rest =>
            match Word.ofArgument b with
            | .plain value =>
              match r.take c value with
              | .ok r => r.read rest
              | .error x => .error x
            | _ => .error (.missingValue c)

end Reading

/-- The command that the arguments give. -/
def Command.parse (args : List String) : Except Misuse Command := Reading.read {} args

end MasterSystem.CommandLine
