import MasterSystem.Cartridge.Image
import MasterSystem.Text.Document
import MasterSystem.Video.Frame
import MasterSystem.Video.Vdp

/-! # Settings

What a host can choose about the machine, and its form as a JSON document.

In a document every field may be left out, and fields that are not known are ignored; a field that
is given twice or with a value of another type makes the document invalid.  Instead of an object
the document may be an array, which gives the fields in order and may stop early. -/

namespace MasterSystem

/-- The border drawn around the picture, on the television consoles. -/
inductive Overscan where
  | disabled
  /-- Above and below. -/
  | topBottom
  /-- All around, to 284 columns. -/
  | full284
  /-- All around, to 320 columns. -/
  | full320
deriving DecidableEq, Repr, Inhabited

/-- When the leftmost eight columns of the Master System's picture are blanked. -/
inductive LeftBar where
  | never
  /-- When the program masks them itself. -/
  | auto
  | always
deriving DecidableEq, Repr, Inhabited

instance : Text.Named Overscan where
  names := [(.disabled, "Disabled"), (.topBottom, "TopBottom"), (.full284, "Full284"),
    (.full320, "Full320")]

instance : Text.Named LeftBar where
  names := [(.never, "Never"), (.auto, "Auto"), (.always, "Always")]

namespace Overscan

/-- Columns of border on each side. -/
def side : Overscan → Nat
  | disabled | topBottom => 0
  | full284 => 14
  | full320 => 32

/-- Lines of the picture with its border, if there is one above and below. -/
def fullHeight : Overscan → Standard → Option Nat
  | disabled, _ => none
  | _, .ntsc => some 240
  | _, .pal => some 288

end Overscan

/-- The settings of a machine. -/
structure Settings where
  overrides : Overrides := {}
  overscan : Overscan := .disabled
  leftBar : LeftBar := .never
  /-- The FM chip is fitted where it was sold, and for games that use it. -/
  fm : Bool := true
  glasses : Video.Glasses := .both
  /-- Opposite directions may be held together. -/
  allowOpposites : Bool := false
  pixelFormat : Video.PixelFormat := .rgba8888
  /-- The boot ROM runs before the cartridge. -/
  bootRom : Bool := false
  sampleRate : Nat := 44100
  /-- Opcodes without meaning are faults. -/
  strict : Bool := false
deriving DecidableEq, Repr, Inhabited

/-! ### Reading documents -/

/-- A type whose values can be written in a settings document. -/
class Setting (α : Type) where
  /-- The value of a document. -/
  ofDocument? : Text.Document → Option α

open Text (Document)

namespace Setting

instance : Setting Bool where
  ofDocument?
    | .bool b => some b
    | _ => none

/-- Numbers have no fraction, no exponent and at most 32 bits. -/
instance : Setting Nat where
  ofDocument?
    | .number l => (Document.natural? l).filter (· < 0x100000000)
    | _ => none

/-- A name stands by itself or as the only field of an object, with a null. -/
instance {α : Type} [Text.Named α] : Setting α where
  ofDocument?
    | .string l => (Document.text? l).bind Text.ofName?
    | .object [(l, .null)] => (Document.text? l).bind Text.ofName?
    | _ => none

/-- A null is no value. -/
instance {α : Type} [Setting α] : Setting (Option α) where
  ofDocument?
    | .null => some none
    | d => (ofDocument? d).map some

/-- The fields of an object with their names; nothing if a name cannot be read. -/
def namedFields? (fields : List (Text.Literal × Document)) : Option (List (String × Document)) :=
  fields.mapM fun p => (Document.text? p.1).map fun name => (name, p.2)

/-- The documents of a record's fields, by name: from an object, where none of the known names
occurs twice, or from an array in the order of the names. -/
def record? (names : List String) : Document → Option (List (String × Document))
  | .object fields =>
    match namedFields? fields with
    | none => none
    | some fields =>
      let known := (fields.map (·.1)).filter names.contains
      if known.Nodup then some fields else none
  | .array items => if items.length ≤ names.length then some (names.zip items) else none
  | _ => none

/-- The value of a field, or what it is when it is left out. -/
def field? {α : Type} [Setting α] (fields : List (String × Document)) (name : String)
    (absent : α) : Option α :=
  match fields.lookup name with
  | some d => ofDocument? d
  | none => some absent

instance : Setting Overrides where
  ofDocument? d := do
    let fields ← record? ["system", "zone", "mapper", "timing"] d
    return {
      console := ← field? fields "system" .unknown
      zone := ← field? fields "zone" .unknown
      board := ← field? fields "mapper" .unknown
      timing := ← field? fields "timing" none }

instance : Setting Settings where
  ofDocument? d := do
    let usual : Settings := {}
    let fields ← record? ["forced", "overscan", "left_bar", "fm_enabled", "glasses",
      "allow_up_down", "pixel_format", "bios_enabled", "sample_rate", "strict_opcodes"] d
    return {
      overrides := ← field? fields "forced" usual.overrides
      overscan := ← field? fields "overscan" usual.overscan
      leftBar := ← field? fields "left_bar" usual.leftBar
      fm := ← field? fields "fm_enabled" usual.fm
      glasses := ← field? fields "glasses" usual.glasses
      allowOpposites := ← field? fields "allow_up_down" usual.allowOpposites
      pixelFormat := ← field? fields "pixel_format" usual.pixelFormat
      bootRom := ← field? fields "bios_enabled" usual.bootRom
      sampleRate := ← field? fields "sample_rate" usual.sampleRate
      strict := ← field? fields "strict_opcodes" usual.strict }

end Setting

namespace Settings

/-- The settings that a text writes. -/
def parse? (text : String) : Option Settings := (Document.parse? text).bind Setting.ofDocument?

/-! ### Writing documents -/

/-- The properties that the host insists on, as a document. -/
def overridesToJson (o : Overrides) : Text.Json :=
  .object [("system", .string (Text.name o.console)), ("zone", .string (Text.name o.zone)),
    ("mapper", .string (Text.name o.board)),
    ("timing", match o.timing with
      | some t => .string (Text.name t)
      | none => .null)]

/-- The settings as a document. -/
def toJson (s : Settings) : Text.Json :=
  .object [("forced", overridesToJson s.overrides), ("overscan", .string (Text.name s.overscan)),
    ("left_bar", .string (Text.name s.leftBar)), ("fm_enabled", .bool s.fm),
    ("glasses", .string (Text.name s.glasses)), ("allow_up_down", .bool s.allowOpposites),
    ("pixel_format", .string (Text.name s.pixelFormat)), ("bios_enabled", .bool s.bootRom),
    ("sample_rate", .nat s.sampleRate), ("strict_opcodes", .bool s.strict)]

end Settings

end MasterSystem
