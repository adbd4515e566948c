import MasterSystem.Cartridge.Database
import MasterSystem.Cartridge.Header
import MasterSystem.Checksum
import MasterSystem.Error
import MasterSystem.Sound.Psg
import MasterSystem.Text.FileName
import MasterSystem.Text.Json

/-! # Cartridges

An image says little about the hardware of its cartridge.  `Info.resolve` finds out each property by
itself: what the host insists on (`Overrides`) comes first, then what the database records for the
image's checksum, then what the image and the name of its file suggest (`detectedConsole`,
`detectedZone`, `detectedBoard`). -/

namespace MasterSystem

/-- Properties that the host insists on; an unknown one is left open. -/
structure Overrides where
  console : Console := .unknown
  zone : Zone := .unknown
  board : Board := .unknown
  timing : Option Standard := none
deriving DecidableEq, Repr, Inhabited

/-- What is open in the first is taken from the second. -/
def Overrides.orElse (o base : Overrides) : Overrides where
  console := if o.console = .unknown then base.console else o.console
  zone := if o.zone = .unknown then base.zone else o.zone
  board := if o.board = .unknown then base.board else o.board
  timing := o.timing.or base.timing

/-- What is known about a cartridge. -/
structure Info where
  crc : UInt32
  console : Console
  zone : Zone
  board : Board
  /-- Bytes of RAM on the cartridge. -/
  ram : Nat
  /-- The RAM has a battery. -/
  battery : Bool
  title : Option String
  pal : Bool
  /-- The game plays the FM chip where there is one. -/
  fm : Bool
  noise : Sound.NoiseVariant
  /-- The image has a licence header. -/
  validHeader : Bool
deriving DecidableEq, Repr

/-- A cartridge: an image and what is known about it. -/
structure Cartridge where
  rom : Array UInt8
  info : Info
deriving DecidableEq, Repr

namespace Info

/-- The console that a file extension stands for. -/
def consoleOfExtension? (extension : String) : Option Console :=
  match extension.toLower with
  | "gg" => some .gameGear
  | "sg" | "sc" => some .sg1000
  | "sms" => some .master
  | _ => none

/-- The console that a region code stands for. -/
def consoleOfRegion? : Nat → Option Console
  | 3 | 4 => some .master
  | 5 | 6 | 7 => some .gameGear
  | _ => none

/-- The console suggested by the file's name, or else by the region code. -/
def detectedConsole (region : Option Nat) (path : Option String) : Console :=
  match (path.bind Text.fileExtension?).bind consoleOfExtension? with
  | some c => c
  | none => (region.bind consoleOfRegion?).getD .master

/-- The territory suggested by the region code; the SG-1000 was sold in Japan. -/
def detectedZone (region : Option Nat) (console : Console) : Zone :=
  match region with
  | some 3 | some 5 => .japanNtsc
  | some 4 | some 6 => .exportNtsc
  | some 7 => .internationalNtsc
  | _ => if console = .sg1000 then .japanNtsc else .unknown

/-- The largest image that needs no banks. -/
def unbankedSize : Nat := 0xC000

/-- The board suggested by the image. -/
def detectedBoard (rom : Array UInt8) (console : Console) : Board :=
  if console = .sg1000 then .sg1000
  else if Header.isCodemasters rom then .codemasters
  else if unbankedSize < rom.size then .sega
  else .romOnly

/-- Bytes of RAM that a board usually has. -/
def usualRam : Board → Nat
  | .sega => 0x8000
  | .codemasters => 0x2000
  | _ => 0

/-- What is known about the cartridge of an image with checksum `crc`. -/
def resolve (rom : Array UInt8) (crc : UInt32) (o : Overrides) (path : Option String) : Info :=
  let entry := Database.lookup? crc
  let region := Header.region? rom
  let console :=
    if o.console = .unknown then (entry.map (·.console)).getD (detectedConsole region path)
    else o.console
  let zone :=
    if o.zone = .unknown then (entry.map (·.zone)).getD (detectedZone region console) else o.zone
  let zone := match o.timing with
    | some t => zone.withTiming t
    | none => zone
  let board :=
    if o.board = .unknown then (entry.map (·.board)).getD (detectedBoard rom console) else o.board
  { crc := crc
    console := console
    zone := zone
    board := board
    ram := (entry.bind (·.ram)).getD (usualRam board)
    battery := (entry.map (·.battery)).getD false
    title := entry.map (·.title)
    pal := zone.isPal
    fm := (entry.map (·.fm)).getD false
    noise := if console = .sg1000 then .ti else .sega
    validHeader := region.isSome }

/-- The properties as a document. -/
def toJson (i : Info) : Text.Json :=
  .object [("crc32", .nat i.crc.toNat), ("system", .string (Text.name i.console)),
    ("zone", .string (Text.name i.zone)), ("mapper", .string (Text.name i.board)),
    ("ram_size", .nat i.ram), ("battery", .bool i.battery),
    ("title", match i.title with
      | some t => .string t
      | none => .null),
    ("pal", .bool i.pal), ("fm", .bool i.fm), ("noise", .string (Text.name i.noise)),
    ("valid_header", .bool i.validHeader)]

/-- The note that a cartridge was identified. -/
def note (i : Info) : Note :=
  .cartridge i.crc (Text.name i.console) (Text.name i.zone) (Text.name i.board) i.ram i.title

end Info

namespace Cartridge

/-- The smallest image. -/
def minSize : Nat := 0x2000

/-- The largest image that a board can address. -/
def maxSize : Nat := 0x400000

/-- Bytes that copiers put in front of an image. -/
def copierHeaderSize : Nat := 0x200

/-- Whether the size of an image shows a copier's header. -/
def hasCopierHeader (data : Array UInt8) : Bool :=
  data.size % 0x2000 == copierHeaderSize && copierHeaderSize < data.size

/-- An image without its copier's header. -/
def strip (data : Array UInt8) : Array UInt8 :=
  if hasCopierHeader data then data.extract copierHeaderSize data.size else data

/-- The cartridge of an image. -/
def load (data : Array UInt8) (o : Overrides) (path : Option String) : Except Error Cartridge :=
  let image := strip data
  if image.size < minSize then .error (.romTooSmall image.size)
  else if maxSize < image.size then .error (.unsupportedMapper image.size)
  else
    let info := Info.resolve image (Checksum.crc32 image) o path
    if info.board = .unsupported then .error (.unsupportedMapper image.size)
    else .ok ⟨image, info⟩

/-- The notes about loading an image with a result. -/
def loadNotes (data : Array UInt8) (result : Except Error Cartridge) : Notes :=
  let notes := if hasCopierHeader data then #[Note.copierHeader] else #[]
  match result with
  | .ok c => notes.push c.info.note
  | .error _ => notes

end Cartridge

end MasterSystem
