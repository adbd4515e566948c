import MasterSystem.Text.Named
import MasterSystem.Text.Blank
import MasterSystem.Text.Lines
import MasterSystem.Text.Numeral

/-! # The journal

What the parts of the machine have to say while it runs.  A part records a `Note`, a value
that names the event and its particulars; it does not decide whether anybody reads it.

* **Notes.**  Each note has a category (`Note.category`), a level (`Note.level`) and a
  text (`Note.text`).
* **Thresholds.**  `Thresholds` holds a global level and one per category.  A category whose
  own level is not `off` ignores the global one (`Thresholds.effective`), and a note is
  admitted when its level does not exceed the effective threshold (`Thresholds.admits`).
* **Breakdowns.**  A note that stops the machine (`Note.stops`) is the last one that counts: a host
  that finds it takes nothing that its parts do from then on.
* **Queues.**  `Notes` is the queue in which a part keeps its notes until its owner fetches
  them, so that notes of several parts can be put into one order. -/

namespace MasterSystem

/-- Verbosity; later levels are chattier. -/
inductive Level where
  | off
  | error
  | warn
  | info
  | debug
  | trace
deriving DecidableEq, Repr, Inhabited

/-- Which part of the machine a note comes from. -/
inductive Category where
  | cpu
  | bus
  | vdp
  | psg
  | fm
  | audio
  | interrupts
  | cartridge
  | stubs
deriving DecidableEq, Repr, Inhabited

instance : Text.Named Level where
  names := [(.off, "Off"), (.error, "Error"), (.warn, "Warn"), (.info, "Info"), (.debug, "Debug"),
    (.trace, "Trace")]

instance : Text.Named Category where
  names := [(.cpu, "CPU"), (.bus, "Bus"), (.vdp, "Vdp"), (.psg, "Psg"), (.fm, "Fm"),
    (.audio, "Audio"), (.interrupts, "Interrupts"), (.cartridge, "Cartridge"), (.stubs, "Stubs")]

namespace Level

/-- Position on the ladder of verbosity. -/
def rank : Level → Nat
  | off => 0
  | error => 1
  | warn => 2
  | info => 3
  | debug => 4
  | trace => 5

/-- The ladder, quietest first. -/
def ladder : List Level := [off, error, warn, info, debug, trace]

theorem rank_eq_idxOf (l : Level) : l.rank = ladder.idxOf l := by cases l <;> rfl

/-- A level written as a name, an abbreviation or its rank, in either case and with blanks
around it. -/
def parse? (s : String) : Option Level :=
  let s := (Text.trim s).toLower
  match Text.natural? s with
  | some n => ladder[n]?
  | none =>
    match s with
    | "off" | "none" => some off
    | "error" | "err" => some error
    | "warn" | "warning" => some warn
    | "info" => some info
    | "debug" => some debug
    | "trace" => some trace
    | _ => none

end Level

namespace Category

/-- All categories. -/
def all : List Category :=
  [cpu, bus, vdp, psg, fm, audio, interrupts, cartridge, stubs]

theorem mem_all (c : Category) : c ∈ all := by cases c <;> decide

/-- A category by one of its names, in either case and with blanks around it. -/
def parse? (s : String) : Option Category :=
  match (Text.trim s).toLower with
  | "cpu" | "z80" => some cpu
  | "bus" | "mem" | "memory" => some bus
  | "vdp" | "video" => some vdp
  | "psg" => some psg
  | "fm" | "ym2413" => some fm
  | "audio" | "sound" => some audio
  | "irq" | "interrupts" => some interrupts
  | "cart" | "cartridge" => some cartridge
  | "stubs" => some stubs
  | _ => none

end Category

/-- An event worth a line in the journal. -/
inductive Note where
  /-- The processor accepted a non-maskable interrupt. -/
  | nmi (pc : UInt16)
  /-- The processor accepted a maskable interrupt. -/
  | irq (mode : UInt8) (pc : UInt16)
  /-- The processor executed `HALT`. -/
  | halt (pc : UInt16)
  /-- An opcode ran that only aliases another instruction. -/
  | undocumented (lead opcode : UInt8) (pc : UInt16)
  /-- An opcode without meaning ran as a no-op. -/
  | unassigned (opcode : UInt8) (pc : UInt16)
  /-- A video register was written. -/
  | videoRegister (index value : UInt8) (line : Nat)
  /-- A video register write changed the number of active lines. -/
  | activeHeight (before after : Nat)
  /-- The line counter of the video processor ran out. -/
  | lineInterrupt (line : Nat)
  /-- No device answers a read from the port. -/
  | unmappedRead (port : UInt8)
  /-- No device takes a write to the port. -/
  | unmappedWrite (value port : UInt8)
  /-- The program switched the boot ROM off. -/
  | bootRomOff
  /-- A boot ROM was installed. -/
  | bootRom (size : Nat) (crc : UInt32)
  /-- The program switched the cartridge's own RAM on. -/
  | cartridgeRamOn
  /-- The program asked for a bank shift, which no known cartridge wires. -/
  | bankShift (amount : UInt8)
  /-- A copier's header was cut off an image. -/
  | copierHeader
  /-- A cartridge image was identified. -/
  | cartridge (crc : UInt32) (console zone mapper : String) (ram : Nat) (title : Option String)
  /-- A cheat code was accepted. -/
  | cheat (code meaning : String)
  /-- A register of the FM chip was written. -/
  | fmRegister (index value : UInt8)
  /-- The mix of the two sound chips was chosen. -/
  | soundMix (value : UInt8) (time : Nat)
  /-- The stereo register of the tone generator was written. -/
  | stereo (value : UInt8)
  /-- A step of the sound level came after the end of its buffer. -/
  | lateStep (time excess : Nat)
  /-- A sound buffer was too short for its frame. -/
  | droppedSamples (count : Nat)
  /-- The arithmetic of the light phaser left the 32 bits that it is done in. -/
  | overflow
deriving DecidableEq, Repr

namespace Note

/-- The part of the machine that a note belongs to. -/
def category : Note → Category
  | nmi .. | irq .. | lineInterrupt .. => .interrupts
  | halt .. => .cpu
  | undocumented .. | unassigned .. | bankShift .. => .stubs
  | videoRegister .. | activeHeight .. | overflow => .vdp
  | unmappedRead .. | unmappedWrite .. | bootRomOff | cartridgeRamOn | cheat .. => .bus
  | bootRom .. | copierHeader | cartridge .. => .cartridge
  | fmRegister .. | soundMix .. => .fm
  | stereo .. => .psg
  | lateStep .. | droppedSamples .. => .audio

/-- How important a note is. -/
def level : Note → Level
  | overflow => .error
  | unassigned .. | bankShift .. | lateStep .. | droppedSamples .. => .warn
  | bootRomOff | bootRom .. | copierHeader | cartridge .. | cheat .. => .info
  | undocumented .. | activeHeight .. | cartridgeRamOn | soundMix .. => .debug
  | nmi .. | irq .. | lineInterrupt .. | halt .. | videoRegister .. | unmappedRead ..
  | unmappedWrite .. | fmRegister .. | stereo .. => .trace

/-- The entry that a note makes in a log: a line, unless it quotes a text that has several. -/
def text : Note → String
  | nmi pc => "Z80: NMI at PC=" ++ Text.hex16 pc
  | irq mode pc => "Z80: IRQ (IM " ++ toString mode ++ ") at PC=" ++ Text.hex16 pc
  | halt pc => "Z80: HALT at PC=" ++ Text.hex16 pc
  | undocumented lead opcode pc =>
    "Z80: undocumented opcode " ++ Text.hex8 lead ++ " " ++ Text.hex8 opcode ++ " at " ++
      Text.hex16 pc
  | unassigned opcode pc =>
    "Z80: unassigned opcode ED " ++ Text.hex8 opcode ++ " at " ++ Text.hex16 pc ++
      ", executed as NOP"
  | videoRegister index value line =>
    "VDP: R" ++ toString index ++ " <- " ++ Text.hex8 value ++ " (line " ++ toString line ++ ")"
  | activeHeight before after =>
    "VDP: active height " ++ toString before ++ " -> " ++ toString after
  | lineInterrupt line => "VDP: line interrupt at line " ++ toString line
  | unmappedRead port => "Bus: read from unmapped port " ++ Text.hex8 port
  | unmappedWrite value port =>
    "Bus: write " ++ Text.hex8 value ++ " to unmapped port " ++ Text.hex8 port
  | bootRomOff => "Bus: boot ROM unmapped"
  | bootRom size crc => "BIOS: " ++ toString size ++ " bytes, CRC " ++ Text.hex32 crc
  | cartridgeRamOn => "Sega mapper: cartridge RAM enabled"
  | bankShift amount => "Sega mapper: bank shift " ++ toString amount ++ " ignored"
  | copierHeader => "Cartridge: stripping 512-byte copier header"
  | cartridge crc console zone mapper ram title =>
    "Cartridge: CRC " ++ Text.hex32 crc ++ ", " ++ console ++ " " ++ zone ++ ", mapper " ++
      mapper ++ ", RAM " ++ toString ram ++ " bytes" ++
      (match title with
        | some t => ", \"" ++ t ++ "\""
        | none => "")
  | cheat code meaning => "Cheat: " ++ code ++ " -> " ++ meaning
  | fmRegister index value => "FM: reg " ++ Text.hex8 index ++ " <- " ++ Text.hex8 value
  | soundMix value time =>
    "FM: mix control <- " ++ Text.hex8 value ++ " at cycle " ++ toString time
  | stereo value => "PSG: stereo register <- " ++ Text.hex8 value
  | lateStep time excess =>
    "Blip: delta at clock " ++ toString time ++ " is " ++ toString excess ++
      " samples past capacity"
  | droppedSamples count =>
    "Blip: buffer full, " ++ toString count ++ " sample(s) dropped"
  | overflow => "attempt to subtract with overflow"

/-- Whether the machine has broken down with the note. -/
def stops (n : Note) : Bool := n.level = .error

end Note

/-- Notes in order of occurrence. -/
abbrev Notes := Array Note

/-- The global level and the level of each category. -/
structure Thresholds where
  /-- Used by categories without a level of their own. -/
  common : Level := .off
  /-- The level of each category. -/
  own : Category → Level := fun _ => .off

namespace Thresholds

instance : Inhabited Thresholds := ⟨{}⟩

/-- The thresholds with one category's level replaced. -/
def set (t : Thresholds) (c : Category) (l : Level) : Thresholds :=
  { t with own := fun d => if d = c then l else t.own d }

theorem own_set_same (t : Thresholds) (c : Category) (l : Level) : (t.set c l).own c = l := by
  simp [set]

theorem own_set_ne (t : Thresholds) {c d : Category} (l : Level) (h : d ≠ c) :
    (t.set c l).own d = t.own d := by
  simp [set, h]

/-- A category level other than `off` replaces the common one. -/
def effective (t : Thresholds) (c : Category) : Level :=
  match t.own c with
  | .off => t.common
  | l => l

/-- Whether a message of the category and level is written.  Nothing is written at `off`. -/
def allows (t : Thresholds) (c : Category) (l : Level) : Bool :=
  l ≠ .off && l.rank ≤ (t.effective c).rank

/-- Whether a note is written. -/
def admits (t : Thresholds) (n : Note) : Bool := t.allows n.category n.level

/-- The entries that the notes make in a log. -/
def entries (t : Thresholds) (notes : Notes) : List String :=
  (notes.toList.filter t.admits).map Note.text

/-- The lines of a log.  An entry that quotes a text of several lines takes several. -/
def lines (t : Thresholds) (notes : Notes) : List String :=
  (t.entries notes).flatMap fun entry => Text.lines (entry ++ "\n")

/-! ### Budgets

A category that has much to say does not drown the others: a log takes a limited number of notes of
each category. -/

/-- Notes of each category that a log takes. -/
def budget : Nat := 60

/-- The notes without those for which their category has nothing left. -/
def withinBudget : (Category → Nat) → List Note → List Note
  | _, [] => []
  | left, n :: ns =>
    if left n.category = 0 then withinBudget left ns
    else n :: withinBudget (fun c => if c = n.category then left c - 1 else left c) ns

/-- The entries of a log that keeps to the budgets. -/
def entriesWithinBudget (t : Thresholds) (notes : Notes) : List String :=
  (withinBudget (fun _ => budget) (notes.toList.filter t.admits)).map Note.text

theorem withinBudget_sublist (left : Category → Nat) (ns : List Note) :
    (withinBudget left ns).Sublist ns := by
  induction ns generalizing left with
  | nil => exact .slnil
  | cons n ns ih =>
    simp only [withinBudget]
    split
    · exact (ih left).cons n
    · exact (ih _).cons_cons n

end Thresholds

end MasterSystem
