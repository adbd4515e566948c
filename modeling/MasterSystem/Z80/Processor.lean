import MasterSystem.Journal
import MasterSystem.Z80.Instruction

/-! # The processor and what it is wired to

A `Processor` is a register file, a bus and a record of the odd opcodes that it has met.  The
bus is any type with the operations of `Bus`: memory, ports, and the byte that a device puts
on the data lines when an interrupt is accepted.

Reading memory changes nothing on any bus; reading a port may. -/

namespace MasterSystem.Z80

/-- What the processor can do to the outside world. -/
class Bus (β : Type) where
  /-- The byte at an address. -/
  read : β → UInt16 → UInt8
  /-- Store a byte at an address. -/
  write : β → UInt16 → UInt8 → β
  /-- Read a port.  The whole word is on the address lines; most devices look at its low
  byte. -/
  input : β → UInt16 → UInt8 × β
  /-- Write a port. -/
  output : β → UInt16 → UInt8 → β
  /-- The byte on the data lines while an interrupt is acknowledged. -/
  vector : β → UInt8 × β

/-- A count of opcodes that only alias another instruction or mean nothing. -/
structure Audit where
  undocumented : Nat := 0
  unassigned : Nat := 0
  /-- Lead byte, opcode and address of the last one. -/
  last : Option (UInt8 × UInt8 × UInt16) := none
deriving DecidableEq, Repr, Inhabited

/-- Why a step failed: an opcode without meaning, under strict decoding. -/
structure Fault where
  lead : UInt8
  opcode : UInt8
  pc : UInt16
deriving DecidableEq, Repr

/-- The wording of a fault. -/
def Fault.message (x : Fault) : String :=
  "unimplemented opcode " ++ Text.hex8 x.lead ++ " " ++ Text.hex8 x.opcode ++ " at " ++
    Text.hex16 x.pc

/-- A Z80 wired to a bus. -/
structure Processor (β : Type) where
  regs : Registers := {}
  /-- Opcodes without meaning are faults instead of no-ops. -/
  strict : Bool := false
  audit : Audit := {}
  notes : Notes := #[]
  bus : β

namespace Processor

variable {β : Type}

/-- The processor with its registers as after a reset. -/
def reset (z : Processor β) : Processor β := { z with regs := Registers.afterReset }

/-- A falling edge on the non-maskable interrupt line, remembered until the next step. -/
def requestNMI (z : Processor β) : Processor β :=
  { z with regs := { z.regs with nmiPending := true } }

/-- The level of the maskable interrupt line. -/
@[inline] def setIrqLine (z : Processor β) (level : Bool) : Processor β :=
  { z with regs := { z.regs with irqLine := level } }

/-- The processor with a register file computed from the old one. -/
@[inline] def mapRegs (z : Processor β) (g : Registers → Registers) : Processor β :=
  { z with regs := g z.regs }

/-- Record a note. -/
def note (z : Processor β) (n : Note) : Processor β := { z with notes := z.notes.push n }

/-- Count an opcode that only aliases another instruction. -/
def flagUndocumented (z : Processor β) (lead opcode : UInt8) (pc : UInt16) : Processor β :=
  { z with
    audit := {
      z.audit with
      undocumented := z.audit.undocumented + 1, last := some (lead, opcode, pc) }
    notes := z.notes.push (.undocumented lead opcode pc) }

/-- Count an opcode without meaning. -/
def flagUnassigned (z : Processor β) (opcode : UInt8) (pc : UInt16) : Processor β :=
  { z with
    audit := {
      z.audit with
      unassigned := z.audit.unassigned + 1, last := some (0xED, opcode, pc) }
    notes := z.notes.push (.unassigned opcode pc) }

/-! ### Registers by name -/

/-- The value of a byte register, `H` and `L` being halves of the index register. -/
@[inline] def byte (z : Processor β) (r : Reg8) (x : Index) : UInt8 :=
  match r with
  | .b => Word.high z.regs.bc
  | .c => Word.low z.regs.bc
  | .d => Word.high z.regs.de
  | .e => Word.low z.regs.de
  | .h => Word.high (z.regs.index x)
  | .l => Word.low (z.regs.index x)
  | .a => z.regs.a

/-- Replace a byte register. -/
@[inline] def setByte (z : Processor β) (r : Reg8) (x : Index) (v : UInt8) : Processor β :=
  z.mapRegs fun s =>
    match r with
    | .b => { s with bc := Word.withHigh s.bc v }
    | .c => { s with bc := Word.withLow s.bc v }
    | .d => { s with de := Word.withHigh s.de v }
    | .e => { s with de := Word.withLow s.de v }
    | .h => s.setIndex x (Word.withHigh (s.index x) v)
    | .l => s.setIndex x (Word.withLow (s.index x) v)
    | .a => { s with a := v }

/-- The value of a register pair. -/
@[inline] def pair (z : Processor β) (p : Pair) (x : Index) : UInt16 :=
  match p with
  | .bc => z.regs.bc
  | .de => z.regs.de
  | .index => z.regs.index x
  | .sp => z.regs.sp

/-- Replace a register pair. -/
@[inline] def setPair (z : Processor β) (p : Pair) (x : Index) (w : UInt16) : Processor β :=
  z.mapRegs fun s =>
    match p with
    | .bc => { s with bc := w }
    | .de => { s with de := w }
    | .index => s.setIndex x w
    | .sp => { s with sp := w }

/-- The value of a stack pair. -/
@[inline] def stackPair (z : Processor β) (p : StackPair) (x : Index) : UInt16 :=
  match p with
  | .bc => z.regs.bc
  | .de => z.regs.de
  | .index => z.regs.index x
  | .af => z.regs.af

/-- Replace a stack pair. -/
@[inline] def setStackPair (z : Processor β) (p : StackPair) (x : Index) (w : UInt16) :
    Processor β :=
  z.mapRegs fun s =>
    match p with
    | .bc => { s with bc := w }
    | .de => { s with de := w }
    | .index => s.setIndex x w
    | .af => s.setAF w

/-- Replace the accumulator and the flags by a result. -/
@[inline] def setResult (z : Processor β) (r : Flagged UInt8) : Processor β :=
  z.mapRegs fun s => { s with a := r.value, f := r.flags }

/-- Replace the flags. -/
@[inline] def setFlags (z : Processor β) (f : UInt8) : Processor β :=
  z.mapRegs fun s => { s with f := f }

/-- Continue at an address, which the internal latch takes too. -/
@[inline] def jumpTo (z : Processor β) (pc : UInt16) : Processor β :=
  z.mapRegs fun s => { s with pc := pc, wz := pc }

/-- Replace the internal latch. -/
@[inline] def latch (z : Processor β) (wz : UInt16) : Processor β :=
  z.mapRegs fun s => { s with wz := wz }

/-! ### Memory -/

variable [Bus β]

/-- The byte at an address. -/
@[inline] def peek (z : Processor β) (address : UInt16) : UInt8 := Bus.read z.bus address

/-- The word at an address, low byte first; the address wraps. -/
@[inline] def peekWord (z : Processor β) (address : UInt16) : UInt16 :=
  Word.ofBytes (z.peek (address + 1)) (z.peek address)

/-- Store a byte. -/
@[inline] def poke (z : Processor β) (address : UInt16) (v : UInt8) : Processor β :=
  { z with bus := Bus.write z.bus address v }

/-- Store a word, low byte first. -/
def pokeWord (z : Processor β) (address w : UInt16) : Processor β :=
  (z.poke address (Word.low w)).poke (address + 1) (Word.high w)

/-- The byte at the program counter, which moves past it. -/
@[inline] def nextByte (z : Processor β) : UInt8 × Processor β :=
  (z.peek z.regs.pc, z.mapRegs fun s => { s with pc := s.pc + 1 })

/-- The word at the program counter, which moves past it. -/
@[inline] def nextWord (z : Processor β) : UInt16 × Processor β :=
  (z.peekWord z.regs.pc, z.mapRegs fun s => { s with pc := s.pc + 2 })

/-- An opcode fetch: the next byte, counted by the refresh counter. -/
@[inline] def fetch (z : Processor β) : UInt8 × Processor β :=
  (z.peek z.regs.pc, z.mapRegs fun s => { s.refresh with pc := s.pc + 1 })

/-- Put a word on the stack, high byte first. -/
def push (z : Processor β) (w : UInt16) : Processor β :=
  let sp := z.regs.sp
  ((z.poke (sp - 1) (Word.high w)).poke (sp - 2) (Word.low w)).mapRegs
    fun s => { s with sp := s.sp - 2 }

/-- The word on top of the stack, which loses it. -/
def popWord (z : Processor β) : UInt16 × Processor β :=
  (z.peekWord z.regs.sp, z.mapRegs fun s => { s with sp := s.sp + 2 })

/-- Write a port. -/
@[inline] def output (z : Processor β) (port : UInt16) (v : UInt8) : Processor β :=
  { z with bus := Bus.output z.bus port v }

/-- Read a port. -/
@[inline] def input (z : Processor β) (port : UInt16) : UInt8 × Processor β :=
  match z with
  | ⟨regs, strict, audit, notes, bus⟩ =>
    let (v, bus) := Bus.input bus port
    (v, ⟨regs, strict, audit, notes, bus⟩)

/-- Acknowledge an interrupt: the byte on the data lines. -/
@[inline] def acknowledge (z : Processor β) : UInt8 × Processor β :=
  match z with
  | ⟨regs, strict, audit, notes, bus⟩ =>
    let (v, bus) := Bus.vector bus
    (v, ⟨regs, strict, audit, notes, bus⟩)

end Processor

end MasterSystem.Z80
