import MasterSystem.Z80.Processor

/-! # A test bench for the processor

A bus of 64 KB of memory, ports that answer by a script, and a record of what happened on the
lines.  `Memory` alone is a bus too: its ports are unconnected, so reads give `FF`. -/

namespace MasterSystem.Z80

/-- A plain memory of 64 KB. -/
abbrev Memory := Vector UInt8 65536

namespace Memory

/-- All bytes zero. -/
def blank : Memory := Vector.replicate 65536 0

/-- The byte at an address. -/
@[inline] def byteAt (m : Memory) (address : UInt16) : UInt8 :=
  have : address.toNat < 65536 := address.toNat_lt
  m[address.toNat]

/-- The memory with one byte replaced. -/
@[inline] def store (m : Memory) (address : UInt16) (v : UInt8) : Memory :=
  m.set address.toNat v address.toNat_lt

/-- The memory with a run of bytes replaced; the address wraps. -/
def storeAll (m : Memory) (address : UInt16) : List UInt8 → Memory
  | [] => m
  | v :: vs => storeAll (m.store address v) (address + 1) vs

theorem byteAt_store_same (m : Memory) (address : UInt16) (v : UInt8) :
    (m.store address v).byteAt address = v := by
  simp [byteAt, store]

theorem byteAt_store_ne (m : Memory) {address other : UInt16} (v : UInt8)
    (h : other ≠ address) : (m.store address v).byteAt other = m.byteAt other := by
  have h' : address.toNat ≠ other.toNat := fun e => h (UInt16.toNat_inj.1 e).symm
  simp [byteAt, store, h']

end Memory

instance : Bus Memory where
  read := Memory.byteAt
  write := Memory.store
  input m _ := (0xFF, m)
  output m _ _ := m
  vector m := (0xFF, m)

/-- Something that happened on the lines of the bench. -/
inductive BusEvent where
  | write (address : UInt16) (v : UInt8)
  | input (port : UInt16) (v : UInt8)
  | output (port : UInt16) (v : UInt8)
  | vector (v : UInt8)
deriving DecidableEq, Repr

/-- Memory, scripted ports and a record. -/
structure Bench where
  memory : Memory := Memory.blank
  /-- Ports and the interrupt vector are connected. -/
  connected : Bool := true
  /-- Answers by the low byte of the port. -/
  answers : UInt8 → Option UInt8 := fun _ => none
  /-- Other ports answer with both bytes of the port and this one, exclusively ored.  Without it
  they are unconnected. -/
  scramble : Option UInt8 := none
  /-- The byte on the data lines when an interrupt is acknowledged. -/
  floating : UInt8 := 0xFF
  /-- What happened, in order. -/
  events : Array BusEvent := #[]

namespace Bench

/-- What a port answers. -/
def answer (m : Bench) (port : UInt16) : UInt8 :=
  match m.answers (Word.low port), m.scramble with
  | some v, _ => v
  | none, some v => Word.high port ^^^ Word.low port ^^^ v
  | none, none => 0xFF

/-- The bench with an event recorded. -/
def record (m : Bench) (e : BusEvent) : Bench := { m with events := m.events.push e }

end Bench

instance : Bus Bench where
  read m address := m.memory.byteAt address
  write m address v :=
    { m with memory := m.memory.store address v, events := m.events.push (.write address v) }
  input m port :=
    if m.connected then
      let v := m.answer port
      (v, m.record (.input port v))
    else (0xFF, m)
  output m port v := if m.connected then m.record (.output port v) else m
  vector m :=
    if m.connected then (m.floating, m.record (.vector m.floating)) else (0xFF, m)

end MasterSystem.Z80
