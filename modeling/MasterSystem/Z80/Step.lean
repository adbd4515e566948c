import MasterSystem.Z80.Execute

/-! # Steps

One step of the processor: an interrupt that waits, else one instruction, else four T-states of
`HALT`.  A non-maskable interrupt comes first.  A maskable one is accepted while the line is
active, `iff1` is set and the instruction before was not `EI`. -/

namespace MasterSystem.Z80

variable {β : Type} [Bus β]

namespace Processor

/-- Accept the non-maskable interrupt.  `iff2` keeps what `iff1` was. -/
def acceptNMI (z : Processor β) : Timed β :=
  let z := z.note (.nmi z.regs.pc)
  let z := z.mapRegs fun s => { s.refresh with halted := false, iff1 := false }
  ((z.push z.regs.pc).jumpTo 0x0066, 11)

/-- Accept the maskable interrupt in the mode chosen: run the byte on the data lines as an
opcode, call address `38`, or call through the table at `i`. -/
def acceptIRQ (z : Processor β) : Outcome β :=
  let z := z.note (.irq z.regs.im z.regs.pc)
  let z := z.mapRegs fun s => { s.refresh with halted := false, iff1 := false, iff2 := false }
  let (data, z) := z.acknowledge
  if z.regs.im == 0 then Outcome.plus (execute data z) 2
  else if z.regs.im == 1 then ((z.push z.regs.pc).jumpTo 0x0038, .ok 13)
  else
    let z := z.push z.regs.pc
    (z.jumpTo (z.peekWord (Word.ofBytes z.regs.i data)), .ok 19)

/-- Run the instruction at the program counter, which returns there on a fault. -/
def runInstruction (z : Processor β) : Outcome β :=
  let start := z.regs.pc
  let (op, z) := z.fetch
  let (z, result) := execute op z
  match result with
  | .ok n => (z, .ok n)
  | .error e => (z.mapRegs fun s => { s with pc := start }, .error e)

/-- Whether a maskable interrupt would be accepted now. -/
def acceptsIRQ (r : Registers) : Bool := r.irqLine && r.iff1 && !r.eiPending

/-- What a step does, before its T-states are added to the clock. -/
def stepUnclocked (z : Processor β) : Outcome β :=
  if z.regs.nmiPending then
    (acceptNMI (z.mapRegs fun s => { s with nmiPending := false })).done
  else if acceptsIRQ z.regs then z.acceptIRQ
  else
    let z := z.mapRegs fun s => { s with eiPending := false }
    if z.regs.halted then (z.mapRegs (·.refresh), .ok 4) else z.runInstruction

/-- One step.  The clock advances by the T-states of a step that succeeds. -/
def step (z : Processor β) : Outcome β :=
  let (z, result) := z.stepUnclocked
  match result with
  | .ok n => (z.mapRegs fun s => { s with cycles := s.cycles + UInt64.ofNat n }, .ok n)
  | .error e => (z, .error e)

end Processor

end MasterSystem.Z80
