import MasterSystem.Z80.Processor

/-! # Execution of instructions

What each instruction does to the processor, and how many T-states it takes.  `exec` runs an
instruction of the main page on `HL` or the index register in its place; `execBit`,
`execIndexedBit` and `execExtended` run the other pages; `execute` takes an opcode byte that has
already been fetched and finds its page.

Only the extended page can fail: under strict decoding an opcode without meaning is a `Fault`.
The processor is returned in either case, as far as the step got. -/

namespace MasterSystem.Z80

variable {β : Type} [Bus β]

/-- A processor after some T-states. -/
abbrev Timed (β : Type) := Processor β × Nat

/-- A processor after a step that took some T-states or failed. -/
abbrev Outcome (β : Type) := Processor β × Except Fault Nat

namespace Timed

/-- A step that succeeded. -/
@[inline] def done (t : Timed β) : Outcome β := (t.1, .ok t.2)

/-- Some T-states more. -/
@[inline] def plus (t : Timed β) (n : Nat) : Timed β := (t.1, t.2 + n)

end Timed

namespace Outcome

/-- Some T-states more, if there was no fault. -/
def plus (o : Outcome β) (n : Nat) : Outcome β := (o.1, o.2.map (· + n))

end Outcome

namespace Processor

/-! ### Addressing -/

/-- The address of the operand in memory.  With an index register the displacement is
fetched, and the internal latch keeps the sum. -/
def operandAddress (z : Processor β) (x : Index) : UInt16 × Processor β :=
  match x with
  | .hl => (z.regs.hl, z)
  | _ =>
    let (d, z) := z.nextByte
    let address := z.regs.index x + Word.displacement d
    (address, z.latch address)

/-- The value of an operand that is only read. -/
def operand (z : Processor β) (o : Operand) (x : Index) : UInt8 × Processor β :=
  match o with
  | .reg r => (z.byte r x, z)
  | .mem =>
    let (address, z) := z.operandAddress x
    (z.peek address, z)

/-- Replace an operand by what `g` makes of the flags and its value. -/
def update (z : Processor β) (o : Operand) (x : Index) (g : UInt8 → UInt8 → Flagged UInt8) :
    Processor β :=
  match o with
  | .reg r =>
    let result := g z.regs.f (z.byte r x)
    (z.setByte r x result.value).setFlags result.flags
  | .mem =>
    let (address, z) := z.operandAddress x
    let result := g z.regs.f (z.peek address)
    (z.setFlags result.flags).poke address result.value

/-- Jump by the displacement at the program counter. -/
def relativeJump (z : Processor β) : Processor β :=
  let (d, z) := z.nextByte
  z.jumpTo (z.regs.pc + Word.displacement d)

/-- Step over a byte. -/
def skipByte (z : Processor β) : Processor β := z.mapRegs fun s => { s with pc := s.pc + 1 }

/-- The word that the internal latch takes after the accumulator went to `address`. -/
def latchAfterStore (z : Processor β) (address : UInt16) : UInt16 :=
  Word.ofBytes z.regs.a (Word.low (address + 1))

/-- Store the accumulator. -/
def storeAccumulator (z : Processor β) (address : UInt16) : Processor β :=
  (z.poke address z.regs.a).latch (z.latchAfterStore address)

/-- Load the accumulator. -/
def loadAccumulator (z : Processor β) (address : UInt16) : Processor β :=
  let v := z.peek address
  z.mapRegs fun s => { s with a := v, wz := address + 1 }

/-! ### The main page -/

/-- Run an instruction of the main page. -/
def exec (i : Instruction) (x : Index) (z : Processor β) : Timed β :=
  let cost := i.cost x
  match i with
  | .nop => (z, cost)
  | .exchangeAF => (z.mapRegs (·.exchangeAF), cost)
  | .djnz =>
    let b := Word.high z.regs.bc - 1
    let z := z.setByte .b .hl b
    if b != 0 then (z.relativeJump, cost + jumpTaken) else (z.skipByte, cost)
  | .jr => (z.relativeJump, cost)
  | .jrIf condition =>
    if condition.holds z.regs.f then (z.relativeJump, cost + jumpTaken) else (z.skipByte, cost)
  | .loadPair p =>
    let (w, z) := z.nextWord
    (z.setPair p x w, cost)
  | .addPair p =>
    let target := z.regs.index x
    let sum := addWord z.regs.f target (z.pair p x)
    (z.mapRegs fun s =>
      { s.setIndex x sum.value with f := sum.flags, wz := target + 1 }, cost)
  | .storeViaBC => (z.storeAccumulator z.regs.bc, cost)
  | .storeViaDE => (z.storeAccumulator z.regs.de, cost)
  | .loadViaBC => (z.loadAccumulator z.regs.bc, cost)
  | .loadViaDE => (z.loadAccumulator z.regs.de, cost)
  | .storeIndexAt =>
    let (address, z) := z.nextWord
    ((z.pokeWord address (z.regs.index x)).latch (address + 1), cost)
  | .loadIndexAt =>
    let (address, z) := z.nextWord
    let w := z.peekWord address
    (z.mapRegs fun s => { s.setIndex x w with wz := address + 1 }, cost)
  | .storeAccumulatorAt =>
    let (address, z) := z.nextWord
    (z.storeAccumulator address, cost)
  | .loadAccumulatorAt =>
    let (address, z) := z.nextWord
    (z.loadAccumulator address, cost)
  | .incPair p => (z.setPair p x (z.pair p x + 1), cost)
  | .decPair p => (z.setPair p x (z.pair p x - 1), cost)
  | .inc o => (z.update o x increment, cost)
  | .dec o => (z.update o x decrement, cost)
  | .loadImmediate (.reg r) =>
    let (v, z) := z.nextByte
    (z.setByte r x v, cost)
  | .loadImmediate .mem =>
    let (address, z) := z.operandAddress x
    let (v, z) := z.nextByte
    (z.poke address v, cost)
  | .rotate s => (z.setResult (rotateAccumulator s z.regs.a z.regs.f), cost)
  | .daa => (z.setResult (decimalAdjust z.regs.a z.regs.f), cost)
  | .cpl => (z.setResult (complement z.regs.a z.regs.f), cost)
  | .scf => (z.setFlags (setCarry z.regs.a z.regs.f), cost)
  | .ccf => (z.setFlags (flipCarry z.regs.a z.regs.f), cost)
  | .halt =>
    ((z.note (.halt (z.regs.pc - 1))).mapRegs fun s => { s with halted := true }, cost)
  | .load .mem (.reg r) =>
    let (address, z) := z.operandAddress x
    (z.poke address (z.byte r .hl), cost)
  | .load (.reg r) .mem =>
    let (address, z) := z.operandAddress x
    (z.setByte r .hl (z.peek address), cost)
  | .load (.reg target) (.reg source) => (z.setByte target x (z.byte source x), cost)
  | .load .mem .mem => (z, cost)
  | .operate op o =>
    let (v, z) := z.operand o x
    (z.setResult (op.apply z.regs.a z.regs.f v), cost)
  | .retIf condition =>
    if condition.holds z.regs.f then
      let (pc, z) := z.popWord
      (z.jumpTo pc, cost + returnTaken)
    else (z, cost)
  | .pop p =>
    let (w, z) := z.popWord
    (z.setStackPair p x w, cost)
  | .ret =>
    let (pc, z) := z.popWord
    (z.jumpTo pc, cost)
  | .exchangePairs => (z.mapRegs (·.exchangePairs), cost)
  | .jumpIndex => (z.mapRegs fun s => { s with pc := s.index x }, cost)
  | .loadStackPointer => (z.mapRegs fun s => { s with sp := s.index x }, cost)
  | .jumpIf condition =>
    let (address, z) := z.nextWord
    if condition.holds z.regs.f then (z.jumpTo address, cost) else (z.latch address, cost)
  | .jump =>
    let (address, z) := z.nextWord
    (z.jumpTo address, cost)
  | .outImmediate =>
    let (n, z) := z.nextByte
    let a := z.regs.a
    ((z.output (Word.ofBytes a n) a).latch (Word.ofBytes a (n + 1)), cost)
  | .inImmediate =>
    let (n, z) := z.nextByte
    let port := Word.ofBytes z.regs.a n
    let (v, z) := z.input port
    (z.mapRegs fun s => { s with a := v, wz := port + 1 }, cost)
  | .exchangeStack =>
    let w := z.peekWord z.regs.sp
    ((z.pokeWord z.regs.sp (z.regs.index x)).mapRegs
      fun s => { s.setIndex x w with wz := w }, cost)
  | .exchangeDEHL => (z.mapRegs fun s => { s with de := s.hl, hl := s.de }, cost)
  | .di => (z.mapRegs fun s => { s with iff1 := false, iff2 := false }, cost)
  | .ei => (z.mapRegs fun s => { s with iff1 := true, iff2 := true, eiPending := true }, cost)
  | .callIf condition =>
    let (address, z) := z.nextWord
    if condition.holds z.regs.f then
      ((z.push z.regs.pc).jumpTo address, cost + callTaken)
    else (z.latch address, cost)
  | .push p => (z.push (z.stackPair p x), cost)
  | .call =>
    let (address, z) := z.nextWord
    ((z.push z.regs.pc).jumpTo address, cost)
  | .operateImmediate op =>
    let (v, z) := z.nextByte
    (z.setResult (op.apply z.regs.a z.regs.f v), cost)
  | .restart address => ((z.push z.regs.pc).jumpTo address, cost)

/-! ### The bit page -/

/-- What a bit instruction makes of the flags and a value.  `source` gives the copied bits of a
test. -/
def bitResult (i : BitInstruction) (f v source : UInt8) : Flagged UInt8 :=
  match i with
  | .shift s => s.apply f v
  | .test n => ⟨v, testBit n f v source⟩
  | .clear n => ⟨v &&& ~~~(1 <<< n), f⟩
  | .set n => ⟨v ||| (1 <<< n), f⟩

/-- Run the instruction of the bit page at the program counter.  The copied bits of a test of
memory come from the internal latch. -/
def execBit (z : Processor β) : Timed β :=
  let (op, z) := z.fetch
  let (i, o) := decodeBit op
  let z := if i = .shift .sll then z.flagUndocumented 0xCB op (z.regs.pc - 2) else z
  let cost := i.cost o
  match o with
  | .reg r =>
    let v := z.byte r .hl
    let result := bitResult i z.regs.f v v
    ((z.setByte r .hl result.value).setFlags result.flags, cost)
  | .mem =>
    let address := z.regs.hl
    let result := bitResult i z.regs.f (z.peek address) (Word.high z.regs.wz)
    let z := z.setFlags result.flags
    (if i.isTest then z else z.poke address result.value, cost)

/-- Run the instruction of the bit page on `(IX+d)` or `(IY+d)`.  The displacement comes before
the opcode, which is not an opcode fetch.  If the opcode names a register, the result is copied
into it, which is undocumented. -/
def execIndexedBit (x : IndexLead) (z : Processor β) : Timed β :=
  let (address, z) := z.operandAddress x.index
  let (op, z) := z.nextByte
  let (i, o) := decodeBit op
  let z :=
    if o ≠ .mem ∨ i = .shift .sll then z.flagUndocumented x.byte op (z.regs.pc - 4) else z
  let result := bitResult i z.regs.f (z.peek address) (Word.high address)
  let z := z.setFlags result.flags
  let cost := i.indexedCost
  if i.isTest then (z, cost)
  else
    let z := z.poke address result.value
    match o with
    | .reg r => (z.setByte r .hl result.value, cost)
    | .mem => (z, cost)

/-! ### The extended page -/

/-- One byte up or down. -/
@[inline] def move (down : Bool) (w : UInt16) : UInt16 := if down then w - 1 else w + 1

/-- One round of a block operation, and whether a repeating form goes on. -/
def blockRound (op : BlockOperation) (down : Bool) (z : Processor β) : Processor β × Bool :=
  let hl := z.regs.hl
  match op with
  | .transfer =>
    let v := z.peek hl
    let bc := z.regs.bc - 1
    ((z.poke z.regs.de v).mapRegs fun s =>
      { s with
        hl := move down hl, de := move down s.de, bc := bc
        f := transferFlags s.a s.f v bc }, bc != 0)
  | .search =>
    let v := z.peek hl
    let bc := z.regs.bc - 1
    let found := z.regs.a == v
    (z.mapRegs fun s =>
      { s with
        hl := move down hl, wz := move down s.wz, bc := bc
        f := searchFlags s.a s.f v bc }, bc != 0 && !found)
  | .input =>
    let port := z.regs.bc
    let (v, z) := z.input port
    let b := Word.high port - 1
    let c := Word.low (move down port)
    ((z.poke hl v).mapRegs fun s =>
      { s with
        hl := move down hl, wz := move down port, bc := Word.withHigh port b
        f := portFlags b v c }, b != 0)
  | .output =>
    let v := z.peek hl
    let port := Word.withHigh z.regs.bc (Word.high z.regs.bc - 1)
    let b := Word.high port
    let hl := move down hl
    ((z.output port v).mapRegs fun s =>
      { s with hl := hl, wz := move down port, bc := port, f := portFlags b v (Word.low hl) },
      b != 0)

/-- Run a block instruction: one round, and back to its first byte if it repeats. -/
def execBlock (op : BlockOperation) (down repeats : Bool) (z : Processor β) : Timed β :=
  let cost := (Extended.block op down repeats).cost
  let (z, again) := blockRound op down z
  if repeats && again then
    (z.mapRegs fun s => { s with pc := s.pc - 2, wz := s.pc - 1 }, cost + repeatTaken)
  else (z, cost)

/-- Load the accumulator from a control register; parity shows whether interrupts were on. -/
def loadControl (z : Processor β) (v : UInt8) : Processor β :=
  z.mapRegs fun s =>
    { s with a := v, f := (s.f &&& Flag.carry) ||| signZero v ||| Flag.mark Flag.parity s.iff2 }

/-- Rotate the low digit of the accumulator and the two digits at `(HL)`: `stored` is the byte
put back and `digit` the new low digit. -/
def rotateDigits (z : Processor β) (stored digit : UInt8) : Processor β :=
  let address := z.regs.hl
  let a := (z.regs.a &&& 0xF0) ||| digit
  (z.poke address stored).mapRegs fun s =>
    { s with a := a, f := (s.f &&& Flag.carry) ||| logicFlags a, wz := address + 1 }

/-- Run an instruction of the extended page. -/
def execAssigned (i : Extended) (z : Processor β) : Timed β :=
  let cost := i.cost
  match i with
  | .inPort r =>
    let port := z.regs.bc
    let (v, z) := z.input port
    let z := z.mapRegs fun s =>
      { s with wz := port + 1, f := (s.f &&& Flag.carry) ||| logicFlags v }
    match r with
    | some r => (z.setByte r .hl v, cost)
    | none => (z, cost)
  | .outPort r =>
    let port := z.regs.bc
    let v := match r with
      | some r => z.byte r .hl
      | none => 0
    ((z.output port v).latch (port + 1), cost)
  | .subPair p =>
    let hl := z.regs.hl
    let result := subWordCarry z.regs.f hl (z.pair p .hl)
    (z.mapRegs fun s => { s with hl := result.value, f := result.flags, wz := hl + 1 }, cost)
  | .addPair p =>
    let hl := z.regs.hl
    let result := addWordCarry z.regs.f hl (z.pair p .hl)
    (z.mapRegs fun s => { s with hl := result.value, f := result.flags, wz := hl + 1 }, cost)
  | .storePairAt p =>
    let (address, z) := z.nextWord
    ((z.pokeWord address (z.pair p .hl)).latch (address + 1), cost)
  | .loadPairAt p =>
    let (address, z) := z.nextWord
    ((z.setPair p .hl (z.peekWord address)).latch (address + 1), cost)
  | .neg => (z.setResult (sub 0 z.regs.a false), cost)
  | .retn =>
    let (pc, z) := z.popWord
    ((z.jumpTo pc).mapRegs fun s => { s with iff1 := s.iff2 }, cost)
  | .mode m => (z.mapRegs fun s => { s with im := m }, cost)
  | .loadIA => (z.mapRegs fun s => { s with i := s.a }, cost)
  | .loadRA => (z.mapRegs fun s => { s with r := s.a }, cost)
  | .loadAI => (z.loadControl z.regs.i, cost)
  | .loadAR => (z.loadControl z.regs.r, cost)
  | .rrd =>
    let m := z.peek z.regs.hl
    (z.rotateDigits ((z.regs.a <<< 4) ||| (m >>> 4)) (m &&& 0x0F), cost)
  | .rld =>
    let m := z.peek z.regs.hl
    (z.rotateDigits ((m <<< 4) ||| (z.regs.a &&& 0x0F)) (m >>> 4), cost)
  | .nop => (z, cost)
  | .block op down repeats => execBlock op down repeats z

/-- Run the instruction of the extended page at the program counter.  A byte without meaning is
a no-op, or a fault under strict decoding. -/
def execExtended (z : Processor β) : Outcome β :=
  let start := z.regs.pc - 1
  let (op, z) := z.fetch
  match decodeExtended op with
  | none =>
    if z.strict then (z, .error ⟨0xED, op, start⟩)
    else (z.flagUnassigned op start, .ok unassignedCost)
  | some i =>
    let z := if isAlias op then z.flagUndocumented 0xED op start else z
    (execAssigned i z).done

/-! ### Lead bytes -/

/-- T-states of a lead byte alone. -/
def leadCost : Nat := 4

/-- Run what follows a `DD` or `FD` lead byte.  A second lead byte of the kind makes the first a
no-op and is left to the next step; before `ED` the lead byte has no effect; so it has before an
instruction that does not mention `HL`. -/
def execIndexed (x : IndexLead) (z : Processor β) : Outcome β :=
  let lead := z.regs.pc - 1
  let op := z.peek z.regs.pc
  match lookUp op with
  | .indexed _ => (z.flagUndocumented x.byte op lead, .ok leadCost)
  | .extended =>
    let (_, z) := (z.flagUndocumented x.byte op lead).fetch
    Outcome.plus z.execExtended leadCost
  | .bits =>
    let (_, z) := z.fetch
    (execIndexedBit x z).done
  | .plain i =>
    let (_, z) := z.fetch
    let z :=
      if !i.usesIndex || i.usesHalf then z.flagUndocumented x.byte op lead else z
    ((exec i (if i.usesIndex then x.index else .hl) z).plus leadCost).done

/-- Run an opcode byte that has been fetched. -/
def execute (op : UInt8) (z : Processor β) : Outcome β :=
  match lookUp op with
  | .plain i => (exec i .hl z).done
  | .bits => z.execBit.done
  | .extended => z.execExtended
  | .indexed x => execIndexed x z

end Processor

end MasterSystem.Z80
