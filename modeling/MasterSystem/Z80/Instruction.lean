import MasterSystem.Z80.Arithmetic

/-! # Instructions of the Z80

An opcode byte is read as a value of `Opcode`: an instruction, or the lead byte of another
page.  There are four pages.

* **Main page** (`Instruction`, `decode`).  After a `DD` or `FD` lead byte the same byte means
  the same instruction with `IX` or `IY` in the place of `HL`; `(HL)` becomes `(IX+d)`.
* **Bit page** (`BitInstruction`, `decodeBit`), after `CB`.
* **Extended page** (`Extended`, `decodeExtended`), after `ED`; most of it means nothing.

The bytes are regular: with two octal digits `y` and `z` below the top two bits, `z` picks an
operand or a family and `y` an operand, an operation or a condition.

The cost of an instruction in T-states is a function of the instruction (`Instruction.cost`
and its companions); what a taken branch adds is left to its execution. -/

namespace MasterSystem.Z80

/-! ### Operands -/

/-- A byte register of the main bank.  With an index register in place of `HL`, `h` and `l`
are its halves. -/
inductive Reg8 where
  | b
  | c
  | d
  | e
  | h
  | l
  | a
deriving DecidableEq, Repr

/-- A byte operand: a register, or the byte of memory at `(HL)`, `(IX+d)` or `(IY+d)`. -/
inductive Operand where
  | reg (r : Reg8)
  | mem
deriving DecidableEq, Repr

/-- A register pair of arithmetic; `index` is `HL` or the register in its place. -/
inductive Pair where
  | bc
  | de
  | index
  | sp
deriving DecidableEq, Repr

/-- A register pair of the stack. -/
inductive StackPair where
  | bc
  | de
  | index
  | af
deriving DecidableEq, Repr

/-- A condition on the flags: a flag, and the value that it must have. -/
inductive Condition where
  | nonzero
  | zero
  | noCarry
  | carry
  | parityOdd
  | parityEven
  | positive
  | negative
deriving DecidableEq, Repr

/-- The operand that an octal digit names. -/
def Operand.ofDigit : Nat → Operand
  | 0 => .reg .b
  | 1 => .reg .c
  | 2 => .reg .d
  | 3 => .reg .e
  | 4 => .reg .h
  | 5 => .reg .l
  | 6 => .mem
  | _ => .reg .a

/-- The pair that two bits name. -/
def Pair.ofDigit : Nat → Pair
  | 0 => .bc
  | 1 => .de
  | 2 => .index
  | _ => .sp

/-- The stack pair that two bits name. -/
def StackPair.ofDigit : Nat → StackPair
  | 0 => .bc
  | 1 => .de
  | 2 => .index
  | _ => .af

/-- The condition that an octal digit names. -/
def Condition.ofDigit : Nat → Condition
  | 0 => .nonzero
  | 1 => .zero
  | 2 => .noCarry
  | 3 => .carry
  | 4 => .parityOdd
  | 5 => .parityEven
  | 6 => .positive
  | _ => .negative

/-- The operation that an octal digit names. -/
def Operation.ofDigit : Nat → Operation
  | 0 => .add
  | 1 => .adc
  | 2 => .sub
  | 3 => .sbc
  | 4 => .and
  | 5 => .xor
  | 6 => .or
  | _ => .cp

/-- The rotation that an octal digit below four names. -/
def Rotation.ofDigit : Nat → Rotation
  | 0 => .rlc
  | 1 => .rrc
  | 2 => .rl
  | _ => .rr

/-- The shift that an octal digit names. -/
def Shift.ofDigit : Nat → Shift
  | 4 => .sla
  | 5 => .sra
  | 6 => .sll
  | 7 => .srl
  | y => .rotate (Rotation.ofDigit y)

/-- Whether the flags satisfy the condition. -/
def Condition.holds (condition : Condition) (f : UInt8) : Bool :=
  match condition with
  | .nonzero => !Flag.has f Flag.zero
  | .zero => Flag.has f Flag.zero
  | .noCarry => !Flag.has f Flag.carry
  | .carry => Flag.has f Flag.carry
  | .parityOdd => !Flag.has f Flag.parity
  | .parityEven => Flag.has f Flag.parity
  | .positive => !Flag.has f Flag.sign
  | .negative => Flag.has f Flag.sign

/-! ### The main page -/

/-- Instructions of one opcode byte, immediate operands not counted.  `At` marks an operand in
memory whose address is immediate. -/
inductive Instruction where
  | nop
  | exchangeAF
  | djnz
  | jr
  | jrIf (condition : Condition)
  | loadPair (p : Pair)
  | addPair (p : Pair)
  | storeViaBC
  | storeViaDE
  | loadViaBC
  | loadViaDE
  | storeIndexAt
  | loadIndexAt
  | storeAccumulatorAt
  | loadAccumulatorAt
  | incPair (p : Pair)
  | decPair (p : Pair)
  | inc (o : Operand)
  | dec (o : Operand)
  | loadImmediate (o : Operand)
  | rotate (s : Rotation)
  | daa
  | cpl
  | scf
  | ccf
  | halt
  | load (target source : Operand)
  | operate (op : Operation) (o : Operand)
  | retIf (condition : Condition)
  | pop (p : StackPair)
  | ret
  | exchangePairs
  | jumpIndex
  | loadStackPointer
  | jumpIf (condition : Condition)
  | jump
  | outImmediate
  | inImmediate
  | exchangeStack
  | exchangeDEHL
  | di
  | ei
  | callIf (condition : Condition)
  | push (p : StackPair)
  | call
  | operateImmediate (op : Operation)
  | restart (address : UInt16)
deriving DecidableEq, Repr

/-- The two registers that can take the place of `HL`. -/
inductive IndexLead where
  | ix
  | iy
deriving DecidableEq, Repr

namespace IndexLead

/-- The register itself. -/
def index : IndexLead → Index
  | ix => .ix
  | iy => .iy

/-- The lead byte that selects it. -/
def byte : IndexLead → UInt8
  | ix => 0xDD
  | iy => 0xFD

end IndexLead

/-- What a byte of the main page means. -/
inductive Opcode where
  | plain (i : Instruction)
  | bits
  | extended
  | indexed (x : IndexLead)
deriving DecidableEq, Repr

/-- Bytes `00` to `3F`. -/
def decodeLow (y z : Nat) : Instruction :=
  let p := y / 2
  let even := y % 2 == 0
  match z with
  | 0 =>
    match y with
    | 0 => .nop
    | 1 => .exchangeAF
    | 2 => .djnz
    | 3 => .jr
    | _ => .jrIf (Condition.ofDigit (y - 4))
  | 1 => if even then .loadPair (Pair.ofDigit p) else .addPair (Pair.ofDigit p)
  | 2 =>
    match y with
    | 0 => .storeViaBC
    | 1 => .loadViaBC
    | 2 => .storeViaDE
    | 3 => .loadViaDE
    | 4 => .storeIndexAt
    | 5 => .loadIndexAt
    | 6 => .storeAccumulatorAt
    | _ => .loadAccumulatorAt
  | 3 => if even then .incPair (Pair.ofDigit p) else .decPair (Pair.ofDigit p)
  | 4 => .inc (Operand.ofDigit y)
  | 5 => .dec (Operand.ofDigit y)
  | 6 => .loadImmediate (Operand.ofDigit y)
  | _ =>
    match y with
    | 4 => .daa
    | 5 => .cpl
    | 6 => .scf
    | 7 => .ccf
    | _ => .rotate (Rotation.ofDigit y)

/-- Bytes `C0` to `FF`. -/
def decodeHigh (y z : Nat) : Opcode :=
  match z with
  | 0 => .plain (.retIf (Condition.ofDigit y))
  | 1 =>
    match y with
    | 1 => .plain .ret
    | 3 => .plain .exchangePairs
    | 5 => .plain .jumpIndex
    | 7 => .plain .loadStackPointer
    | _ => .plain (.pop (StackPair.ofDigit (y / 2)))
  | 2 => .plain (.jumpIf (Condition.ofDigit y))
  | 3 =>
    match y with
    | 0 => .plain .jump
    | 1 => .bits
    | 2 => .plain .outImmediate
    | 3 => .plain .inImmediate
    | 4 => .plain .exchangeStack
    | 5 => .plain .exchangeDEHL
    | 6 => .plain .di
    | _ => .plain .ei
  | 4 => .plain (.callIf (Condition.ofDigit y))
  | 5 =>
    match y with
    | 1 => .plain .call
    | 3 => .indexed .ix
    | 5 => .extended
    | 7 => .indexed .iy
    | _ => .plain (.push (StackPair.ofDigit (y / 2)))
  | 6 => .plain (.operateImmediate (Operation.ofDigit y))
  | _ => .plain (.restart (8 * UInt16.ofNat y))

/-- The meaning of a byte of the main page. -/
def decode (op : UInt8) : Opcode :=
  let y := op.toNat / 8 % 8
  let z := op.toNat % 8
  match op.toNat / 64 with
  | 0 => .plain (decodeLow y z)
  | 1 =>
    if y = 6 ∧ z = 6 then .plain .halt
    else .plain (.load (Operand.ofDigit y) (Operand.ofDigit z))
  | 2 => .plain (.operate (Operation.ofDigit y) (Operand.ofDigit z))
  | _ => decodeHigh y z

/-- The meanings of all bytes of the main page. -/
def opcodes : ByteTable Opcode := ByteTable.tabulate decode

/-- The meaning of a byte, looked up. -/
@[inline] def lookUp (op : UInt8) : Opcode := opcodes.look op

theorem lookUp_eq_decode (op : UInt8) : lookUp op = decode op := ByteTable.look_tabulate _ op

namespace Operand

/-- Whether the operand is `H`, `L` or addressed through `HL`. -/
def usesIndex : Operand → Bool
  | reg .h | reg .l | mem => true
  | _ => false

/-- Whether the operand is in memory. -/
def inMemory : Operand → Bool
  | mem => true
  | reg _ => false

end Operand

namespace Instruction

/-- Whether an index register in place of `HL` changes the instruction.  `EX DE,HL` and `EXX`
always mean `HL`. -/
def usesIndex : Instruction → Bool
  | addPair _ | storeIndexAt | loadIndexAt | jumpIndex | loadStackPointer | exchangeStack => true
  | loadPair p | incPair p | decPair p => p == .index
  | inc o | dec o | loadImmediate o | operate _ o => o.usesIndex
  | load t s => t.usesIndex || s.usesIndex
  | pop p | push p => p == .index
  | _ => false

/-- Whether the instruction addresses memory through `(HL)`, `(IX+d)` or `(IY+d)`. -/
def usesMemory : Instruction → Bool
  | inc o | dec o | loadImmediate o | operate _ o => o.inMemory
  | load t s => t.inMemory || s.inMemory
  | _ => false

/-- Whether the instruction takes one half of the index register, which is undocumented for
`IX` and `IY`. -/
def usesHalf : Instruction → Bool
  | inc o | dec o | loadImmediate o | operate _ o => o.usesIndex && !o.inMemory
  | load t s => (t.usesIndex || s.usesIndex) && !t.inMemory && !s.inMemory
  | _ => false

/-- T-states of the unprefixed form when no branch is taken. -/
def baseCost : Instruction → Nat
  | nop | exchangeAF | rotate _ | daa | cpl | scf | ccf | halt | exchangePairs | jumpIndex
  | exchangeDEHL | di | ei => 4
  | retIf _ => 5
  | incPair _ | decPair _ | loadStackPointer => 6
  | jrIf _ | storeViaBC | storeViaDE | loadViaBC | loadViaDE | operateImmediate _ => 7
  | djnz => 8
  | loadPair _ | pop _ | ret | jumpIf _ | jump | callIf _ => 10
  | addPair _ | outImmediate | inImmediate | push _ | restart _ => 11
  | jr => 12
  | storeAccumulatorAt | loadAccumulatorAt => 13
  | storeIndexAt | loadIndexAt => 16
  | call => 17
  | exchangeStack => 19
  | inc o | dec o => if o.inMemory then 11 else 4
  | loadImmediate o => if o.inMemory then 10 else 7
  | load t s => if t.inMemory || s.inMemory then 7 else 4
  | operate _ o => if o.inMemory then 7 else 4

/-- T-states that an index register adds for its displacement, over those of the lead byte. -/
def displacementCost (i : Instruction) : Nat :=
  match i with
  | loadImmediate .mem => 5
  | _ => if i.usesMemory then 8 else 0

/-- T-states of the form that uses the given register, without a taken branch.  Those of the
lead byte are not counted. -/
def cost (i : Instruction) : Index → Nat
  | .hl => i.baseCost
  | _ => i.baseCost + i.displacementCost

end Instruction

/-! ### The bit page -/

/-- Instructions after `CB`. -/
inductive BitInstruction where
  | shift (s : Shift)
  | test (n : UInt8)
  | clear (n : UInt8)
  | set (n : UInt8)
deriving DecidableEq, Repr

/-- The meaning of a byte of the bit page: what to do and to which operand. -/
def decodeBit (op : UInt8) : BitInstruction × Operand :=
  let y := op.toNat / 8 % 8
  let n := UInt8.ofNat y
  (match op.toNat / 64 with
    | 0 => .shift (Shift.ofDigit y)
    | 1 => .test n
    | 2 => .clear n
    | _ => .set n,
   Operand.ofDigit (op.toNat % 8))

namespace BitInstruction

/-- Whether the instruction only sets flags. -/
def isTest : BitInstruction → Bool
  | test _ => true
  | _ => false

/-- T-states, lead byte included. -/
def cost (i : BitInstruction) (o : Operand) : Nat :=
  if o.inMemory then (if i.isTest then 12 else 15) else 8

/-- T-states of the form on `(IX+d)` or `(IY+d)`, both lead bytes included. -/
def indexedCost (i : BitInstruction) : Nat := if i.isTest then 20 else 23

end BitInstruction

/-! ### The extended page -/

/-- The four block operations. -/
inductive BlockOperation where
  /-- Move a byte from `(HL)` to `(DE)`. -/
  | transfer
  /-- Compare the accumulator with `(HL)`. -/
  | search
  /-- Move a byte from a port to `(HL)`. -/
  | input
  /-- Move a byte from `(HL)` to a port. -/
  | output
deriving DecidableEq, Repr

/-- Instructions after `ED`. -/
inductive Extended where
  /-- Read a port; without a register, for the flags only. -/
  | inPort (r : Option Reg8)
  /-- Write a port; without a register, a zero. -/
  | outPort (r : Option Reg8)
  | subPair (p : Pair)
  | addPair (p : Pair)
  | storePairAt (p : Pair)
  | loadPairAt (p : Pair)
  | neg
  | retn
  | mode (m : UInt8)
  | loadIA
  | loadRA
  | loadAI
  | loadAR
  | rrd
  | rld
  | nop
  | block (op : BlockOperation) (down repeats : Bool)
deriving DecidableEq, Repr

/-- The register that an octal digit names, if it does not name memory. -/
def Reg8.ofDigit? (y : Nat) : Option Reg8 :=
  match Operand.ofDigit y with
  | .reg r => some r
  | .mem => none

/-- The block operation that two bits name. -/
def BlockOperation.ofDigit : Nat → BlockOperation
  | 0 => .transfer
  | 1 => .search
  | 2 => .input
  | _ => .output

/-- Bytes `40` to `7F` of the extended page. -/
def decodeExtendedLow (y z : Nat) : Extended :=
  let p := Pair.ofDigit (y / 2)
  let even := y % 2 == 0
  match z with
  | 0 => .inPort (Reg8.ofDigit? y)
  | 1 => .outPort (Reg8.ofDigit? y)
  | 2 => if even then .subPair p else .addPair p
  | 3 => if even then .storePairAt p else .loadPairAt p
  | 4 => .neg
  | 5 => .retn
  | 6 =>
    match y % 4 with
    | 2 => .mode 1
    | 3 => .mode 2
    | _ => .mode 0
  | _ =>
    match y with
    | 0 => .loadIA
    | 1 => .loadRA
    | 2 => .loadAI
    | 3 => .loadAR
    | 4 => .rrd
    | 5 => .rld
    | _ => .nop

/-- The meaning of a byte of the extended page, if it has one. -/
def decodeExtended (op : UInt8) : Option Extended :=
  let y := op.toNat / 8 % 8
  let z := op.toNat % 8
  match op.toNat / 64 with
  | 1 => some (decodeExtendedLow y z)
  | 2 =>
    if 4 ≤ y ∧ z < 4 then
      some (.block (BlockOperation.ofDigit z) (y % 2 == 1) (6 ≤ y))
    else none
  | _ => none

/-- Bytes of the extended page that only alias an instruction with another opcode. -/
def isAlias (op : UInt8) : Bool :=
  match decodeExtended op with
  | some .neg => op != 0x44
  | some .retn => op != 0x45 && op != 0x4D
  | some (.mode _) => op != 0x46 && op != 0x56 && op != 0x5E
  | some (.inPort none) | some (.outPort none) | some .nop => true
  | _ => false

/-- T-states, lead byte included, of an instruction that does not repeat. -/
def Extended.cost : Extended → Nat
  | neg | mode _ | nop => 8
  | loadIA | loadRA | loadAI | loadAR => 9
  | inPort _ | outPort _ => 12
  | retn => 14
  | subPair _ | addPair _ => 15
  | block .. => 16
  | rrd | rld => 18
  | storePairAt _ | loadPairAt _ => 20

/-- T-states of a byte of the extended page without a meaning. -/
def unassignedCost : Nat := 8

/-! ### Added costs -/

/-- T-states that a taken relative jump adds. -/
def jumpTaken : Nat := 5

/-- T-states that a taken conditional call adds. -/
def callTaken : Nat := 7

/-- T-states that a taken conditional return adds. -/
def returnTaken : Nat := 6

/-- T-states that a block instruction adds when it repeats. -/
def repeatTaken : Nat := 5

end MasterSystem.Z80
