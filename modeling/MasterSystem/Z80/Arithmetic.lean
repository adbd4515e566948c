import MasterSystem.ByteTable
import MasterSystem.Z80.Registers

/-! # Arithmetic and flags

What each arithmetic, logical and shifting instruction computes, as functions of its
operands alone.  A result carries the flags that go with it (`Flagged`); operations that keep
some of the old flags take them as an argument.

Bits 3 and 5 of the flags are undocumented.  Programs observe them, so each operation sets
them as the silicon does: from the result, except that a comparison takes them from its
operand. -/

namespace MasterSystem.Z80

/-- A result together with the flags that it leaves. -/
structure Flagged (α : Type) where
  value : α
  flags : UInt8
deriving DecidableEq, Repr

/-! ### Flags of a byte -/

/-- Whether the number of one bits is even. -/
def evenParity (v : UInt8) : Bool :=
  let v := v ^^^ (v >>> 4)
  let v := v ^^^ (v >>> 2)
  let v := v ^^^ (v >>> 1)
  v &&& 1 == 0

/-- Sign, zero and the two copied bits. -/
def signZero (v : UInt8) : UInt8 := (v &&& 0xA8) ||| Flag.mark Flag.zero (v == 0)

/-- Under a mask without sign and copied bits there is only the zero flag. -/
theorem has_signZero {mask : UInt8} (h : 0xA8 &&& mask = 0) (v : UInt8) :
    Flag.has (signZero v) mask = (v == 0 && Flag.has Flag.zero mask) := by
  unfold signZero
  rw [Flag.has_or, Flag.has_and, h, Flag.has_none, Bool.false_or, Flag.has_mark]

/-- Sign, zero, copied bits and parity, for every byte. -/
def logicFlagsTable : ByteTable UInt8 := ByteTable.tabulate fun v =>
  signZero v ||| Flag.mark Flag.parity (evenParity v)

/-- Sign, zero, copied bits and parity. -/
@[inline] def logicFlags (v : UInt8) : UInt8 := logicFlagsTable.look v

theorem logicFlags_eq (v : UInt8) :
    logicFlags v = signZero v ||| Flag.mark Flag.parity (evenParity v) :=
  ByteTable.look_tabulate _ v

/-! ### Bytes -/

/-- `a + v`, plus one with a carry. -/
def add (a v : UInt8) (carry : Bool) : Flagged UInt8 :=
  let r := a + v + carry.toUInt8
  ⟨r, signZero r ||| ((a ^^^ v ^^^ r) &&& Flag.half)
    ||| Flag.mark Flag.carry (a.toNat + v.toNat + carry.toNat > 0xFF)
    ||| Flag.mark Flag.parity ((a ^^^ ~~~v) &&& (a ^^^ r) &&& 0x80 != 0)⟩

/-- `a - v`, minus one with a borrow. -/
def sub (a v : UInt8) (borrow : Bool) : Flagged UInt8 :=
  let r := a - v - borrow.toUInt8
  ⟨r, Flag.subtract ||| signZero r ||| ((a ^^^ v ^^^ r) &&& Flag.half)
    ||| Flag.mark Flag.carry (a.toNat < v.toNat + borrow.toNat)
    ||| Flag.mark Flag.parity ((a ^^^ v) &&& (a ^^^ r) &&& 0x80 != 0)⟩

/-- The flags of a comparison: those of a subtraction, with the copied bits of the operand. -/
def compare (a v : UInt8) : UInt8 :=
  ((sub a v false).flags &&& ~~~Flag.copies) ||| (v &&& Flag.copies)

/-- The eight operations between the accumulator and an operand. -/
inductive Operation where
  | add
  | adc
  | sub
  | sbc
  | and
  | xor
  | or
  | cp
deriving DecidableEq, Repr

/-- The accumulator and the flags after an operation. -/
def Operation.apply (op : Operation) (a f v : UInt8) : Flagged UInt8 :=
  let carry := Flag.has f Flag.carry
  match op with
  | .add => Z80.add a v false
  | .adc => Z80.add a v carry
  | .sub => Z80.sub a v false
  | .sbc => Z80.sub a v carry
  | .and => let r := a &&& v; ⟨r, logicFlags r ||| Flag.half⟩
  | .xor => let r := a ^^^ v; ⟨r, logicFlags r⟩
  | .or => let r := a ||| v; ⟨r, logicFlags r⟩
  | .cp => ⟨a, compare a v⟩

/-- One more; the carry stays. -/
def increment (f v : UInt8) : Flagged UInt8 :=
  let r := v + 1
  ⟨r, (f &&& Flag.carry) ||| signZero r ||| Flag.mark Flag.parity (v == 0x7F)
    ||| Flag.mark Flag.half (v &&& 0x0F == 0x0F)⟩

/-- One less; the carry stays. -/
def decrement (f v : UInt8) : Flagged UInt8 :=
  let r := v - 1
  ⟨r, (f &&& Flag.carry) ||| Flag.subtract ||| signZero r ||| Flag.mark Flag.parity (v == 0x80)
    ||| Flag.mark Flag.half (v &&& 0x0F == 0)⟩

/-- `DAA`: the accumulator brought back to two decimal digits after an addition or a
subtraction of such. -/
def decimalAdjust (a f : UInt8) : Flagged UInt8 :=
  let half := Flag.has f Flag.half
  let carry := Flag.has f Flag.carry || a > 0x99
  let correction := (if half || a &&& 0x0F > 9 then 0x06 else 0) ||| (if carry then 0x60 else 0)
  let subtract := Flag.has f Flag.subtract
  let r := if subtract then a - correction else a + correction
  let halfOut := if subtract then half && a &&& 0x0F < 6 else a &&& 0x0F > 9
  ⟨r, logicFlags r ||| (f &&& Flag.subtract) ||| Flag.mark Flag.half halfOut |||
    Flag.mark Flag.carry carry⟩

/-- `CPL`. -/
def complement (a f : UInt8) : Flagged UInt8 :=
  let r := ~~~a
  ⟨r, (f &&& 0xC5) ||| Flag.half ||| Flag.subtract ||| (r &&& Flag.copies)⟩

/-- The flags after `SCF`. -/
def setCarry (a f : UInt8) : UInt8 := (f &&& 0xC4) ||| Flag.carry ||| (a &&& Flag.copies)

/-- The flags after `CCF`; the half carry takes the old carry. -/
def flipCarry (a f : UInt8) : UInt8 :=
  (f &&& 0xC4) ||| (if Flag.has f Flag.carry then Flag.half else Flag.carry)
    ||| (a &&& Flag.copies)

/-! ### Rotations and shifts -/

/-- The four rotations. -/
inductive Rotation where
  | rlc
  | rrc
  | rl
  | rr
deriving DecidableEq, Repr

/-- The rotated byte and the bit that went out, as a carry flag. -/
def Rotation.apply (s : Rotation) (f v : UInt8) : UInt8 × UInt8 :=
  let carry := f &&& Flag.carry
  match s with
  | .rlc => ((v <<< 1) ||| (v >>> 7), v >>> 7)
  | .rrc => ((v >>> 1) ||| (v <<< 7), v &&& 1)
  | .rl => ((v <<< 1) ||| carry, v >>> 7)
  | .rr => ((v >>> 1) ||| (carry <<< 7), v &&& 1)

/-- A rotation of the accumulator, which keeps sign, zero and parity. -/
def rotateAccumulator (s : Rotation) (a f : UInt8) : Flagged UInt8 :=
  let (r, out) := s.apply f a
  ⟨r, (f &&& 0xC4) ||| (r &&& Flag.copies) ||| out⟩

/-- The eight shifts of the bit page; `sll` shifts a one in and is undocumented. -/
inductive Shift where
  | rotate (s : Rotation)
  | sla
  | sra
  | sll
  | srl
deriving DecidableEq, Repr

/-- A shift of any operand, which sets all flags. -/
def Shift.apply (s : Shift) (f v : UInt8) : Flagged UInt8 :=
  let (r, out) := match s with
    | .rotate s => s.apply f v
    | .sla => (v <<< 1, v >>> 7)
    | .sra => ((v >>> 1) ||| (v &&& 0x80), v &&& 1)
    | .sll => ((v <<< 1) ||| 1, v >>> 7)
    | .srl => (v >>> 1, v &&& 1)
  ⟨r, logicFlags r ||| out⟩

/-- The flags after a test of bit `n`.  The copied bits come from `source`, which depends on
how the operand was addressed. -/
def testBit (n f v source : UInt8) : UInt8 :=
  let set := v &&& (1 <<< n)
  (f &&& Flag.carry) ||| Flag.half ||| (source &&& Flag.copies)
    ||| (if set == 0 then Flag.zero ||| Flag.parity else Flag.mark Flag.sign (n == 7))

/-! ### Words -/

/-- The copied bits and the half carry of a word operation show in its high byte. -/
def halfOfWord (a b r : UInt16) : UInt8 := Word.high (a ^^^ b ^^^ r) &&& Flag.half

/-- `ADD HL,rr`: sign, zero and parity stay. -/
def addWord (f : UInt8) (a b : UInt16) : Flagged UInt16 :=
  let r := a + b
  ⟨r, (f &&& 0xC4) ||| halfOfWord a b r ||| (Word.high r &&& Flag.copies)
    ||| Flag.mark Flag.carry (a.toNat + b.toNat > 0xFFFF)⟩

/-- `ADC HL,rr`. -/
def addWordCarry (f : UInt8) (a b : UInt16) : Flagged UInt16 :=
  let carry := f &&& Flag.carry
  let r := a + b + carry.toUInt16
  ⟨r, (Word.high r &&& 0xA8) ||| halfOfWord a b r ||| Flag.mark Flag.zero (r == 0)
    ||| Flag.mark Flag.carry (a.toNat + b.toNat + carry.toNat > 0xFFFF)
    ||| Flag.mark Flag.parity ((a ^^^ ~~~b) &&& (a ^^^ r) &&& 0x8000 != 0)⟩

/-- `SBC HL,rr`. -/
def subWordCarry (f : UInt8) (a b : UInt16) : Flagged UInt16 :=
  let borrow := f &&& Flag.carry
  let r := a - b - borrow.toUInt16
  ⟨r, Flag.subtract ||| (Word.high r &&& 0xA8) ||| halfOfWord a b r ||| Flag.mark Flag.zero (r == 0)
    ||| Flag.mark Flag.carry (a.toNat < b.toNat + borrow.toNat)
    ||| Flag.mark Flag.parity ((a ^^^ b) &&& (a ^^^ r) &&& 0x8000 != 0)⟩

/-! ### Block instructions -/

/-- The copied bits of a block transfer or search: bit 3 of `n`, and bit 1 of `n` as bit 5. -/
def blockCopies (n : UInt8) : UInt8 := (n &&& Flag.bit3) ||| Flag.mark Flag.bit5 (n &&& 0x02 != 0)

/-- The flags after one transfer of `v`, with `bc` left to go. -/
def transferFlags (a f v : UInt8) (bc : UInt16) : UInt8 :=
  (f &&& 0xC1) ||| blockCopies (a + v) ||| Flag.mark Flag.parity (bc != 0)

/-- The flags after one comparison with `v`, with `bc` left to go. -/
def searchFlags (a f v : UInt8) (bc : UInt16) : UInt8 :=
  let r := a - v
  let half := (a ^^^ v ^^^ r) &&& Flag.half
  (f &&& Flag.carry) ||| Flag.subtract ||| half ||| (signZero r &&& ~~~Flag.copies)
    ||| blockCopies (if half == 0 then r else r - 1) ||| Flag.mark Flag.parity (bc != 0)

/-- The flags after a byte `v` went through a port, with `b` left to go; `other` is the
register whose sum with `v` decides the carries. -/
def portFlags (b v other : UInt8) : UInt8 :=
  let k := other.toNat + v.toNat
  signZero b ||| Flag.mark Flag.subtract (v &&& 0x80 != 0)
    ||| (if k > 0xFF then Flag.half ||| Flag.carry else 0)
    ||| (logicFlags ((UInt8.ofNat k &&& 7) ^^^ b) &&& Flag.parity)

end MasterSystem.Z80
