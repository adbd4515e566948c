import MasterSystem.Word

/-! # The register file of the Z80

The accumulator and the flags are kept as bytes and every register pair as a word, so that
`HL`, `IX` and `IY` can take each other's place (`Index`).  Besides what a program can name,
the file holds the internal word `wz`, which shows in two undocumented flags, and the
flip-flops of the interrupt logic.

`Registers` is everything that decides what the processor does next, apart from memory. -/

namespace MasterSystem.Z80

/-! ### Flags -/

namespace Flag

/-- Carry or borrow out of the top bit. -/
def carry : UInt8 := 0x01
/-- The last operation was a subtraction. -/
def subtract : UInt8 := 0x02
/-- Parity of a logical result, signed overflow of an arithmetic one. -/
def parity : UInt8 := 0x04
/-- Copy of bit 3 of the result. -/
def bit3 : UInt8 := 0x08
/-- Carry or borrow out of the low nibble. -/
def half : UInt8 := 0x10
/-- Copy of bit 5 of the result. -/
def bit5 : UInt8 := 0x20
/-- The result is zero. -/
def zero : UInt8 := 0x40
/-- The result is negative. -/
def sign : UInt8 := 0x80

/-- The two undocumented flags. -/
def copies : UInt8 := 0x28

/-- The mask when the condition holds, nothing otherwise. -/
@[inline] def mark (mask : UInt8) (b : Bool) : UInt8 := if b then mask else 0

/-- Whether any flag of the mask is set. -/
@[inline] def has (f mask : UInt8) : Bool := f &&& mask != 0

theorem mark_and (m mask : UInt8) (b : Bool) : mark m b &&& mask = mark (m &&& mask) b := by
  cases b
  · exact UInt8.zero_and
  · rfl

theorem mark_zero (b : Bool) : mark 0 b = 0 := by cases b <;> rfl

theorem has_none (f : UInt8) : has f 0 = false := by
  unfold has
  rw [UInt8.and_zero]
  rfl

theorem has_or (f g mask : UInt8) : has (f ||| g) mask = (has f mask || has g mask) := by
  unfold has
  rw [Word.or_and, Bool.eq_iff_iff]
  simp only [bne_iff_ne, Bool.or_eq_true, ne_eq, UInt8.or_eq_zero_iff,
    Decidable.not_and_iff_not_or_not]

theorem has_and (f g mask : UInt8) : has (f &&& g) mask = has f (g &&& mask) := by
  unfold has
  rw [UInt8.and_assoc]

theorem has_mark (m mask : UInt8) (b : Bool) : has (mark m b) mask = (b && has m mask) := by
  cases b
  · unfold has mark
    rw [if_neg Bool.false_ne_true, UInt8.zero_and]
    rfl
  · rfl

end Flag

/-! ### The file -/

/-- The three registers that an instruction on `HL` can mean. -/
inductive Index where
  | hl
  | ix
  | iy
deriving DecidableEq, Repr

/-- Everything inside the processor that influences execution. -/
structure Registers where
  /-- Accumulator. -/
  a : UInt8 := 0xFF
  /-- Flags. -/
  f : UInt8 := 0xFF
  bc : UInt16 := 0
  de : UInt16 := 0
  hl : UInt16 := 0
  /-- The alternate bank. -/
  afAlt : UInt16 := 0
  bcAlt : UInt16 := 0
  deAlt : UInt16 := 0
  hlAlt : UInt16 := 0
  ix : UInt16 := 0xFFFF
  iy : UInt16 := 0xFFFF
  sp : UInt16 := 0xFFFF
  pc : UInt16 := 0
  /-- Internal address latch. -/
  wz : UInt16 := 0
  /-- High byte of the interrupt table. -/
  i : UInt8 := 0
  /-- Refresh counter; its top bit changes only by a load. -/
  r : UInt8 := 0
  /-- Maskable interrupts are accepted. -/
  iff1 : Bool := false
  /-- What `iff1` returns to after a non-maskable interrupt. -/
  iff2 : Bool := false
  /-- Interrupt mode. -/
  im : UInt8 := 0
  halted : Bool := false
  /-- Level of the maskable interrupt line. -/
  irqLine : Bool := false
  /-- A non-maskable interrupt waits. -/
  nmiPending : Bool := false
  /-- The last instruction was `EI`, so the next one cannot be interrupted. -/
  eiPending : Bool := false
  /-- T-states since power-on. -/
  cycles : UInt64 := 0
deriving DecidableEq, Repr, Inhabited

namespace Registers

/-- The file after a reset.  The silicon defines only `AF`, `SP` and the control registers;
the rest is fixed so that runs can be repeated. -/
def afterReset : Registers := {}

/-- Accumulator and flags as a pair. -/
@[inline] def af (r : Registers) : UInt16 := Word.ofBytes r.a r.f

/-- The file with accumulator and flags replaced. -/
@[inline] def setAF (r : Registers) (w : UInt16) : Registers :=
  { r with a := Word.high w, f := Word.low w }

/-- The pair that an index register names. -/
@[inline] def index (r : Registers) : Index → UInt16
  | .hl => r.hl
  | .ix => r.ix
  | .iy => r.iy

/-- The file with an index register replaced. -/
@[inline] def setIndex (r : Registers) (x : Index) (w : UInt16) : Registers :=
  match x with
  | .hl => { r with hl := w }
  | .ix => { r with ix := w }
  | .iy => { r with iy := w }

/-- The refresh counter counts an opcode fetch in its low seven bits. -/
@[inline] def refresh (r : Registers) : Registers :=
  { r with r := (r.r &&& 0x80) ||| ((r.r + 1) &&& 0x7F) }

/-- `EX AF,AF'`. -/
def exchangeAF (r : Registers) : Registers :=
  { r.setAF r.afAlt with afAlt := r.af }

/-- `EXX`. -/
def exchangePairs (r : Registers) : Registers :=
  { r with
    bc := r.bcAlt, bcAlt := r.bc
    de := r.deAlt, deAlt := r.de
    hl := r.hlAlt, hlAlt := r.hl }

theorem index_setIndex (r : Registers) (x : Index) (w : UInt16) :
    (r.setIndex x w).index x = w := by cases x <;> rfl

theorem af_setAF (r : Registers) (w : UInt16) : (r.setAF w).af = w :=
  Word.ofBytes_high_low w

theorem exchangePairs_exchangePairs (r : Registers) :
    r.exchangePairs.exchangePairs = r := rfl

end Registers

end MasterSystem.Z80
