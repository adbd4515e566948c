/-! # Words and their two bytes

A sixteen-bit word as the pair of its high and low byte, the signed reading of a byte
as a displacement, and the numbers that fit 32 bits with a sign. -/

namespace MasterSystem.Word

/-- The word with the given high and low byte. -/
@[inline] def ofBytes (high low : UInt8) : UInt16 := 256 * high.toUInt16 + low.toUInt16

/-- The high byte. -/
@[inline] def high (w : UInt16) : UInt8 := (w >>> 8).toUInt8

/-- The low byte. -/
@[inline] def low (w : UInt16) : UInt8 := w.toUInt8

/-- The word with its high byte replaced. -/
@[inline] def withHigh (w : UInt16) (b : UInt8) : UInt16 := ofBytes b (low w)

/-- The word with its low byte replaced. -/
@[inline] def withLow (w : UInt16) (b : UInt8) : UInt16 := ofBytes (high w) b

/-- A byte read as a number from -128 to 127, as a word to be added. -/
@[inline] def displacement (b : UInt8) : UInt16 :=
  if b &&& 0x80 == 0 then b.toUInt16 else ofBytes 0xFF b

/-- The numbers of 32 bits with a sign. -/
def Fits32 (n : Int) : Prop := -0x80000000 ≤ n ∧ n < 0x80000000

instance (n : Int) : Decidable (Fits32 n) := inferInstanceAs (Decidable (_ ∧ _))

/-- A result of arithmetic with 32 bits and a sign, unless it does not fit. -/
def signed32? (n : Int) : Option Int := if Fits32 n then some n else none

theorem signed32?_bind {α : Type} {n : Int} (h : Fits32 n) (f : Int → Option α) :
    (signed32? n >>= f) = f n := by
  rw [signed32?, if_pos h]
  rfl

theorem signed32?_bind_of_not_fits {α : Type} {n : Int} (h : ¬ Fits32 n) (f : Int → Option α) :
    (signed32? n >>= f) = none := by
  rw [signed32?, if_neg h]
  rfl

theorem toNat_ofBytes (h l : UInt8) : (ofBytes h l).toNat = 256 * h.toNat + l.toNat := by
  have := h.toNat_lt
  have := l.toNat_lt
  simp [ofBytes, UInt16.toNat_add, UInt16.toNat_mul]
  omega

theorem toNat_high (w : UInt16) : (high w).toNat = w.toNat / 256 := by
  have := w.toNat_lt
  simp [high, Nat.shiftRight_eq_div_pow]
  omega

theorem toNat_low (w : UInt16) : (low w).toNat = w.toNat % 256 := by
  simp [low]

theorem high_ofBytes (h l : UInt8) : high (ofBytes h l) = h := by
  apply UInt8.toNat_inj.1
  have := l.toNat_lt
  rw [toNat_high, toNat_ofBytes]
  omega

theorem low_ofBytes (h l : UInt8) : low (ofBytes h l) = l := by
  apply UInt8.toNat_inj.1
  have := l.toNat_lt
  rw [toNat_low, toNat_ofBytes]
  omega

theorem ofBytes_high_low (w : UInt16) : ofBytes (high w) (low w) = w := by
  apply UInt16.toNat_inj.1
  rw [toNat_ofBytes, toNat_high, toNat_low]
  omega

theorem high_withHigh (w : UInt16) (b : UInt8) : high (withHigh w b) = b := high_ofBytes ..

theorem low_withHigh (w : UInt16) (b : UInt8) : low (withHigh w b) = low w := low_ofBytes ..

theorem withHigh_withHigh (w : UInt16) (b c : UInt8) :
    withHigh (withHigh w b) c = withHigh w c := by
  unfold withHigh
  rw [low_ofBytes]

theorem high_xor (v w : UInt16) : high (v ^^^ w) = high v ^^^ high w := by
  apply UInt8.toNat_inj.1
  rw [UInt8.toNat_xor, toNat_high, toNat_high, toNat_high, UInt16.toNat_xor]
  exact Nat.xor_div_two_pow (n := 8)

theorem high_and (v w : UInt16) : high (v &&& w) = high v &&& high w := by
  apply UInt8.toNat_inj.1
  rw [UInt8.toNat_and, toNat_high, toNat_high, toNat_high, UInt16.toNat_and]
  exact Nat.and_div_two_pow (n := 8)

theorem high_not (w : UInt16) : high (~~~w) = ~~~(high w) := by
  apply UInt8.toNat_inj.1
  have := w.toNat_lt
  rw [toNat_high, UInt16.toNat_not, UInt8.toNat_not, toNat_high]
  simp only [UInt16.size, UInt8.size]
  omega

/-- What holds of the 256 bytes, one after the other, holds of every byte. -/
theorem forall_byte {p : UInt8 → Prop} (h : ∀ n : Fin 256, p (UInt8.ofNat n.val)) (b : UInt8) :
    p b := by
  have hb := h ⟨b.toNat, b.toNat_lt⟩
  rwa [UInt8.ofNat_toNat] at hb

/-- A mask on two bytes put together is a mask on each. -/
theorem or_and (a b m : UInt8) : (a ||| b) &&& m = (a &&& m) ||| (b &&& m) := by
  apply UInt8.toNat_inj.1
  simp only [UInt8.toNat_and, UInt8.toNat_or, Nat.and_or_distrib_right]

end MasterSystem.Word
