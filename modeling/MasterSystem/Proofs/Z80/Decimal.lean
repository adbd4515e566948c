import Mathlib.Data.Nat.Bitwise
import MasterSystem.Proofs.Z80.Chains

/-! # Decimal arithmetic

A packed decimal number has two digits in each byte.  `DAA` brings the sum or the difference of two
such bytes back to two digits.

* **Digits.**  `Radix.packed` is the way of writing numbers by bytes of two decimal digits.
* **Adjustment.**  `adjusted` is an operation followed by `DAA`.  What `DAA` adds or takes away
  depends on the carries out of both nibbles, which the flags show (`has_half_add`,
  `has_half_sub`), and on the nibbles themselves (`toNat_decimalAdjust`).
* **Numbers.**  So an adjusted operation is right for a byte (`combines_adjusted_adc`,
  `combines_adjusted_sbc`), and a chain of them for numbers of any length (`decimal_chains`). -/

namespace MasterSystem.Z80

/-! ### Digits -/

/-- Bytes of two decimal digits, the high nibble being the tens. -/
def Radix.packed : Radix where
  base := 100
  Valid b := b.toNat / 16 ≤ 9 ∧ b.toNat % 16 ≤ 9
  value b := 10 * (b.toNat / 16) + b.toNat % 16
  one_lt := by decide
  value_lt b h := by omega
  value_inj b c hb hc h := by
    apply UInt8.toNat_inj.1
    omega

instance : DecidablePred Radix.packed.Valid := fun b =>
  inferInstanceAs (Decidable (b.toNat / 16 ≤ 9 ∧ b.toNat % 16 ≤ 9))

/-! ### Half carries -/

theorem has_half (x : UInt8) : Flag.has x Flag.half = decide (x.toNat / 16 % 2 = 1) := by
  have hbit : (x &&& Flag.half).toNat = (x.toNat.testBit 4).toNat * 2 ^ 4 :=
    Nat.and_two_pow x.toNat 4
  rw [← show x.toNat.testBit 4 = decide (x.toNat / 16 % 2 = 1) from
    Nat.testBit_eq_decide_div_mod_eq]
  unfold Flag.has
  rw [Bool.eq_iff_iff, bne_iff_ne, ne_eq, ← UInt8.toNat_inj, hbit]
  cases x.toNat.testBit 4 <;> decide

/-- Bit 4 of the exclusive or of three bytes is the parity of their high nibbles. -/
theorem has_half_xor (a v r : UInt8) : Flag.has (a ^^^ v ^^^ r) Flag.half =
    decide ((a.toNat / 16 + v.toNat / 16 + r.toNat / 16) % 2 = 1) := by
  have hdiv : (a.toNat ^^^ v.toNat ^^^ r.toNat) / 16 =
      a.toNat / 16 ^^^ v.toNat / 16 ^^^ r.toNat / 16 := by
    rw [show 16 = 2 ^ 4 by decide, Nat.xor_div_two_pow, Nat.xor_div_two_pow]
  rw [has_half, UInt8.toNat_xor, UInt8.toNat_xor, hdiv, Nat.xor_mod_two_eq, Nat.add_mod,
    Nat.xor_mod_two_eq, ← Nat.add_mod]

theorem has_half_add (a v : UInt8) (c : Bool) : Flag.has (add a v c).flags Flag.half =
    decide (16 ≤ a.toNat % 16 + v.toNat % 16 + c.toNat) := by
  have hr := toNat_add a v c
  have hc := c.toNat_le
  rw [has_add a v c (by decide), show Flag.half &&& Flag.half = Flag.half by decide,
    show Flag.has Flag.zero Flag.half = false by decide,
    show Flag.has Flag.carry Flag.half = false by decide,
    show Flag.has Flag.parity Flag.half = false by decide, Bool.and_false, Bool.and_false,
    Bool.and_false, Bool.or_false, Bool.or_false, Bool.false_or, has_half_xor, hr,
    decide_eq_decide]
  omega

theorem has_half_sub (a v : UInt8) (c : Bool) : Flag.has (sub a v c).flags Flag.half =
    decide (a.toNat % 16 < v.toNat % 16 + c.toNat) := by
  have hr := toNat_sub a v c
  have hv := v.toNat_lt
  have hc := c.toNat_le
  rw [has_sub a v c (by decide), show Flag.half &&& Flag.half = Flag.half by decide,
    show Flag.has Flag.subtract Flag.half = false by decide,
    show Flag.has Flag.zero Flag.half = false by decide,
    show Flag.has Flag.carry Flag.half = false by decide,
    show Flag.has Flag.parity Flag.half = false by decide, Bool.and_false, Bool.and_false,
    Bool.and_false, Bool.or_false, Bool.or_false, Bool.false_or, Bool.false_or, has_half_xor, hr,
    decide_eq_decide]
  omega

theorem has_subtract_add (a v : UInt8) (c : Bool) :
    Flag.has (add a v c).flags Flag.subtract = false := by
  rw [has_add a v c (by decide), show Flag.half &&& Flag.subtract = 0 by decide, Flag.has_none,
    show Flag.has Flag.zero Flag.subtract = false by decide,
    show Flag.has Flag.carry Flag.subtract = false by decide,
    show Flag.has Flag.parity Flag.subtract = false by decide, Bool.and_false, Bool.and_false,
    Bool.and_false]
  rfl

theorem has_subtract_sub (a v : UInt8) (c : Bool) :
    Flag.has (sub a v c).flags Flag.subtract = true := by
  rw [has_sub a v c (by decide), show Flag.has Flag.subtract Flag.subtract = true by decide]
  simp only [Bool.true_or]

/-! ### Adjustment -/

theorem nine_lt_nibble (a : UInt8) : 9 < a &&& 0x0F ↔ 9 < a.toNat % 16 := by
  have hmod : (a &&& 0x0F).toNat = a.toNat % 16 := Nat.and_two_pow_sub_one_eq_mod a.toNat 4
  rw [UInt8.lt_iff_toNat_lt, hmod]
  rfl

/-- What `DAA` brings the accumulator up or down by. -/
def correction (a f : UInt8) : ℕ :=
  (if Flag.has f Flag.half = true ∨ 9 < a.toNat % 16 then 0x06 else 0) +
    (if Flag.has f Flag.carry = true ∨ 0x99 < a.toNat then 0x60 else 0)

theorem toNat_decimalAdjust (a f : UInt8) : (decimalAdjust a f).value.toNat =
    if Flag.has f Flag.subtract then (a.toNat + 256 - correction a f) % 256
    else (a.toNat + correction a f) % 256 := by
  obtain ⟨c, hvalue, hc⟩ : ∃ c : UInt8, (decimalAdjust a f).value =
      (if Flag.has f Flag.subtract then a - c else a + c) ∧ c.toNat = correction a f := by
    refine ⟨_, rfl, ?_⟩
    have hlow : (Flag.has f Flag.half || decide (9 < a &&& 0x0F)) = true ↔
        Flag.has f Flag.half = true ∨ 9 < a.toNat % 16 := by
      rw [Bool.or_eq_true, decide_eq_true_iff, nine_lt_nibble]
    have hhigh : (Flag.has f Flag.carry || decide (0x99 < a)) = true ↔
        Flag.has f Flag.carry = true ∨ 0x99 < a.toNat := by
      rw [Bool.or_eq_true, decide_eq_true_iff, UInt8.lt_iff_toNat_lt]
      rfl
    unfold correction
    simp only [gt_iff_lt, hlow, hhigh]
    split <;> split <;> rfl
  have hle : correction a f ≤ 256 := hc ▸ Nat.le_of_lt c.toNat_lt
  rw [hvalue]
  split
  · rw [UInt8.toNat_sub, hc]
    omega
  · rw [UInt8.toNat_add, hc]

theorem has_carry_decimalAdjust (a f : UInt8) : Flag.has (decimalAdjust a f).flags Flag.carry =
    (Flag.has f Flag.carry || decide (0x99 < a.toNat)) := by
  have hlt : decide (0x99 < a) = decide (0x99 < a.toNat) := by
    rw [decide_eq_decide, UInt8.lt_iff_toNat_lt]
    rfl
  unfold decimalAdjust
  simp only [logicFlags_eq, Flag.has_or, Flag.has_and, Flag.has_mark, gt_iff_lt, hlt]
  rw [has_signZero (by decide), show Flag.has Flag.zero Flag.carry = false by decide,
    show Flag.has Flag.parity Flag.carry = false by decide,
    show Flag.subtract &&& Flag.carry = 0 by decide, Flag.has_none,
    show Flag.has Flag.half Flag.carry = false by decide,
    show Flag.has Flag.carry Flag.carry = true by decide]
  simp only [Bool.and_false, Bool.and_true, Bool.or_false, Bool.false_or]

/-- The accumulator and the flags after an operation and `DAA`. -/
def adjusted (op : Operation) (a f v : UInt8) : Flagged UInt8 :=
  decimalAdjust (op.apply a f v).value (op.apply a f v).flags

/-- An instruction on the accumulator with `DAA` after it. -/
theorem exec_adjusted {β : Type} [Bus β] (op : Operation) (o : Operand) (i : Index)
    (z : Processor β) :
    let v := z.operand o i
    (Processor.exec .daa i (Processor.exec (.operate op o) i z).1).1 =
      v.2.setResult (adjusted op v.2.regs.a v.2.regs.f v.1) := by
  cases o <;> rfl

/-- A result of two decimal digits and a carry. -/
structure Decimal (r : Flagged UInt8) (tens ones carry : ℕ) : Prop where
  tens_le : tens ≤ 9
  ones_le : ones ≤ 9
  carry_le : carry ≤ 1
  value : r.value.toNat = 16 * tens + ones
  flag : Flag.has r.flags Flag.carry = decide (carry = 1)

namespace Decimal

variable {r : Flagged UInt8} {tens ones carry : ℕ}

theorem valid (h : Decimal r tens ones carry) : Radix.packed.Valid r.value := by
  obtain ⟨htens, hones, -, hvalue, -⟩ := h
  show r.value.toNat / 16 ≤ 9 ∧ r.value.toNat % 16 ≤ 9
  omega

theorem value_eq (h : Decimal r tens ones carry) :
    Radix.packed.value r.value = 10 * tens + ones := by
  obtain ⟨-, hones, -, hvalue, -⟩ := h
  show 10 * (r.value.toNat / 16) + r.value.toNat % 16 = 10 * tens + ones
  omega

theorem carried_eq (h : Decimal r tens ones carry) : carried r.flags = carry := by
  have hle := h.carry_le
  rw [carried_of_has h.flag]
  by_cases hcarry : carry = 1
  · rw [decide_eq_true hcarry, hcarry, Bool.toNat_true]
  · rw [decide_eq_false hcarry, Bool.toNat_false]
    omega

end Decimal

/-- `ADC` and `DAA` add two digits each as on paper. -/
theorem adjusted_adc {a v : UInt8} (ha : Radix.packed.Valid a) (hv : Radix.packed.Valid v)
    (f : UInt8) : ∃ tens ones carry, Decimal (adjusted .adc a f v) tens ones carry ∧
      100 * carry + (10 * tens + ones) =
        Radix.packed.value a + Radix.packed.value v + carried f := by
  obtain ⟨c, hc⟩ : ∃ c, Flag.has f Flag.carry = c := ⟨_, rfl⟩
  have hcle := c.toNat_le
  have hr : adjusted .adc a f v = decimalAdjust (add a v c).value (add a v c).flags := by
    rw [← hc]
    rfl
  obtain ⟨ha1, ha0⟩ : a.toNat / 16 ≤ 9 ∧ a.toNat % 16 ≤ 9 := ha
  obtain ⟨hv1, hv0⟩ : v.toNat / 16 ≤ 9 ∧ v.toNat % 16 ≤ 9 := hv
  -- the carries out of the ones and out of the tens
  obtain ⟨k, ones, hk, hones, hlow⟩ : ∃ k ones, k ≤ 1 ∧ ones ≤ 9 ∧
      a.toNat % 16 + v.toNat % 16 + c.toNat = 10 * k + ones :=
    ⟨(a.toNat % 16 + v.toNat % 16 + c.toNat) / 10, _, by omega, by omega,
      (Nat.div_add_mod ..).symm⟩
  obtain ⟨carry, tens, hcarry, htens, hhigh⟩ : ∃ carry tens, carry ≤ 1 ∧ tens ≤ 9 ∧
      a.toNat / 16 + v.toNat / 16 + k = 10 * carry + tens :=
    ⟨(a.toNat / 16 + v.toNat / 16 + k) / 10, _, by omega, by omega, (Nat.div_add_mod ..).symm⟩
  have htotal : a.toNat + v.toNat + c.toNat + 6 * k = 160 * carry + 16 * tens + ones := by omega
  have hlowOut : (16 ≤ a.toNat % 16 + v.toNat % 16 + c.toNat ∨
      9 < (a.toNat + v.toNat + c.toNat) % 256 % 16) ↔ k = 1 := by omega
  have hhighOut : (256 ≤ a.toNat + v.toNat + c.toNat ∨
      0x99 < (a.toNat + v.toNat + c.toNat) % 256) ↔ carry = 1 := by omega
  refine ⟨tens, ones, carry, ⟨htens, hones, hcarry, ?_, ?_⟩, ?_⟩
  · rw [hr, toNat_decimalAdjust, has_subtract_add, if_neg Bool.false_ne_true]
    unfold correction
    rw [has_half_add, has_carry_add, toNat_add]
    simp only [decide_eq_true_eq, hlowOut, hhighOut]
    split <;> split <;> omega
  · rw [hr, has_carry_decimalAdjust, has_carry_add, toNat_add, ← Bool.decide_or, decide_eq_decide]
    exact hhighOut
  · rw [carried_of_has hc]
    show _ = 10 * (a.toNat / 16) + a.toNat % 16 + (10 * (v.toNat / 16) + v.toNat % 16) + c.toNat
    omega

/-- `SBC` and `DAA` subtract two digits each as on paper. -/
theorem adjusted_sbc {a v : UInt8} (ha : Radix.packed.Valid a) (hv : Radix.packed.Valid v)
    (f : UInt8) : ∃ tens ones carry, Decimal (adjusted .sbc a f v) tens ones carry ∧
      10 * tens + ones + (Radix.packed.value v + carried f) =
        Radix.packed.value a + 100 * carry := by
  obtain ⟨c, hc⟩ : ∃ c, Flag.has f Flag.carry = c := ⟨_, rfl⟩
  have hcle := c.toNat_le
  have hr : adjusted .sbc a f v = decimalAdjust (sub a v c).value (sub a v c).flags := by
    rw [← hc]
    rfl
  obtain ⟨ha1, ha0⟩ : a.toNat / 16 ≤ 9 ∧ a.toNat % 16 ≤ 9 := ha
  obtain ⟨hv1, hv0⟩ : v.toNat / 16 ≤ 9 ∧ v.toNat % 16 ≤ 9 := hv
  -- the borrows of the ones and of the tens
  obtain ⟨k, ones, hk, hones, hlow⟩ : ∃ k ones, k ≤ 1 ∧ ones ≤ 9 ∧
      ones + v.toNat % 16 + c.toNat = 10 * k + a.toNat % 16 := by
    by_cases h : a.toNat % 16 < v.toNat % 16 + c.toNat
    · exact ⟨1, 10 + a.toNat % 16 - v.toNat % 16 - c.toNat, by omega⟩
    · exact ⟨0, a.toNat % 16 - v.toNat % 16 - c.toNat, by omega⟩
  obtain ⟨carry, tens, hcarry, htens, hhigh⟩ : ∃ carry tens, carry ≤ 1 ∧ tens ≤ 9 ∧
      tens + v.toNat / 16 + k = 10 * carry + a.toNat / 16 := by
    by_cases h : a.toNat / 16 < v.toNat / 16 + k
    · exact ⟨1, 10 + a.toNat / 16 - v.toNat / 16 - k, by omega⟩
    · exact ⟨0, a.toNat / 16 - v.toNat / 16 - k, by omega⟩
  have htotal : a.toNat + 160 * carry = v.toNat + c.toNat + 16 * tens + ones + 6 * k := by omega
  have hlowOut : (a.toNat % 16 < v.toNat % 16 + c.toNat ∨
      9 < (a.toNat + 512 - v.toNat - c.toNat) % 256 % 16) ↔ k = 1 := by omega
  have hhighOut : (a.toNat < v.toNat + c.toNat ∨
      0x99 < (a.toNat + 512 - v.toNat - c.toNat) % 256) ↔ carry = 1 := by omega
  refine ⟨tens, ones, carry, ⟨htens, hones, hcarry, ?_, ?_⟩, ?_⟩
  · rw [hr, toNat_decimalAdjust, has_subtract_sub, if_pos rfl]
    unfold correction
    rw [has_half_sub, has_carry_sub, toNat_sub]
    simp only [decide_eq_true_eq, hlowOut, hhighOut]
    split <;> split <;> omega
  · rw [hr, has_carry_decimalAdjust, has_carry_sub, toNat_sub, ← Bool.decide_or, decide_eq_decide]
    exact hhighOut
  · rw [carried_of_has hc]
    show 10 * tens + ones + (10 * (v.toNat / 16) + v.toNat % 16 + c.toNat) =
      10 * (a.toNat / 16) + a.toNat % 16 + 100 * carry
    omega

/-! ### Numbers -/

theorem combines_adjusted_adc : Combines .packed 1 (adjusted .adc) where
  valid a f v ha hv := by
    obtain ⟨tens, ones, carry, hdecimal, -⟩ := adjusted_adc ha hv f
    exact hdecimal.valid
  balance a f v ha hv := by
    obtain ⟨tens, ones, carry, hdecimal, hbalance⟩ := adjusted_adc ha hv f
    rw [hdecimal.value_eq, hdecimal.carried_eq, show Radix.packed.base = 100 from rfl]
    push_cast
    zify at hbalance
    linear_combination hbalance

theorem combines_adjusted_sbc : Combines .packed (-1) (adjusted .sbc) where
  valid a f v ha hv := by
    obtain ⟨tens, ones, carry, hdecimal, -⟩ := adjusted_sbc ha hv f
    exact hdecimal.valid
  balance a f v ha hv := by
    obtain ⟨tens, ones, carry, hdecimal, hbalance⟩ := adjusted_sbc ha hv f
    rw [hdecimal.value_eq, hdecimal.carried_eq, show Radix.packed.base = 100 from rfl]
    push_cast
    zify at hbalance
    linear_combination hbalance

/-- **Packed decimal numbers of any length are added and subtracted a byte at a time.**  Each byte
is adjusted by `DAA` before the next is taken, and its carry goes on to that; in the end it shows
that the sum has a digit more, or that the difference is negative. -/
theorem decimal_chains {n x y : ℕ} {xs ys : List UInt8} (hx : Radix.packed.Writes n xs x)
    (hy : Radix.packed.Writes n ys y) (f : UInt8) :
    let sum := chain (adjusted .adc) f xs ys
    let difference := chain (adjusted .sbc) f xs ys
    (∀ {β : Type} [Bus β] (op : Operation) (o : Operand) (i : Index) (z : Processor β),
        let v := z.operand o i
        (Processor.exec .daa i (Processor.exec (.operate op o) i z).1).1 =
          v.2.setResult (adjusted op v.2.regs.a v.2.regs.f v.1)) ∧
      Radix.packed.Writes n sum.value ((x + y + carried f) % 100 ^ n) ∧
      (Flag.has sum.flags Flag.carry = true ↔ 100 ^ n ≤ x + y + carried f) ∧
      Radix.packed.Writes n difference.value (((x : ℤ) - y - carried f) % 100 ^ n).toNat ∧
      (Flag.has difference.flags Flag.carry = true ↔ x < y + carried f) := by
  intro sum difference
  obtain ⟨hsum, hover⟩ := combines_adjusted_adc.sum hx hy f
  obtain ⟨hdifference, hunder⟩ := combines_adjusted_sbc.difference hx hy f
  exact ⟨exec_adjusted, hsum, by rw [hover, decide_eq_true_iff]; rfl, hdifference,
    by rw [hunder, decide_eq_true_iff]⟩

/-- 9999 and 1 in two bytes: the sum has a digit more, and the difference of 1 and 9999 is
negative. -/
theorem decimal_chains_of_9999 :
    Radix.packed.Writes 2 [0x99, 0x99] 9999 ∧ Radix.packed.Writes 2 [0x01, 0x00] 1 ∧
      (chain (adjusted .adc) 0 [0x99, 0x99] [0x01, 0x00]).value = [0x00, 0x00] ∧
      Flag.has (chain (adjusted .adc) 0 [0x99, 0x99] [0x01, 0x00]).flags Flag.carry = true ∧
      (chain (adjusted .sbc) 0 [0x01, 0x00] [0x99, 0x99]).value = [0x02, 0x00] ∧
      Flag.has (chain (adjusted .sbc) 0 [0x01, 0x00] [0x99, 0x99]).flags Flag.carry = true := by
  have hvalid {a b : UInt8} (ha : Radix.packed.Valid a) (hb : Radix.packed.Valid b) :
      ∀ c ∈ [a, b], Radix.packed.Valid c :=
    List.forall_mem_cons.2 ⟨ha, List.forall_mem_singleton.2 hb⟩
  have hlarge : Radix.packed.Writes 2 [0x99, 0x99] 9999 :=
    ⟨rfl, hvalid (by decide) (by decide), by decide⟩
  have hsmall : Radix.packed.Writes 2 [0x01, 0x00] 1 :=
    ⟨rfl, hvalid (by decide) (by decide), by decide⟩
  have hzero : Radix.packed.Writes 2 [0x00, 0x00] 0 :=
    ⟨rfl, hvalid (by decide) (by decide), by decide⟩
  have htwo : Radix.packed.Writes 2 [0x02, 0x00] 2 :=
    ⟨rfl, hvalid (by decide) (by decide), by decide⟩
  obtain ⟨-, hsum, hover, -, -⟩ := decimal_chains hlarge hsmall 0
  obtain ⟨-, -, -, hdifference, hunder⟩ := decimal_chains hsmall hlarge 0
  exact ⟨hlarge, hsmall, hsum.unique hzero, hover.2 (by decide), hdifference.unique htwo,
    hunder.2 (by decide)⟩

end MasterSystem.Z80
