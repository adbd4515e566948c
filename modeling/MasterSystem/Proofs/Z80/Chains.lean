import Mathlib.Data.Nat.Digits.Lemmas
import Mathlib.Tactic.LinearCombination
import MasterSystem.Z80.Execute

/-! # Carry chains

A number of many bytes is added or subtracted a byte at a time, the least significant first, and
the carry flag goes from each byte to the next.

* **Digits.**  A `Radix` says which bytes are digits and what they are worth, and `Writes` that a
  list of bytes is a number of so many digits.
* **Chains.**  `chain` runs an operation along two numbers.  If it is right for one digit
  (`Combines`), then the chain is right for numbers of any length (`Combines.sum`,
  `Combines.difference`).
* **Bytes.**  `ADC` and `SBC` are right for one byte (`combines_adc`, `combines_sbc`).
* **Words.**  The instructions on words are written apart from those on bytes, but each does what a
  chain of two bytes does, but for the zero flag (`carry_chains`). -/

namespace MasterSystem.Z80

/-! ### Digits -/

/-- The carry flag as a number. -/
def carried (f : UInt8) : ℕ := (Flag.has f Flag.carry).toNat

theorem carried_le (f : UInt8) : carried f ≤ 1 := Bool.toNat_le _

theorem carried_of_has {f : UInt8} {c : Bool} (h : Flag.has f Flag.carry = c) :
    carried f = c.toNat := congrArg Bool.toNat h

/-- A way of writing numbers with a byte for each digit. -/
structure Radix where
  /-- How many digits there are. -/
  base : ℕ
  /-- Whether a byte is a digit. -/
  Valid : UInt8 → Prop
  /-- What the digit is worth. -/
  value : UInt8 → ℕ
  one_lt : 1 < base
  value_lt : ∀ b, Valid b → value b < base
  value_inj : ∀ b c, Valid b → Valid c → value b = value c → b = c

namespace Radix

variable (d : Radix)

/-- The number that a list of digits stands for, the least significant first. -/
def number (l : List UInt8) : ℕ := Nat.ofDigits d.base (l.map d.value)

theorem number_cons (b : UInt8) (l : List UInt8) :
    d.number (b :: l) = d.value b + d.base * d.number l := Nat.ofDigits_cons ..

/-- The list is the number `x`, written with `n` digits. -/
structure Writes (n : ℕ) (l : List UInt8) (x : ℕ) : Prop where
  length : l.length = n
  valid : ∀ b ∈ l, d.Valid b
  number : d.number l = x

variable {d} {n x y : ℕ} {l xs ys : List UInt8}

theorem Writes.lt (h : d.Writes n l x) : x < d.base ^ n := by
  have hlt := Nat.ofDigits_lt_base_pow_length (l := l.map d.value) d.one_lt (by
    intro v hv
    obtain ⟨b, hb, rfl⟩ := List.mem_map.1 hv
    exact d.value_lt b (h.valid b hb))
  rw [List.length_map, h.length] at hlt
  exact h.number ▸ hlt

theorem Writes.eq_zero (h : d.Writes 0 l x) : l = [] ∧ x = 0 := by
  obtain rfl := List.eq_nil_of_length_eq_zero h.length
  exact ⟨rfl, h.number.symm⟩

/-- A number of more than no digits has a least significant one. -/
theorem Writes.succ (h : d.Writes (n + 1) l x) : ∃ b t y, l = b :: t ∧ d.Valid b ∧
    d.Writes n t y ∧ x = d.value b + d.base * y := by
  cases l with
  | nil => exact absurd h.length (Nat.succ_ne_zero n).symm
  | cons b t =>
      refine ⟨b, t, d.number t, rfl, h.valid b List.mem_cons_self,
        ⟨Nat.succ.inj h.length, fun c hc => h.valid c (List.mem_cons_of_mem b hc), rfl⟩, ?_⟩
      rw [← h.number, number_cons]

theorem Writes.cons {b : UInt8} (hb : d.Valid b) (h : d.Writes n l x) :
    d.Writes (n + 1) (b :: l) (d.value b + d.base * x) where
  length := congrArg (· + 1) h.length
  valid c hc := by
    rcases List.mem_cons.1 hc with rfl | hc
    · exact hb
    · exact h.valid c hc
  number := by rw [number_cons, h.number]

/-- A number is written with so many digits in one way only. -/
theorem Writes.unique (hl : d.Writes n xs x) (hr : d.Writes n ys x) : xs = ys := by
  induction n generalizing xs ys x with
  | zero => rw [hl.eq_zero.1, hr.eq_zero.1]
  | succ n ih =>
      obtain ⟨a, xs, x, rfl, ha, hxs, rfl⟩ := hl.succ
      obtain ⟨b, ys, y, rfl, hb, hys, hxy⟩ := hr.succ
      have hvalue : d.value a = d.value b := by
        have hmod := congrArg (· % d.base) hxy
        simpa [Nat.mod_eq_of_lt (d.value_lt a ha), Nat.mod_eq_of_lt (d.value_lt b hb)] using hmod
      obtain rfl := d.value_inj a b ha hb hvalue
      have hrest : d.base * x = d.base * y := Nat.add_left_cancel hxy
      obtain rfl := Nat.eq_of_mul_eq_mul_left (Nat.zero_lt_of_lt d.one_lt) hrest
      rw [ih hxs hys]

end Radix

/-! ### Chains -/

/-- The digits of two numbers taken together by an operation, from the least significant on, each
with the flags that the one before it has left.  The operation is given a digit of the first
number, the flags and a digit of the second. -/
def chain (op : UInt8 → UInt8 → UInt8 → Flagged UInt8) (f : UInt8) :
    List UInt8 → List UInt8 → Flagged (List UInt8)
  | x :: xs, y :: ys =>
    let digit := op x f y
    let rest := chain op digit.flags xs ys
    ⟨digit.value :: rest.value, rest.flags⟩
  | _, _ => ⟨[], f⟩

/-- The operation takes the second digit and the carry `sign` times to the first digit, and the
carry that it leaves makes up for what does not fit. -/
structure Combines (d : Radix) (sign : ℤ) (op : UInt8 → UInt8 → UInt8 → Flagged UInt8) :
    Prop where
  valid : ∀ x f y, d.Valid x → d.Valid y → d.Valid (op x f y).value
  balance : ∀ x f y, d.Valid x → d.Valid y →
    (d.value (op x f y).value : ℤ) + sign * d.base * carried (op x f y).flags =
      d.value x + sign * (d.value y + carried f)

namespace Combines

variable {d : Radix} {sign : ℤ} {op : UInt8 → UInt8 → UInt8 → Flagged UInt8}

/-- What is right for a digit is right for a number. -/
theorem chained (h : Combines d sign op) {n x y : ℕ} {xs ys : List UInt8}
    (hx : d.Writes n xs x) (hy : d.Writes n ys y) (f : UInt8) :
    ∃ r, d.Writes n (chain op f xs ys).value r ∧
      (r : ℤ) + sign * d.base ^ n * carried (chain op f xs ys).flags =
        x + sign * (y + carried f) := by
  induction n generalizing xs ys x y f with
  | zero =>
      obtain ⟨rfl, rfl⟩ := hx.eq_zero
      obtain ⟨rfl, rfl⟩ := hy.eq_zero
      refine ⟨0, ⟨rfl, by simp [chain], rfl⟩, ?_⟩
      simp [chain]
  | succ n ih =>
      obtain ⟨a, xs, x, rfl, ha, hxs, rfl⟩ := hx.succ
      obtain ⟨b, ys, y, rfl, hb, hys, rfl⟩ := hy.succ
      obtain ⟨r, hr, hrest⟩ := ih hxs hys (op a f b).flags
      refine ⟨_, hr.cons (h.valid a f b ha hb), ?_⟩
      have hdigit := h.balance a f b ha hb
      simp only [chain]
      push_cast
      linear_combination hdigit + (d.base : ℤ) * hrest

/-- Adding digits adds numbers; the carry shows that the sum does not fit. -/
theorem sum (h : Combines d 1 op) {n x y : ℕ} {xs ys : List UInt8} (hx : d.Writes n xs x)
    (hy : d.Writes n ys y) (f : UInt8) :
    d.Writes n (chain op f xs ys).value ((x + y + carried f) % d.base ^ n) ∧
      Flag.has (chain op f xs ys).flags Flag.carry = decide (d.base ^ n ≤ x + y + carried f) := by
  obtain ⟨r, hr, hbalance⟩ := h.chained hx hy f
  have hlt := hr.lt
  have hsum : x + y + carried f = r + d.base ^ n * carried (chain op f xs ys).flags := by
    zify
    linear_combination -hbalance
  rw [hsum, Nat.add_mul_mod_self_left, Nat.mod_eq_of_lt hlt]
  refine ⟨hr, ?_⟩
  cases hc : Flag.has (chain op f xs ys).flags Flag.carry
  · rw [carried_of_has hc]
    simpa using hlt
  · rw [carried_of_has hc]
    simp

/-- Subtracting digits subtracts numbers; the carry shows that the difference is negative. -/
theorem difference (h : Combines d (-1) op) {n x y : ℕ} {xs ys : List UInt8}
    (hx : d.Writes n xs x) (hy : d.Writes n ys y) (f : UInt8) :
    d.Writes n (chain op f xs ys).value (((x : ℤ) - y - carried f) % d.base ^ n).toNat ∧
      Flag.has (chain op f xs ys).flags Flag.carry = decide (x < y + carried f) := by
  obtain ⟨r, hr, hbalance⟩ := h.chained hx hy f
  have hlt : (r : ℤ) < d.base ^ n := by exact_mod_cast hr.lt
  have hdifference : (x : ℤ) - y - carried f =
      r + d.base ^ n * -(carried (chain op f xs ys).flags : ℤ) := by
    linear_combination -hbalance
  refine ⟨?_, ?_⟩
  · rw [hdifference, Int.add_mul_emod_self_left, Int.emod_eq_of_lt (Int.natCast_nonneg r) hlt]
    exact hr
  · cases hc : Flag.has (chain op f xs ys).flags Flag.carry
    · rw [carried_of_has hc] at hdifference
      rw [Bool.toNat_false, Nat.cast_zero, neg_zero, mul_zero] at hdifference
      symm
      rw [decide_eq_false_iff_not]
      omega
    · rw [carried_of_has hc] at hdifference
      rw [Bool.toNat_true, Nat.cast_one, mul_neg, mul_one] at hdifference
      symm
      rw [decide_eq_true_iff]
      omega

end Combines

/-! ### Bytes -/

/-- Every byte is a digit. -/
def Radix.bytes : Radix where
  base := 256
  Valid _ := True
  value := UInt8.toNat
  one_lt := by decide
  value_lt b _ := b.toNat_lt
  value_inj _ _ _ _ h := UInt8.toNat_inj.1 h

theorem toNat_toUInt8 (c : Bool) : c.toUInt8.toNat = c.toNat := by cases c <;> rfl

theorem toNat_add (a v : UInt8) (c : Bool) :
    (add a v c).value.toNat = (a.toNat + v.toNat + c.toNat) % 256 := by
  show (a + v + c.toUInt8).toNat = _
  rw [UInt8.toNat_add, UInt8.toNat_add, toNat_toUInt8]
  omega

theorem toNat_sub (a v : UInt8) (c : Bool) :
    (sub a v c).value.toNat = (a.toNat + 512 - v.toNat - c.toNat) % 256 := by
  have ha := a.toNat_lt
  have hv := v.toNat_lt
  have hc := c.toNat_le
  show (a - v - c.toUInt8).toNat = _
  rw [UInt8.toNat_sub, UInt8.toNat_sub, toNat_toUInt8]
  omega

/-- The flags of an addition under a mask without sign and copied bits. -/
theorem has_add (a v : UInt8) (c : Bool) {mask : UInt8} (h : 0xA8 &&& mask = 0) :
    Flag.has (add a v c).flags mask =
      ((add a v c).value == 0 && Flag.has Flag.zero mask
        || Flag.has (a ^^^ v ^^^ (add a v c).value) (Flag.half &&& mask)
        || decide (256 ≤ a.toNat + v.toNat + c.toNat) && Flag.has Flag.carry mask
        || (a ^^^ ~~~v) &&& (a ^^^ (add a v c).value) &&& 0x80 != 0 &&
          Flag.has Flag.parity mask) := by
  rw [← has_signZero h, ← Flag.has_and, ← Flag.has_mark, ← Flag.has_mark, ← Flag.has_or,
    ← Flag.has_or, ← Flag.has_or]
  rfl

/-- The flags of a subtraction under such a mask. -/
theorem has_sub (a v : UInt8) (c : Bool) {mask : UInt8} (h : 0xA8 &&& mask = 0) :
    Flag.has (sub a v c).flags mask =
      (Flag.has Flag.subtract mask
        || (sub a v c).value == 0 && Flag.has Flag.zero mask
        || Flag.has (a ^^^ v ^^^ (sub a v c).value) (Flag.half &&& mask)
        || decide (a.toNat < v.toNat + c.toNat) && Flag.has Flag.carry mask
        || (a ^^^ v) &&& (a ^^^ (sub a v c).value) &&& 0x80 != 0 &&
          Flag.has Flag.parity mask) := by
  rw [← has_signZero h, ← Flag.has_and, ← Flag.has_mark, ← Flag.has_mark, ← Flag.has_or,
    ← Flag.has_or, ← Flag.has_or, ← Flag.has_or]
  rfl

theorem has_carry_add (a v : UInt8) (c : Bool) :
    Flag.has (add a v c).flags Flag.carry = decide (256 ≤ a.toNat + v.toNat + c.toNat) := by
  rw [has_add a v c (by decide), show Flag.half &&& Flag.carry = 0 by decide, Flag.has_none,
    show Flag.has Flag.zero Flag.carry = false by decide,
    show Flag.has Flag.carry Flag.carry = true by decide,
    show Flag.has Flag.parity Flag.carry = false by decide, Bool.and_false, Bool.and_false,
    Bool.and_true, Bool.or_false, Bool.or_false, Bool.false_or]

theorem has_carry_sub (a v : UInt8) (c : Bool) :
    Flag.has (sub a v c).flags Flag.carry = decide (a.toNat < v.toNat + c.toNat) := by
  rw [has_sub a v c (by decide), show Flag.half &&& Flag.carry = 0 by decide, Flag.has_none,
    show Flag.has Flag.subtract Flag.carry = false by decide,
    show Flag.has Flag.zero Flag.carry = false by decide,
    show Flag.has Flag.carry Flag.carry = true by decide,
    show Flag.has Flag.parity Flag.carry = false by decide, Bool.and_false, Bool.and_false,
    Bool.and_true, Bool.or_false, Bool.or_false, Bool.or_false, Bool.false_or]

theorem combines_adc : Combines .bytes 1 Operation.adc.apply where
  valid _ _ _ _ _ := trivial
  balance a f v _ _ := by
    have ha := a.toNat_lt
    have hv := v.toNat_lt
    have hc := (Flag.has f Flag.carry).toNat_le
    show ((add a v (Flag.has f Flag.carry)).value.toNat : ℤ) +
      1 * (256 : ℕ) * carried (add a v (Flag.has f Flag.carry)).flags =
        a.toNat + 1 * (v.toNat + (Flag.has f Flag.carry).toNat)
    rw [toNat_add, carried_of_has (has_carry_add ..)]
    by_cases h : 256 ≤ a.toNat + v.toNat + (Flag.has f Flag.carry).toNat
    · simp only [h, decide_true, Bool.toNat_true]
      omega
    · simp only [h, decide_false, Bool.toNat_false]
      omega

theorem combines_sbc : Combines .bytes (-1) Operation.sbc.apply where
  valid _ _ _ _ _ := trivial
  balance a f v _ _ := by
    have ha := a.toNat_lt
    have hv := v.toNat_lt
    have hc := (Flag.has f Flag.carry).toNat_le
    show ((sub a v (Flag.has f Flag.carry)).value.toNat : ℤ) +
      -1 * (256 : ℕ) * carried (sub a v (Flag.has f Flag.carry)).flags =
        a.toNat + -1 * (v.toNat + (Flag.has f Flag.carry).toNat)
    rw [toNat_sub, carried_of_has (has_carry_sub ..)]
    by_cases h : a.toNat < v.toNat + (Flag.has f Flag.carry).toNat
    · simp only [h, decide_true, Bool.toNat_true]
      omega
    · simp only [h, decide_false, Bool.toNat_false]
      omega

/-! ### Words -/

/-- The bytes of a word, the low one first. -/
def bytesOf (w : UInt16) : List UInt8 := [Word.low w, Word.high w]

theorem writes_bytesOf (w : UInt16) : Radix.bytes.Writes 2 (bytesOf w) w.toNat where
  length := rfl
  valid _ _ := trivial
  number := by
    show (Word.low w).toNat + 256 * ((Word.high w).toNat + 256 * 0) = w.toNat
    rw [Word.toNat_high, Word.toNat_low]
    omega

theorem toNat_and_carry (f : UInt8) : (f &&& Flag.carry).toNat = carried f := by
  have hmod : (f &&& Flag.carry).toNat = f.toNat % 2 := Nat.and_one_is_mod f.toNat
  unfold carried Flag.has
  rw [hmod]
  cases h : f &&& Flag.carry != 0
  · rw [bne_eq_false_iff_eq, ← UInt8.toNat_inj, hmod] at h
    exact h
  · rw [bne_iff_ne, ne_eq, ← UInt8.toNat_inj, hmod, UInt8.toNat_zero] at h
    show f.toNat % 2 = 1
    omega

/-- The top bit of a word is that of its high byte. -/
theorem top_bne (w : UInt16) : (w &&& 0x8000 != 0) = (Word.high w &&& 0x80 != 0) := by
  have hhigh : Word.high (w &&& 0x8000) = Word.high w &&& 0x80 := Word.high_and ..
  have hlow : Word.low (w &&& 0x8000) = 0 := by
    show (w &&& 0x8000).toUInt8 = 0
    rw [UInt16.toUInt8_and]
    exact UInt8.and_zero
  have hword := Word.ofBytes_high_low (w &&& 0x8000)
  rw [hhigh, hlow] at hword
  rw [Bool.eq_iff_iff, bne_iff_ne, bne_iff_ne, not_iff_not, ← hword]
  constructor
  · intro h
    rw [← hhigh, ← hword, h]
    rfl
  · intro h
    rw [h]
    rfl

theorem halfOfWord_eq (a b r : UInt16) : halfOfWord a b r =
    (Word.high a ^^^ Word.high b ^^^ Word.high r) &&& Flag.half := by
  unfold halfOfWord
  rw [Word.high_xor, Word.high_xor]

/-- A chain of two additions, read off the words. -/
theorem chain_adc (f : UInt8) {a b r : UInt16}
    (hr : r.toNat = (a.toNat + b.toNat + carried f) % 256 ^ 2) :
    chain Operation.adc.apply f (bytesOf a) (bytesOf b) =
      ⟨bytesOf r, signZero (Word.high r) ||| halfOfWord a b r
        ||| Flag.mark Flag.carry (a.toNat + b.toNat + carried f > 0xFFFF)
        ||| Flag.mark Flag.parity ((a ^^^ ~~~b) &&& (a ^^^ r) &&& 0x8000 != 0)⟩ := by
  obtain ⟨hvalue, hcarry⟩ := combines_adc.sum (writes_bytesOf a) (writes_bytesOf b) f
  obtain ⟨c, hchain⟩ : ∃ c, chain Operation.adc.apply f (bytesOf a) (bytesOf b) =
      ⟨[(add (Word.low a) (Word.low b) (Flag.has f Flag.carry)).value,
        (add (Word.high a) (Word.high b) c).value],
        (add (Word.high a) (Word.high b) c).flags⟩ := ⟨_, rfl⟩
  have hbytes := hvalue.unique (hr ▸ writes_bytesOf r)
  rw [hchain] at hbytes hcarry ⊢
  have hhigh : (add (Word.high a) (Word.high b) c).value = Word.high r :=
    (List.cons.inj (List.cons.inj hbytes).2).1
  rw [has_carry_add] at hcarry
  refine congrArg₂ Flagged.mk hbytes ?_
  show signZero (add (Word.high a) (Word.high b) c).value
    ||| ((Word.high a ^^^ Word.high b ^^^ (add (Word.high a) (Word.high b) c).value) &&& Flag.half)
    ||| Flag.mark Flag.carry (decide (256 ≤ (Word.high a).toNat + (Word.high b).toNat + c.toNat))
    ||| Flag.mark Flag.parity ((Word.high a ^^^ ~~~(Word.high b)) &&&
      (Word.high a ^^^ (add (Word.high a) (Word.high b) c).value) &&& 0x80 != 0) = _
  rw [hcarry, hhigh, halfOfWord_eq, top_bne, Word.high_and, Word.high_xor, Word.high_xor,
    Word.high_not]
  rfl

/-- A chain of two subtractions, read off the words. -/
theorem chain_sbc (f : UInt8) {a b r : UInt16}
    (hr : (r.toNat : ℤ) = ((a.toNat : ℤ) - b.toNat - carried f) % 256 ^ 2) :
    chain Operation.sbc.apply f (bytesOf a) (bytesOf b) =
      ⟨bytesOf r, Flag.subtract ||| signZero (Word.high r) ||| halfOfWord a b r
        ||| Flag.mark Flag.carry (a.toNat < b.toNat + carried f)
        ||| Flag.mark Flag.parity ((a ^^^ b) &&& (a ^^^ r) &&& 0x8000 != 0)⟩ := by
  obtain ⟨hvalue, hcarry⟩ := combines_sbc.difference (writes_bytesOf a) (writes_bytesOf b) f
  obtain ⟨c, hchain⟩ : ∃ c, chain Operation.sbc.apply f (bytesOf a) (bytesOf b) =
      ⟨[(sub (Word.low a) (Word.low b) (Flag.has f Flag.carry)).value,
        (sub (Word.high a) (Word.high b) c).value],
        (sub (Word.high a) (Word.high b) c).flags⟩ := ⟨_, rfl⟩
  have hword : (((a.toNat : ℤ) - b.toNat - carried f) % 256 ^ 2).toNat = r.toNat := by
    rw [← hr, Int.toNat_natCast]
  have hbytes := hvalue.unique (hword ▸ writes_bytesOf r)
  rw [hchain] at hbytes hcarry ⊢
  have hhigh : (sub (Word.high a) (Word.high b) c).value = Word.high r :=
    (List.cons.inj (List.cons.inj hbytes).2).1
  rw [has_carry_sub] at hcarry
  refine congrArg₂ Flagged.mk hbytes ?_
  show Flag.subtract ||| signZero (sub (Word.high a) (Word.high b) c).value
    ||| ((Word.high a ^^^ Word.high b ^^^ (sub (Word.high a) (Word.high b) c).value) &&& Flag.half)
    ||| Flag.mark Flag.carry (decide ((Word.high a).toNat < (Word.high b).toNat + c.toNat))
    ||| Flag.mark Flag.parity ((Word.high a ^^^ Word.high b) &&&
      (Word.high a ^^^ (sub (Word.high a) (Word.high b) c).value) &&& 0x80 != 0) = _
  rw [hcarry, hhigh, halfOfWord_eq, top_bne, Word.high_and, Word.high_xor, Word.high_xor]

/-- Without the zero flag a byte leaves its sign and copied bits. -/
theorem signZero_and_nonzero (v : UInt8) : signZero v &&& ~~~Flag.zero = v &&& 0xA8 := by
  unfold signZero
  rw [Word.or_and, Flag.mark_and, show Flag.zero &&& ~~~Flag.zero = 0 by decide, Flag.mark_zero,
    UInt8.or_zero, UInt8.and_assoc]
  rfl

/-- A word and its flags are those of two bytes, but that the zero flag is about the whole word. -/
structure Agrees (w : UInt16) (f : UInt8) (bytes : Flagged (List UInt8)) : Prop where
  value : bytesOf w = bytes.value
  flags : f &&& ~~~Flag.zero = bytes.flags &&& ~~~Flag.zero
  zero : Flag.has f Flag.zero = (w == 0)

/-- The flags of a word next to those of its high byte, when they are put together from the same
parts; `n` is the subtraction flag or nothing. -/
theorem agrees_of_parts (r a b : UInt16) {n : UInt8} (hn : n &&& Flag.zero = 0) (p q : Bool) :
    Agrees r (n ||| (Word.high r &&& 0xA8) ||| halfOfWord a b r ||| Flag.mark Flag.zero (r == 0)
        ||| Flag.mark Flag.carry p ||| Flag.mark Flag.parity q)
      ⟨bytesOf r, n ||| signZero (Word.high r) ||| halfOfWord a b r ||| Flag.mark Flag.carry p
        ||| Flag.mark Flag.parity q⟩ where
  value := rfl
  flags := by
    simp only [Word.or_and, Flag.mark_and, signZero_and_nonzero,
      show Flag.zero &&& ~~~Flag.zero = 0 by decide, Flag.mark_zero, UInt8.or_zero,
      UInt8.and_assoc, show 0xA8 &&& ~~~Flag.zero = 0xA8 by decide]
  zero := by
    have hnone : Flag.has n Flag.zero = false := by
      unfold Flag.has
      rw [hn]
      rfl
    simp only [halfOfWord, Flag.has_or, Flag.has_and, Flag.has_mark, hnone,
      show 0xA8 &&& Flag.zero = 0 by decide, show Flag.half &&& Flag.zero = 0 by decide,
      Flag.has_none, show Flag.has Flag.zero Flag.zero = true by decide,
      show Flag.has Flag.carry Flag.zero = false by decide,
      show Flag.has Flag.parity Flag.zero = false by decide, Bool.and_false, Bool.and_true,
      Bool.or_false, Bool.false_or]

theorem addWordCarry_agrees (f : UInt8) (a b : UInt16) :
    let sum := addWordCarry f a b
    Agrees sum.value sum.flags (chain Operation.adc.apply f (bytesOf a) (bytesOf b)) := by
  intro sum
  have hsum : sum.value.toNat = (a.toNat + b.toNat + carried f) % 256 ^ 2 := by
    show (a + b + (f &&& Flag.carry).toUInt16).toNat = _
    rw [UInt16.toNat_add, UInt16.toNat_add, UInt8.toNat_toUInt16, toNat_and_carry]
    omega
  have hflags : sum.flags = (Word.high sum.value &&& 0xA8) ||| halfOfWord a b sum.value
      ||| Flag.mark Flag.zero (sum.value == 0)
      ||| Flag.mark Flag.carry (a.toNat + b.toNat + carried f > 0xFFFF)
      ||| Flag.mark Flag.parity ((a ^^^ ~~~b) &&& (a ^^^ sum.value) &&& 0x8000 != 0) := by
    rw [← toNat_and_carry]
    rfl
  have hagrees := agrees_of_parts sum.value a b UInt8.zero_and
    (a.toNat + b.toNat + carried f > 0xFFFF)
    ((a ^^^ ~~~b) &&& (a ^^^ sum.value) &&& 0x8000 != 0)
  rw [UInt8.zero_or, UInt8.zero_or] at hagrees
  rw [chain_adc f hsum, hflags]
  exact hagrees

theorem subWordCarry_agrees (f : UInt8) (a b : UInt16) :
    let difference := subWordCarry f a b
    Agrees difference.value difference.flags
      (chain Operation.sbc.apply f (bytesOf a) (bytesOf b)) := by
  intro difference
  have hdifference : (difference.value.toNat : ℤ) =
      ((a.toNat : ℤ) - b.toNat - carried f) % 256 ^ 2 := by
    have ha := a.toNat_lt
    have hb := b.toNat_lt
    have hc := carried_le f
    show ((a - b - (f &&& Flag.carry).toUInt16).toNat : ℤ) = _
    rw [UInt16.toNat_sub, UInt16.toNat_sub, UInt8.toNat_toUInt16, toNat_and_carry]
    omega
  have hflags : difference.flags = Flag.subtract ||| (Word.high difference.value &&& 0xA8)
      ||| halfOfWord a b difference.value ||| Flag.mark Flag.zero (difference.value == 0)
      ||| Flag.mark Flag.carry (a.toNat < b.toNat + carried f)
      ||| Flag.mark Flag.parity ((a ^^^ b) &&& (a ^^^ difference.value) &&& 0x8000 != 0) := by
    rw [← toNat_and_carry]
    rfl
  rw [chain_sbc f hdifference, hflags]
  exact agrees_of_parts difference.value a b (by decide) _ _

theorem addWord_eq_chain (f : UInt8) (a b : UInt16) :
    let sum := addWord f a b
    let bytes := chain Operation.adc.apply 0 (bytesOf a) (bytesOf b)
    bytesOf sum.value = bytes.value ∧
      sum.flags &&& (Flag.half ||| Flag.carry ||| Flag.copies) =
        bytes.flags &&& (Flag.half ||| Flag.carry ||| Flag.copies) ∧
      sum.flags &&& (Flag.sign ||| Flag.zero ||| Flag.parity) =
        f &&& (Flag.sign ||| Flag.zero ||| Flag.parity) ∧
      Flag.has sum.flags Flag.subtract = false := by
  intro sum bytes
  have hsum : sum.value.toNat = (a.toNat + b.toNat + carried 0) % 256 ^ 2 := by
    show (a + b).toNat = (a.toNat + b.toNat + 0) % 256 ^ 2
    exact UInt16.toNat_add ..
  have hflags : sum.flags = (f &&& 0xC4) ||| halfOfWord a b sum.value
      ||| (Word.high sum.value &&& Flag.copies)
      ||| Flag.mark Flag.carry (a.toNat + b.toNat + carried 0 > 0xFFFF) := rfl
  have hbytes : bytes = _ := chain_adc 0 hsum
  rw [hbytes, hflags, halfOfWord_eq]
  refine ⟨rfl, ?_, ?_, ?_⟩
  · rw [show Flag.half ||| Flag.carry ||| Flag.copies = 0x39 by decide]
    simp only [signZero, Word.or_and, Flag.mark_and, UInt8.and_assoc,
      show 0xC4 &&& 0x39 = (0 : UInt8) by decide, show 0xA8 &&& 0x39 = (0x28 : UInt8) by decide,
      show Flag.copies &&& 0x39 = 0x28 by decide, show Flag.zero &&& 0x39 = 0 by decide,
      show Flag.parity &&& 0x39 = 0 by decide, Flag.mark_zero, UInt8.and_zero, UInt8.zero_or,
      UInt8.or_zero]
    rw [UInt8.or_comm (Word.high sum.value &&& 0x28)]
  · rw [show Flag.sign ||| Flag.zero ||| Flag.parity = 0xC4 by decide]
    simp only [Word.or_and, Flag.mark_and, UInt8.and_assoc,
      show 0xC4 &&& 0xC4 = (0xC4 : UInt8) by decide, show Flag.half &&& 0xC4 = 0 by decide,
      show Flag.copies &&& 0xC4 = 0 by decide, show Flag.carry &&& 0xC4 = 0 by decide,
      Flag.mark_zero, UInt8.and_zero, UInt8.or_zero]
  · simp only [Flag.has_or, Flag.has_and, Flag.has_mark,
      show 0xC4 &&& Flag.subtract = 0 by decide, show Flag.half &&& Flag.subtract = 0 by decide,
      show Flag.copies &&& Flag.subtract = 0 by decide, Flag.has_none,
      show Flag.has Flag.carry Flag.subtract = false by decide, Bool.and_false, Bool.or_false]

/-! ### Instructions -/

theorem Radix.writes_bytes {n : ℕ} (v : Vector UInt8 n) :
    Radix.bytes.Writes n v.toList (Radix.bytes.number v.toList) :=
  ⟨v.length_toList, fun _ _ => trivial, rfl⟩

/-- **Numbers of any length are added and subtracted a byte at a time, and words are numbers of two
bytes.**  The carry goes on from byte to byte; in the end it shows that the sum has a byte more, or
that the difference is negative.  `ADC HL` and `SBC HL` do what the chain of two bytes does, but
that the zero flag is about the whole word.  `ADD HL` does so without a carry to begin with, and
keeps the flags that show what the result is. -/
theorem carry_chains {n : ℕ} (xs ys : Vector UInt8 n) (f : UInt8) {β : Type} [Bus β]
    (z : Processor β) (p : Pair) (x : Index) :
    let first := Radix.bytes.number xs.toList
    let second := Radix.bytes.number ys.toList
    let sum := chain Operation.adc.apply f xs.toList ys.toList
    let difference := chain Operation.sbc.apply f xs.toList ys.toList
    let adc := (Processor.execAssigned (.addPair p) z).1.regs
    let adcBytes := chain Operation.adc.apply z.regs.f (bytesOf z.regs.hl) (bytesOf (z.pair p .hl))
    let sbc := (Processor.execAssigned (.subPair p) z).1.regs
    let sbcBytes := chain Operation.sbc.apply z.regs.f (bytesOf z.regs.hl) (bytesOf (z.pair p .hl))
    let add := (Processor.exec (.addPair p) x z).1.regs
    let addBytes := chain Operation.adc.apply 0 (bytesOf (z.regs.index x)) (bytesOf (z.pair p x))
    Radix.bytes.Writes n sum.value ((first + second + carried f) % 256 ^ n) ∧
      Flag.has sum.flags Flag.carry = decide (256 ^ n ≤ first + second + carried f) ∧
      Radix.bytes.Writes n difference.value
        (((first : ℤ) - second - carried f) % 256 ^ n).toNat ∧
      Flag.has difference.flags Flag.carry = decide (first < second + carried f) ∧
      Agrees adc.hl adc.f adcBytes ∧ Agrees sbc.hl sbc.f sbcBytes ∧
      bytesOf (add.index x) = addBytes.value ∧
      add.f &&& (Flag.half ||| Flag.carry ||| Flag.copies) =
        addBytes.flags &&& (Flag.half ||| Flag.carry ||| Flag.copies) ∧
      add.f &&& (Flag.sign ||| Flag.zero ||| Flag.parity) =
        z.regs.f &&& (Flag.sign ||| Flag.zero ||| Flag.parity) ∧
      Flag.has add.f Flag.subtract = false := by
  intro first second sum difference adc adcBytes sbc sbcBytes add addBytes
  obtain ⟨hsum, hover⟩ := combines_adc.sum (Radix.writes_bytes xs) (Radix.writes_bytes ys) f
  obtain ⟨hdifference, hunder⟩ :=
    combines_sbc.difference (Radix.writes_bytes xs) (Radix.writes_bytes ys) f
  obtain ⟨hadd, haddFlags, haddKept, haddSubtract⟩ :=
    addWord_eq_chain z.regs.f (z.regs.index x) (z.pair p x)
  have hindex : add.index x = (addWord z.regs.f (z.regs.index x) (z.pair p x)).value := by
    cases x <;> rfl
  have hflags : add.f = (addWord z.regs.f (z.regs.index x) (z.pair p x)).flags := rfl
  rw [hindex, hflags]
  exact ⟨hsum, hover, hdifference, hunder, addWordCarry_agrees .., subWordCarry_agrees ..,
    hadd, haddFlags, haddKept, haddSubtract⟩

end MasterSystem.Z80
