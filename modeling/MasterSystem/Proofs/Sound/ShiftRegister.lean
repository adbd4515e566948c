import Mathlib.Data.Nat.Bitwise
import MasterSystem.Proofs.Sound.Changes

/-! # The shift register of the noise

The noise puts out the lowest bit of a shift register.  A one that leaves the register is fed back
at the taps.

* **Bits.**  A shift moves every bit down and feeds the lowest one back (`bit_shift`), so that the
  register after any number of shifts is made of the bits put out (`bit_shifted`).
* **Levels.**  The channel follows the register by comparing its two lowest bits, which tell whether
  the next shift changes the output unless the lowest bit is a tap (`flips_eq`).
* **Windows.**  A window of clocks shifts the register as often as shifts fall into it, and does to
  the channel nothing else but what `played` says (`run_eq`). -/

namespace MasterSystem.Sound

theorem edges_of_le {time stop period : Nat} (hperiod : 0 < period) (h : stop ≤ time) :
    edges time stop period = 0 := by
  unfold edges
  exact Nat.div_eq_of_lt (by omega)

namespace Noise

/-! ### The register -/

/-- A bit of a word. -/
def bit (w : UInt16) (k : Nat) : Bool := w.toNat.testBit k

theorem bit_of_ge (w : UInt16) {k : Nat} (h : 16 ≤ k) : bit w k = false :=
  Nat.testBit_lt_two_pow (Nat.lt_of_lt_of_le w.toNat_lt (Nat.pow_le_pow_right (by decide) h))

theorem bit_xor (v w : UInt16) (k : Nat) : bit (v ^^^ w) k = (bit v k ^^ bit w k) := by
  unfold bit
  rw [UInt16.toNat_xor, Nat.testBit_xor]

/-- A word is zero if it is a bit times a weight and the bit is not set. -/
theorem beq_zero_of_toNat {w : UInt16} {b : Bool} {weight : Nat} (hweight : 0 < weight)
    (h : w.toNat = b.toNat * weight) : (w == 0) = !b := by
  cases b with
  | false =>
      rw [Bool.toNat_false, Nat.zero_mul] at h
      obtain rfl : w = 0 := UInt16.toNat_inj.1 h
      rfl
  | true =>
      rw [Bool.toNat_true, Nat.one_mul] at h
      refine beq_eq_false_iff_ne.2 ?_
      rintro rfl
      exact Nat.ne_of_lt hweight h

theorem and_one_beq (w : UInt16) : (w &&& 1 == 0) = !bit w 0 :=
  beq_zero_of_toNat Nat.one_pos ((UInt16.toNat_and w 1).trans (Nat.and_two_pow w.toNat 0))

theorem and_two_beq (w : UInt16) : (w &&& 2 == 0) = !bit w 1 :=
  beq_zero_of_toNat Nat.two_pos ((UInt16.toNat_and w 2).trans (Nat.and_two_pow w.toNat 1))

/-- A shift moves the bits down and feeds the lowest one back at the taps. -/
theorem bit_shift (shifter taps : UInt16) (k : Nat) :
    bit (shift shifter taps) k = ((bit shifter 0 && bit taps k) ^^ bit shifter (k + 1)) := by
  have hdown : bit (shifter >>> 1) k = bit shifter (k + 1) := by
    unfold bit
    rw [UInt16.toNat_shiftRight]
    simp [Nat.testBit_shiftRight, Nat.add_comm]
  unfold shift
  rw [bit_xor, hdown, and_one_beq]
  cases bit shifter 0 with
  | false => simp [bit]
  | true => simp

/-- The next shift is taken for a change of the output when the two lowest bits differ. -/
theorem turns_eq (shifter : UInt16) : turns shifter = (bit shifter 0 ^^ bit shifter 1) := by
  have hnext : bit (shifter + 1) 1 = decide ((shifter.toNat + 1) / 2 % 2 = 1) := by
    have hlt := shifter.toNat_lt
    unfold bit
    rw [UInt16.toNat_add, Nat.testBit_eq_decide_div_mod_eq]
    refine decide_eq_decide.2 ?_
    rw [UInt16.toNat_one]
    omega
  have hfirst : bit shifter 0 = decide (shifter.toNat % 2 = 1) := Nat.testBit_zero _
  have hsecond : bit shifter 1 = decide (shifter.toNat / 2 % 2 = 1) :=
    Nat.testBit_eq_decide_div_mod_eq
  unfold turns
  rw [bne, and_two_beq, Bool.not_not, hnext, hfirst, hsecond, Bool.eq_iff_iff, Bool.xor_iff_ne]
  simp only [ne_eq, decide_eq_decide, decide_eq_true_eq]
  omega

/-- The register after `n` shifts. -/
def shifted (taps : UInt16) : Nat → UInt16 → UInt16
  | 0, shifter => shifter
  | n + 1, shifter => shifted taps n (shift shifter taps)

theorem shifted_add (taps : UInt16) : ∀ (m n : Nat) (shifter : UInt16),
    shifted taps (m + n) shifter = shifted taps n (shifted taps m shifter)
  | 0, n, shifter => by rw [Nat.zero_add]; rfl
  | m + 1, n, shifter => by
      rw [Nat.add_right_comm]
      exact shifted_add taps m n _

/-- The bits that `n` shifts put out: each is the lowest bit before its shift. -/
def outputs (taps : UInt16) : Nat → UInt16 → List Bool
  | 0, _ => []
  | n + 1, shifter => bit shifter 0 :: outputs taps n (shift shifter taps)

theorem length_outputs (taps : UInt16) : ∀ (n : Nat) (shifter : UInt16),
    (outputs taps n shifter).length = n
  | 0, _ => rfl
  | n + 1, shifter => congrArg (· + 1) (length_outputs taps n (shift shifter taps))

theorem outputs_add (taps : UInt16) : ∀ (m n : Nat) (shifter : UInt16),
    outputs taps (m + n) shifter = outputs taps m shifter ++ outputs taps n (shifted taps m shifter)
  | 0, n, shifter => by rw [Nat.zero_add]; rfl
  | m + 1, n, shifter => by
      rw [Nat.add_right_comm]
      exact congrArg (bit shifter 0 :: ·) (outputs_add taps m n _)

theorem getElem?_outputs (taps : UInt16) : ∀ {n k : Nat} (shifter : UInt16), k < n →
    (outputs taps n shifter)[k]? = some (bit (shifted taps k shifter) 0)
  | _ + 1, 0, _, _ => rfl
  | _ + 1, _ + 1, shifter, h =>
    getElem?_outputs taps (shift shifter taps) (Nat.lt_of_succ_lt_succ h)

/-- The bits of `n` shifts that are fed back into place `k`. -/
def fedBack (taps : UInt16) : Nat → UInt16 → Nat → Bool
  | 0, _, _ => false
  | n + 1, shifter, k =>
    (bit shifter 0 && bit taps (k + n)) ^^ fedBack taps n (shift shifter taps) k

/-- A place of the register holds the bit that has moved down to it and what was fed back. -/
theorem bit_shifted (taps : UInt16) : ∀ (n k : Nat) (shifter : UInt16),
    bit (shifted taps n shifter) k = (bit shifter (k + n) ^^ fedBack taps n shifter k)
  | 0, k, shifter => by simp [shifted, fedBack]
  | n + 1, k, shifter => by
      unfold shifted fedBack
      rw [bit_shifted taps n k, bit_shift, ← Nat.add_assoc]
      cases bit shifter 0 && bit taps (k + n) <;> cases bit shifter (k + n + 1) <;>
        cases fedBack taps n (shift shifter taps) k <;> rfl

/-! ### Levels -/

/-- Whether `n` shifts are taken for an odd number of changes of the output. -/
def flips (taps : UInt16) : Nat → UInt16 → Bool
  | 0, _ => false
  | n + 1, shifter => turns shifter ^^ flips taps n (shift shifter taps)

/-- Whether a list of bits has an odd number of ones. -/
def oddOnes (bits : List Bool) : Bool := bits.count true % 2 == 1

theorem oddOnes_cons (b : Bool) (bits : List Bool) : oddOnes (b :: bits) = (b ^^ oddOnes bits) := by
  have hcount : (b :: bits).count true = bits.count true + b.toNat := by
    cases b <;> simp
  unfold oddOnes
  rw [hcount]
  rcases Nat.mod_two_eq_zero_or_one (bits.count true) with h | h <;> cases b <;>
    simp [Nat.add_mod, h]

theorem oddOnes_append : ∀ (bits more : List Bool),
    oddOnes (bits ++ more) = (oddOnes bits ^^ oddOnes more)
  | [], _ => (Bool.false_xor _).symm
  | b :: bits, more => by
      rw [List.cons_append, oddOnes_cons, oddOnes_cons, oddOnes_append bits more, Bool.xor_assoc]

/-- Whether `n` shifts feed an odd number of ones back into the lowest bit: with each of them the
output does not change when a change is followed, or the other way round. -/
def drifts (taps : UInt16) (n : Nat) (shifter : UInt16) : Bool :=
  bit taps 0 && oddOnes (outputs taps n shifter)

theorem drifts_succ (taps : UInt16) (n : Nat) (shifter : UInt16) :
    drifts taps (n + 1) shifter =
      ((bit shifter 0 && bit taps 0) ^^ drifts taps n (shift shifter taps)) := by
  have hones : oddOnes (outputs taps (n + 1) shifter) =
      (bit shifter 0 ^^ oddOnes (outputs taps n (shift shifter taps))) := oddOnes_cons _ _
  unfold drifts
  rw [hones]
  cases bit taps 0 <;> simp

/-- A channel that drifts twice is in step again. -/
theorem drifts_add (taps : UInt16) (m n : Nat) (shifter : UInt16) :
    drifts taps (m + n) shifter =
      (drifts taps m shifter ^^ drifts taps n (shifted taps m shifter)) := by
  unfold drifts
  rw [outputs_add, oddOnes_append]
  cases bit taps 0 <;> rfl

/-- The changes that are followed are those of the output, but for the drift. -/
theorem flips_eq (taps : UInt16) : ∀ (n : Nat) (shifter : UInt16), flips taps n shifter =
    (bit shifter 0 ^^ bit (shifted taps n shifter) 0 ^^ drifts taps n shifter)
  | 0, shifter => by simp [flips, drifts, shifted, outputs, oddOnes]
  | n + 1, shifter => by
      unfold flips shifted
      rw [flips_eq taps n, turns_eq, drifts_succ, bit_shift]
      generalize bit (shifted taps n (shift shifter taps)) 0 = last
      generalize drifts taps n (shift shifter taps) = drift
      cases bit shifter 0 <;> cases bit shifter 1 <;> cases bit taps 0 <;> cases last <;>
        cases drift <;> rfl

/-! ### Windows -/

theorem shiftPeriod_pos (s : Noise) (tone : Nat) : 0 < s.shiftPeriod tone := by
  unfold shiftPeriod
  dsimp only
  generalize (if s.rate == 0 then 0x200 else _ : Nat) = period
  split
  · decide
  · omega

/-- The shifts between two clocks.  A silent channel does not shift. -/
def shifts (s : Noise) (start stop tone : Nat) (enabled : Bool) : Nat :=
  if s.osc.volume enabled = 0 then 0
  else edges (start + s.osc.delay) stop (s.shiftPeriod tone)

/-- The level of a bit. -/
def levelOf (volume : Int) (b : Bool) : Int := if b then -volume else volume

theorem levelOf_not (volume : Int) (b : Bool) : levelOf volume (!b) = -levelOf volume b := by
  cases b with
  | false => rfl
  | true => exact (Int.neg_neg volume).symm

/-- A drift shows in the level unless the level is zero. -/
theorem levelOf_xor {volume : Int} {b drift : Bool} :
    levelOf volume (b ^^ drift) = levelOf volume b ↔ volume = 0 ∨ drift = false := by
  cases drift with
  | false => simp
  | true =>
      rw [Bool.xor_true, levelOf_not]
      unfold levelOf
      cases b <;> simp <;> omega

theorem bitLevel_eq (s : Noise) (enabled : Bool) :
    s.bitLevel enabled = levelOf (s.osc.volume enabled) (bit s.shifter 0) := by
  unfold bitLevel levelOf
  rw [and_one_beq]
  cases bit s.shifter 0 <;> rfl

/-- The channel after it has played from one clock to another: its level is that of the bit it puts
out, or the opposite one if it has drifted. -/
def played (s : Noise) (start stop tone : Nat) (enabled : Bool) : Noise :=
  let n := s.shifts start stop tone enabled
  let shifter := shifted s.taps n s.shifter
  { s with
    osc := { s.osc with
      level := levelOf (s.osc.volume enabled) (bit shifter 0 ^^ drifts s.taps n s.shifter)
      delay := start + s.osc.delay + n * s.shiftPeriod tone - stop }
    shifter := shifter }

theorem playShifts_state (routing : Routing) (taps : UInt16) (period : Nat) : ∀ (n time : Nat)
    (shifter : UInt16) (delta : Int) (out : Stereo),
    (playShifts routing taps period n time shifter delta out).1 = shifted taps n shifter ∧
      (playShifts routing taps period n time shifter delta out).2.1 =
        if flips taps n shifter then -delta else delta
  | 0, _, _, _, _ => ⟨rfl, rfl⟩
  | n + 1, time, shifter, delta, out => by
      unfold playShifts shifted flips
      dsimp only
      cases turns shifter with
      | true =>
          obtain ⟨hshifter, hdelta⟩ := playShifts_state routing taps period n (time + period)
            (shift shifter taps) (-delta) (out.addDelta routing time (-delta))
          refine ⟨hshifter, hdelta.trans ?_⟩
          cases flips taps n (shift shifter taps) <;> simp
      | false =>
          obtain ⟨hshifter, hdelta⟩ := playShifts_state routing taps period n (time + period)
            (shift shifter taps) delta out
          refine ⟨hshifter, hdelta.trans ?_⟩
          cases flips taps n (shift shifter taps) <;> simp

/-- The level that is followed through `n` shifts. -/
theorem followed_level (volume : Int) (taps : UInt16) (n : Nat) (shifter : UInt16) :
    (if flips taps n shifter then -(levelOf volume (bit shifter 0) * 2)
      else levelOf volume (bit shifter 0) * 2) =
    levelOf volume (bit (shifted taps n shifter) 0 ^^ drifts taps n shifter) * 2 := by
  have hlast : (bit (shifted taps n shifter) 0 ^^ drifts taps n shifter) =
      (bit shifter 0 ^^ flips taps n shifter) := by
    rw [flips_eq, Bool.xor_assoc, ← Bool.xor_assoc (bit shifter 0), Bool.xor_self, Bool.false_xor]
  rw [hlast]
  cases flips taps n shifter with
  | false => rw [Bool.xor_false, if_neg Bool.false_ne_true]
  | true => rw [Bool.xor_true, levelOf_not, if_pos rfl, Int.neg_mul]

/-- What a window does to the channel. -/
theorem run_eq (s : Noise) (start stop tone : Nat) (enabled : Bool) (out : Stereo) :
    (s.run start stop tone enabled out).1 = s.played start stop tone enabled := by
  unfold run played shifts
  dsimp only
  have hlevel : (if s.shifter &&& 1 == 0 then s.osc.volume enabled else -s.osc.volume enabled) =
      levelOf (s.osc.volume enabled) (bit s.shifter 0) := s.bitLevel_eq enabled
  have hstill : (bit (shifted s.taps 0 s.shifter) 0 ^^ drifts s.taps 0 s.shifter) =
      bit s.shifter 0 := by simp [shifted, drifts, outputs, oddOnes]
  rw [hlevel, Oscillator.setLevel_eq]
  dsimp only
  by_cases hsilent : s.osc.volume enabled = 0
  · rw [if_pos (.inl hsilent), if_pos hsilent, Nat.zero_mul, hstill]
    rfl
  · rw [if_neg hsilent]
    split
    · rename_i hstop
      rw [edges_of_le (s.shiftPeriod_pos tone) (hstop.resolve_left hsilent), Nat.zero_mul, hstill]
      rfl
    · obtain ⟨hshifter, hdelta⟩ := playShifts_state s.osc.routing s.taps (s.shiftPeriod tone)
        (edges (start + s.osc.delay) stop (s.shiftPeriod tone)) (start + s.osc.delay) s.shifter
        (levelOf (s.osc.volume enabled) (bit s.shifter 0) * 2)
        (out.addAll (s.osc.change start (levelOf (s.osc.volume enabled) (bit s.shifter 0))))
      dsimp only
      rw [hshifter, hdelta, followed_level, Int.mul_ediv_cancel _ (by decide)]

end Noise

end MasterSystem.Sound
