import MasterSystem.Proofs.Sound.FmRange

/-! # An operator of the FM chip, checked

The chip computes with numbers of 32 bits and looks up registers and tables.  Each definition that
takes part in a sample is written once more as a program that checks this: it has no result when a
number does not fit, when one would be shifted by 32 bits or more, and when a place lies outside of
what is looked up.  For every definition `x` the theorem `x?_eq` says that the checked program gives
what `x` gives.

* **Settings.**  The fields of the registers have few bits (`Setting.Ranged`, `Tuning.Ranged`).
* **Pitch and envelope.**  What is computed from them stays small (`phaseStep_le`,
  `levelScaling_le`, `rateScaling_le`), and an envelope takes steps of at most four.
* **Operators.**  So an operator in its ranges makes a sample without a check that fails
  (`Operator.sample?_eq`, `Operator.drumSample?_eq`). -/

namespace MasterSystem.Sound

namespace Fm

open Word (Fits32 signed32? signed32?_bind)

/-! ### Checks -/

/-- A result of arithmetic with 32 bits and no sign, unless it does not fit. -/
def unsigned32? (n : Nat) : Option Nat := if n < 0x100000000 then some n else none

/-- A difference, unless it is negative. -/
def difference? (m n : Nat) : Option Nat := if n ≤ m then some (m - n) else none

/-- A number shifted up, unless a bit gets lost. -/
def shiftLeft? (n k : Nat) : Option Nat := if k < 32 then unsigned32? (n <<< k) else none

/-- A number shifted down. -/
def shiftRight? (n k : Nat) : Option Nat := if k < 32 then some (n >>> k) else none

/-- A number with a sign shifted down. -/
def signedShiftRight? (n : Int) (k : Nat) : Option Int := if k < 32 then some (n >>> k) else none

section

variable {α β : Type} {m n k : Nat}

theorem bind_of_some {x : Option α} {a : α} (h : x = some a) (f : α → Option β) :
    (x >>= f) = f a := by
  rw [h]
  rfl

theorem unsigned32?_bind (h : n < 0x100000000) (f : Nat → Option β) :
    (unsigned32? n >>= f) = f n := by
  rw [unsigned32?, if_pos h]
  rfl

theorem difference?_bind (h : n ≤ m) (f : Nat → Option β) :
    (difference? m n >>= f) = f (m - n) := by
  rw [difference?, if_pos h]
  rfl

theorem shiftLeft?_eq (hk : k < 32) (h : n <<< k < 0x100000000) :
    shiftLeft? n k = some (n <<< k) := by
  rw [shiftLeft?, if_pos hk, unsigned32?, if_pos h]

theorem shiftLeft?_bind (hk : k < 32) (h : n <<< k < 0x100000000) (f : Nat → Option β) :
    (shiftLeft? n k >>= f) = f (n <<< k) := by
  rw [shiftLeft?_eq hk h]
  rfl

theorem shiftRight?_bind (hk : k < 32) (f : Nat → Option β) :
    (shiftRight? n k >>= f) = f (n >>> k) := by
  rw [shiftRight?, if_pos hk]
  rfl

theorem lookUp_bind {xs : Array α} (h : k < xs.size) (d : α) (f : α → Option β) :
    (xs[k]? >>= f) = f (xs.getD k d) := by
  rw [Array.getD_eq_getD_getElem?, Array.getElem?_eq_getElem h]
  rfl

theorem shiftLeft_le {a b : Nat} (hn : n ≤ a) (hk : k ≤ b) : n <<< k ≤ a <<< b := by
  rw [Nat.shiftLeft_eq, Nat.shiftLeft_eq]
  exact Nat.mul_le_mul hn (Nat.pow_le_pow_right (by decide) hk)

end

/-! ### What the registers say -/

/-- The fields of a setting have at most four bits. -/
structure Setting.Ranged (s : Setting) : Prop where
  multiple : s.multiple ≤ 30
  levelScale : s.levelScale ≤ 3
  attack : s.attack ≤ 15
  decay : s.decay ≤ 15
  sustain : s.sustain ≤ 15
  release : s.release ≤ 15

/-- A pitch has nine bits and three of octave. -/
structure Tuning.Ranged (t : Tuning) : Prop where
  number : t.number ≤ 511
  block : t.block ≤ 7

theorem toNat_and_le (v m : UInt8) : (v &&& m).toNat ≤ m.toNat := by
  rw [UInt8.toNat_and]
  exact Nat.and_le_right

theorem toNat_shift_le (v : UInt8) (k : UInt8) : (v >>> k).toNat ≤ 255 >>> (k.toNat % 8) := by
  rw [UInt8.toNat_shiftRight, Nat.shiftRight_eq_div_pow, Nat.shiftRight_eq_div_pow]
  exact Nat.div_le_div_right (Nat.le_of_lt_succ v.toNat_lt)

theorem multiplier_le : ∀ i < 16, multipliers.getD i 0 ≤ 30 := by decide

namespace Patch

theorem settingOf_ranged (flags rates levels scale : UInt8) (rectify : Bool) :
    (settingOf flags rates levels scale rectify).Ranged where
  multiple := multiplier_le _ (Nat.lt_succ_of_le (toNat_and_le flags 0x0F))
  levelScale := toNat_shift_le scale 6
  attack := toNat_shift_le rates 4
  decay := toNat_and_le rates 0x0F
  sustain := toNat_shift_le levels 4
  release := toNat_and_le levels 0x0F

theorem setting_ranged (p : Patch) (role : Role) : (p.setting role).Ranged := by
  cases role <;> exact settingOf_ranged ..

theorem feedback_le (p : Patch) : p.feedback ≤ 7 := toNat_and_le _ 7

theorem modulatorLevel_le (p : Patch) : p.modulatorLevel ≤ 126 :=
  Nat.mul_le_mul_right 2 (toNat_and_le _ 0x3F)

/-- The byte that holds the flags of an operator. -/
def flags (p : Patch) : Role → UInt8
  | .modulator => p.get 0
  | .carrier => p.get 1

/-- `Patch.setting`. -/
def setting? (p : Patch) (role : Role) : Option Setting := do
  let multiple ← multipliers[(p.flags role &&& 0x0F).toNat]?
  return { p.setting role with multiple }

theorem setting?_eq (p : Patch) (role : Role) : p.setting? role = some (p.setting role) := by
  have hplace : (p.flags role &&& 0x0F).toNat < multipliers.size :=
    Nat.lt_succ_of_le (toNat_and_le _ 0x0F)
  unfold setting?
  rw [lookUp_bind hplace 0]
  cases role <;> rfl

/-- `Patch.modulatorLevel`. -/
def modulatorLevel? (p : Patch) : Option Nat := unsigned32? ((p.get 2 &&& 0x3F).toNat * 2)

theorem modulatorLevel?_eq (p : Patch) : p.modulatorLevel? = some p.modulatorLevel := by
  have hlevel := p.modulatorLevel_le
  exact if_pos (Nat.lt_of_le_of_lt hlevel (by decide))

end Patch

/-! ### Shared counters -/

namespace Counters

variable {c : Counters}

/-- The deviations of the pitch in a turn of the vibrato. -/
def vibratoSteps : Array Int := #[0, 1, 2, 1, 0, -1, -2, -1]

/-- `Counters.vibratoStep`. -/
def vibratoStep? (c : Counters) : Option Int := do
  let place ← unsigned32? (c.vibrato * 8)
  vibratoSteps[place / vibratoPeriod % 8]?

theorem vibratoStep?_eq (h : c.Ranged) : c.vibratoStep? = some c.vibratoStep := by
  have hfits : c.vibrato * 8 < 0x100000000 := by
    have hturn := h.vibrato
    unfold vibratoPeriod at hturn
    omega
  unfold vibratoStep? vibratoStep
  rw [unsigned32?_bind hfits]
  have hplace : c.vibrato * 8 / vibratoPeriod % 8 < 8 := Nat.mod_lt _ (by decide)
  generalize c.vibrato * 8 / vibratoPeriod % 8 = place at hplace ⊢
  match place, hplace with
  | 0, _ | 1, _ | 2, _ | 3, _ | 4, _ | 5, _ | 6, _ | 7, _ => rfl

theorem natAbs_vibratoStep_le (c : Counters) : c.vibratoStep.natAbs ≤ 2 := by
  unfold vibratoStep
  split <;> decide

/-- The triangle of the tremolo. -/
def triangle (c : Counters) : Nat :=
  if c.tremolo % tremoloPeriod < tremoloPeriod / 2 then c.tremolo % tremoloPeriod
  else tremoloPeriod - c.tremolo % tremoloPeriod

/-- `Counters.triangle`. -/
def triangle? (c : Counters) : Option Nat :=
  if c.tremolo % tremoloPeriod < tremoloPeriod / 2 then some (c.tremolo % tremoloPeriod)
  else difference? tremoloPeriod (c.tremolo % tremoloPeriod)

theorem triangle_le (c : Counters) : c.triangle ≤ tremoloPeriod / 2 := by
  unfold triangle tremoloPeriod
  split <;> omega

theorem triangle?_eq (c : Counters) : c.triangle? = some c.triangle := by
  have hturn : c.tremolo % tremoloPeriod ≤ tremoloPeriod :=
    Nat.le_of_lt (Nat.mod_lt _ (by decide))
  unfold triangle? triangle difference?
  rw [if_pos hturn]
  split <;> rfl

/-- `Counters.tremoloLevel`. -/
def tremoloLevel? (c : Counters) : Option Nat := do
  let height ← c.triangle?
  let product ← unsigned32? (height * tremoloDepth)
  return product / (tremoloPeriod / 2)

theorem tremoloLevel_le (c : Counters) : c.tremoloLevel ≤ tremoloDepth :=
  Nat.div_le_of_le_mul (Nat.mul_le_mul_right tremoloDepth c.triangle_le)

theorem tremoloLevel?_eq (c : Counters) : c.tremoloLevel? = some c.tremoloLevel := by
  have hfits : c.triangle * tremoloDepth < 0x100000000 :=
    Nat.lt_of_le_of_lt (Nat.mul_le_mul_right tremoloDepth c.triangle_le) (by decide)
  unfold tremoloLevel?
  rw [bind_of_some c.triangle?_eq]
  exact unsigned32?_bind hfits _

end Counters

/-! ### Pitch -/

variable {t : Tuning} {s : Setting} {c : Counters}

/-- The pitch under the vibrato. -/
def bent (t : Tuning) (s : Setting) (c : Counters) : Int :=
  if s.pm then t.number + (t.number : Int) / 64 * c.vibratoStep else t.number

/-- `bent`. -/
def bent? (t : Tuning) (s : Setting) (c : Counters) : Option Int :=
  if s.pm then do
    let step ← c.vibratoStep?
    let deviation ← signed32? ((t.number : Int) / 64 * step)
    signed32? (t.number + deviation)
  else some t.number

/-- The vibrato moves a pitch by less than a 32nd. -/
theorem natAbs_deviation_le (ht : t.Ranged) (c : Counters) :
    ((t.number : Int) / 64 * c.vibratoStep).natAbs ≤ 14 := by
  have hnumber := ht.number
  have hpart : ((t.number : Int) / 64).natAbs ≤ 7 := by omega
  rw [Int.natAbs_mul]
  exact Nat.mul_le_mul hpart c.natAbs_vibratoStep_le

theorem natAbs_bent_le (ht : t.Ranged) (s : Setting) (c : Counters) :
    (bent t s c).natAbs ≤ 525 := by
  have hnumber := ht.number
  have hdeviation := natAbs_deviation_le ht c
  unfold bent
  split <;> omega

theorem bent?_eq (ht : t.Ranged) (s : Setting) (hc : c.Ranged) :
    bent? t s c = some (bent t s c) := by
  have hnumber := ht.number
  have hdeviation := natAbs_deviation_le ht c
  unfold bent? bent
  split
  · rw [bind_of_some (Counters.vibratoStep?_eq hc)]
    exact (signed32?_bind (by unfold Fits32; omega) _).trans (if_pos (by unfold Fits32; omega))
  · rfl

/-- `phaseStep`. -/
def phaseStep? (t : Tuning) (s : Setting) (c : Counters) : Option Nat := do
  let number ← bent? t s c
  let shifted ← shiftLeft? number.toNat t.block
  let product ← unsigned32? (shifted * s.multiple)
  return product / 2

theorem shifted_le (ht : t.Ranged) (s : Setting) (c : Counters) :
    (bent t s c).toNat <<< t.block ≤ 67200 := by
  have hbent := natAbs_bent_le ht s c
  exact shiftLeft_le (by omega : (bent t s c).toNat ≤ 525) ht.block

theorem phaseStep?_eq (ht : t.Ranged) (hs : s.Ranged) (hc : c.Ranged) :
    phaseStep? t s c = some (phaseStep t s c) := by
  have hshifted := shifted_le ht s c
  have hproduct := Nat.mul_le_mul hshifted hs.multiple
  have hblock := ht.block
  unfold phaseStep?
  rw [bind_of_some (bent?_eq ht s hc), shiftLeft?_bind (by omega) (by omega)]
  exact unsigned32?_bind (by omega) _

theorem phaseStep_le (ht : t.Ranged) (hs : s.Ranged) (c : Counters) : phaseStep t s c ≤ 1008000 :=
  Nat.div_le_div_right (Nat.mul_le_mul (shifted_le ht s c) hs.multiple)

/-- `levelScaling`. -/
def levelScaling? (t : Tuning) (scale : Nat) : Option Nat :=
  if scale = 0 then some 0
  else do
    let base ← levelScaleBase[t.number / 32 % 16]?
    let below ← signed32? (7 - (t.block : Int))
    let lowered ← signed32? (8 * below)
    let height ← signed32? (base - lowered)
    let doubled ← unsigned32? (height.toNat * 2)
    let shift ← difference? 3 scale
    shiftRight? doubled shift

theorem levelScaleBase_le : ∀ i < 16, (levelScaleBase.getD i 0).natAbs ≤ 56 := by decide

theorem levelScaling?_eq (ht : t.Ranged) {scale : Nat} (hscale : scale ≤ 3) :
    levelScaling? t scale = some (levelScaling t scale) := by
  have hblock := ht.block
  unfold levelScaling? levelScaling
  split
  · rfl
  · have hplace : t.number / 32 % 16 < levelScaleBase.size := Nat.mod_lt _ (by decide)
    have hbase := levelScaleBase_le _ hplace
    rw [lookUp_bind hplace 0]
    generalize levelScaleBase.getD (t.number / 32 % 16) 0 = base at hbase ⊢
    rw [signed32?_bind (by unfold Fits32; omega), signed32?_bind (by unfold Fits32; omega),
      signed32?_bind (by unfold Fits32; omega), unsigned32?_bind (by omega),
      difference?_bind hscale, shiftRight?, if_pos (by omega)]

theorem levelScaling_le (ht : t.Ranged) (scale : Nat) : levelScaling t scale ≤ 112 := by
  have hbase := levelScaleBase_le (t.number / 32 % 16) (Nat.mod_lt _ (by decide))
  have hblock := ht.block
  unfold levelScaling
  split
  · exact Nat.zero_le 112
  · rw [Nat.shiftRight_eq_div_pow]
    refine Nat.le_trans (Nat.div_le_self _ _) ?_
    omega

/-- `rateScaling`. -/
def rateScaling? (t : Tuning) (close : Bool) : Option Nat := do
  let octave ← shiftLeft? t.block 1
  let code := octave ||| t.number / 256
  return if close then code else code / 4

theorem rateScaling?_eq (ht : t.Ranged) (close : Bool) :
    rateScaling? t close = some (rateScaling t close) := by
  have hnumber := ht.number
  have hoctave : t.block <<< 1 ≤ 14 := shiftLeft_le ht.block (Nat.le_refl 1)
  have hcode : t.block <<< 1 ||| t.number / 256 = 2 * t.block + t.number / 256 := by
    rw [← Nat.shiftLeft_add_eq_or_of_lt (by omega : t.number / 256 < 2 ^ 1), Nat.shiftLeft_eq,
      Nat.mul_comm]
  unfold rateScaling? rateScaling
  rw [shiftLeft?_bind (by decide) (by omega), hcode]
  rfl

theorem rateScaling_le (ht : t.Ranged) (close : Bool) : rateScaling t close ≤ 15 := by
  have hnumber := ht.number
  have hblock := ht.block
  unfold rateScaling
  dsimp only
  split <;> omega

/-! ### Envelopes -/

/-- `envelopeStep`. -/
def envelopeStep? (rate : Nat) (counter : UInt32) : Option Nat :=
  if rate < 4 then some 0
  else do
    let shift := 13 - rate / 4
    let unit ← shiftLeft? 1 shift
    let mask ← difference? unit 1
    let count ← shiftRight? counter.toNat shift
    let pause ← unsigned32? (4 + rate % 4)
    if counter.toNat &&& mask ≠ 0 then some 0
    else if 0 < shift ∧ pause ≤ count % 8 then some 0
    else if 52 ≤ rate then do
      let exponent ← difference? (rate / 4) 13
      shiftLeft? 1 exponent
    else some 1

theorem envelopeStep?_eq {rate : Nat} (h : rate ≤ 63) (counter : UInt32) :
    envelopeStep? rate counter = some (envelopeStep rate counter) := by
  unfold envelopeStep? envelopeStep
  split
  · rfl
  · dsimp only
    have hunit : 1 <<< (13 - rate / 4) ≤ 0x2000 :=
      shiftLeft_le (Nat.le_refl 1) (by omega : 13 - rate / 4 ≤ 13)
    have hpower : 1 <<< (13 - rate / 4) = 2 ^ (13 - rate / 4) := by
      rw [Nat.shiftLeft_eq, Nat.one_mul]
    have hpositive : 1 ≤ 1 <<< (13 - rate / 4) := by
      rw [hpower]
      exact Nat.one_le_two_pow
    rw [shiftLeft?_bind (by omega) (by omega), difference?_bind hpositive,
      shiftRight?_bind (by omega), unsigned32?_bind (by omega), hpower,
      Nat.and_two_pow_sub_one_eq_mod]
    split
    · rfl
    · split
      · rfl
      · split
        · have hfast : 1 <<< (rate / 4 - 13) ≤ 4 :=
            shiftLeft_le (Nat.le_refl 1) (by omega : rate / 4 - 13 ≤ 2)
          rw [difference?_bind (by omega), shiftLeft?_eq (by omega) (by omega)]
        · rfl

/-- `rateOf`. -/
def rateOf? (r scaling : Nat) : Option Nat :=
  if r = 0 then some 0
  else do
    let quadruple ← unsigned32? (r * 4)
    let sum ← unsigned32? (quadruple + scaling)
    return min sum 63

theorem rateOf?_eq {r scaling : Nat} (hr : r ≤ 15) (hscaling : scaling ≤ 15) :
    rateOf? r scaling = some (rateOf r scaling) := by
  unfold rateOf? rateOf
  split
  · rfl
  · rw [unsigned32?_bind (by omega), unsigned32?_bind (by omega)]
    rfl

/-- The step of an envelope with a setting. -/
def stepOf? (r scaling : Nat) (counter : UInt32) : Option Nat := do
  let rate ← rateOf? r scaling
  envelopeStep? rate counter

theorem stepOf?_eq {r scaling : Nat} (hr : r ≤ 15) (hscaling : scaling ≤ 15) (counter : UInt32) :
    stepOf? r scaling counter = some (envelopeStep (rateOf r scaling) counter) := by
  unfold stepOf?
  rw [bind_of_some (rateOf?_eq hr hscaling)]
  exact envelopeStep?_eq (rateOf_le r scaling) counter

namespace Operator

variable {o : Operator}

/-- `Operator.fade`. -/
def fade? (level step : Nat) : Option Nat :=
  if step = 0 then some level
  else do
    let sum ← unsigned32? (level + step)
    return min sum silence

theorem fade?_eq {level step : Nat} (hlevel : level ≤ silence) (hstep : step ≤ 4) :
    fade? level step = some (fade level step) := by
  unfold silence at hlevel
  unfold fade? fade
  split
  · rfl
  · rw [unsigned32?_bind (by omega)]
    rfl

/-- `Operator.rise`. -/
def rise? (level step : Nat) : Option Nat :=
  if step = 0 then some level
  else do
    let product ← unsigned32? (level * step)
    return level - max (product / 8) 1

theorem rise?_eq {level step : Nat} (hlevel : level ≤ silence) (hstep : step ≤ 4) :
    rise? level step = some (rise level step) := by
  have hproduct : level * step ≤ 127 * 4 := Nat.mul_le_mul hlevel hstep
  unfold rise? rise
  split
  · rfl
  · rw [unsigned32?_bind (by omega)]
    rfl

/-- `Operator.clock`. -/
def clock? (o : Operator) (s : Setting) (scaling : Nat) (sustain : Bool) (counter : UInt32) :
    Option Operator :=
  match o.stage with
  | .attack => do
    let level ← if s.attack = 15 then some 0 else do
      let step ← stepOf? s.attack scaling counter
      rise? o.level step
    return { o with level := level, stage := if level = 0 then .decay else .attack }
  | .decay => do
    let step ← stepOf? s.decay scaling counter
    let level ← fade? o.level step
    let floor ← unsigned32? (s.sustain * 8)
    return { o with level := level, stage := if floor ≤ level then .sustain else .decay }
  | .sustain =>
    if s.sustained then some o
    else do
      let step ← stepOf? s.release scaling counter
      let level ← fade? o.level step
      return { o with level := level }
  | .release => do
    let step ← stepOf? (releaseRate s sustain) scaling counter
    let level ← fade? o.level step
    return { o with level := level, stage := if silence ≤ level then .off else .release }
  | .off => some { o with level := silence }

theorem releaseRate_le (hs : s.Ranged) (sustain : Bool) : releaseRate s sustain ≤ 15 := by
  have hrelease := hs.release
  unfold releaseRate
  split
  · decide
  · split <;> omega

theorem clock?_eq (h : o.Ranged) (hs : s.Ranged) {scaling : Nat} (hscaling : scaling ≤ 15)
    (sustain : Bool) (counter : UInt32) :
    o.clock? s scaling sustain counter = some (o.clock s scaling sustain counter) := by
  have hstep (r : Nat) : envelopeStep (rateOf r scaling) counter ≤ 4 :=
    envelopeStep_le (rateOf_le r scaling) counter
  unfold clock? clock
  dsimp only
  cases o.stage with
  | attack =>
      dsimp only
      split
      · rfl
      · rw [bind_of_some (stepOf?_eq hs.attack hscaling counter)]
        exact bind_of_some (rise?_eq h.level (hstep s.attack)) _
  | decay =>
      have hsustain := hs.sustain
      dsimp only
      rw [bind_of_some (stepOf?_eq hs.decay hscaling counter),
        bind_of_some (fade?_eq h.level (hstep s.decay))]
      exact unsigned32?_bind (by omega) _
  | sustain =>
      dsimp only
      split
      · rfl
      · rw [bind_of_some (stepOf?_eq hs.release hscaling counter)]
        exact bind_of_some (fade?_eq h.level (hstep s.release)) _
  | release =>
      dsimp only
      rw [bind_of_some (stepOf?_eq (releaseRate_le hs sustain) hscaling counter)]
      exact bind_of_some (fade?_eq h.level (hstep _)) _
  | off => rfl

/-! ### Operators -/

/-- `Operator.turn`. -/
def turn? (o : Operator) (t : Tuning) (s : Setting) (c : Counters) : Option Operator := do
  let step ← phaseStep? t s c
  let phase ← unsigned32? (o.phase + step)
  return { o with phase := phase % phaseSize }

theorem turn?_eq (h : o.Ranged) (ht : t.Ranged) (hs : s.Ranged) (hc : c.Ranged) :
    o.turn? t s c = some (o.turn t s c) := by
  have hstep := phaseStep_le ht hs c
  have hphase := h.phase
  unfold phaseSize at hphase
  unfold turn?
  rw [bind_of_some (phaseStep?_eq ht hs hc)]
  exact unsigned32?_bind (by omega) _

/-- `Operator.outputAt`. -/
def outputAt? (o : Operator) (index attenuation : Nat) (rectify : Bool) : Option Int :=
  if silence ≤ o.level ∨ gainSize ≤ attenuation then some 0
  else do
    let wave ← sineTable[index]?
    if rectify ∧ wave < 0 then some 0
    else do
      let gain ← gainTable[attenuation]?
      let product ← signed32? (wave * gain)
      return product / 4096

theorem outputAt?_eq (o : Operator) {index : Nat} (hindex : index < sineSize) (attenuation : Nat)
    (rectify : Bool) :
    o.outputAt? index attenuation rectify = some (o.outputAt index attenuation rectify) := by
  unfold outputAt? outputAt
  split
  · rfl
  · rename_i hloud
    rw [lookUp_bind (by rwa [sineTable_size]) 0]
    dsimp only
    split
    · rfl
    · have hgain : attenuation < gainTable.size := by
        rw [gainTable_size]
        omega
      have hproduct := natAbs_product_le index attenuation
      have hfits : Fits32 (sineTable.getD index 0 * gainTable.getD attenuation 0) := by
        unfold peak unity at hproduct
        unfold Fits32
        omega
      rw [lookUp_bind hgain 0, signed32?_bind hfits]
      rfl

/-- The tremolo of an operator that has one. -/
def tremoloOf? (s : Setting) (c : Counters) : Option Nat :=
  if s.am then c.tremoloLevel? else some 0

theorem tremoloOf?_eq (s : Setting) (c : Counters) :
    tremoloOf? s c = some (if s.am then c.tremoloLevel else 0) := by
  unfold tremoloOf?
  rw [Counters.tremoloLevel?_eq]
  split <;> rfl

/-- `Operator.sample`. -/
def sample? (o : Operator) (s : Setting) (t : Tuning) (c : Counters) (attenuation : Nat)
    (modulation : Int) : Option (Int × Operator) := do
  let scaling ← rateScaling? t s.keyScaled
  let o ← o.clock? s scaling t.sustain c.envelope
  let place ← signed32? ((tableIndex o.phase : Int) + modulation)
  let o ← o.turn? t s c
  let sum ← unsigned32? (o.level + attenuation)
  let scaled ← levelScaling? t s.levelScale
  let sum ← unsigned32? (sum + scaled)
  let tremolo ← tremoloOf? s c
  let total ← unsigned32? (sum + tremolo)
  let wave ← o.outputAt? (place % 1024).toNat total s.rectify
  return (wave, o)

theorem tableIndex_lt {phase : Nat} (h : phase < phaseSize) : tableIndex phase < sineSize := by
  unfold phaseSize at h
  unfold tableIndex sineSize
  omega

theorem sample?_eq (h : o.Ranged) (hs : s.Ranged) (ht : t.Ranged) (hc : c.Ranged)
    {attenuation : Nat} (hattenuation : attenuation ≤ 126) {modulation : Int}
    (hmodulation : modulation.natAbs ≤ 2 * peak) :
    o.sample? s t c attenuation modulation = some (o.sample s t c attenuation modulation) := by
  have hclocked := h.clock s (rateScaling t s.keyScaled) t.sustain c.envelope
  have hturned := hclocked.turn t s c
  have hindex := tableIndex_lt hclocked.phase
  have hlevel := hturned.level
  have hscaled := levelScaling_le ht s.levelScale
  have htremolo := c.tremoloLevel_le
  unfold sineSize at hindex
  unfold peak at hmodulation
  unfold silence at hlevel
  unfold tremoloDepth at htremolo
  unfold sample? Operator.sample
  dsimp only
  rw [bind_of_some (rateScaling?_eq ht s.keyScaled),
    bind_of_some (clock?_eq h hs (rateScaling_le ht _) t.sustain c.envelope)]
  generalize o.clock s (rateScaling t s.keyScaled) t.sustain c.envelope = clocked at *
  rw [signed32?_bind (by unfold Fits32; omega), bind_of_some (turn?_eq hclocked ht hs hc)]
  generalize clocked.turn t s c = turned at *
  rw [unsigned32?_bind (by omega), bind_of_some (levelScaling?_eq ht hs.levelScale),
    unsigned32?_bind (by omega), bind_of_some (tremoloOf?_eq s c)]
  have hadded : (if s.am then c.tremoloLevel else 0) ≤ 13 := by
    split
    · exact htremolo
    · exact Nat.zero_le 13
  generalize (if s.am then c.tremoloLevel else 0) = tremolo at hadded ⊢
  rw [unsigned32?_bind (by omega)]
  exact bind_of_some (outputAt?_eq _ (by unfold sineSize; omega) _ _) _

/-- `Operator.drumSample`. -/
def drumSample? (o : Operator) (s : Setting) (t : Tuning) (c : Counters) (attenuation : Nat)
    (index : Nat) : Option (Int × Operator) := do
  let scaling ← rateScaling? t s.keyScaled
  let o ← o.clock? s scaling false c.envelope
  let o ← o.turn? t s c
  let total ← unsigned32? (o.level + attenuation)
  let wave ← o.outputAt? (index % sineSize) total false
  return (wave, o)

theorem drumSample?_eq (h : o.Ranged) (hs : s.Ranged) (ht : t.Ranged) (hc : c.Ranged)
    {attenuation : Nat} (hattenuation : attenuation ≤ 126) (index : Nat) :
    o.drumSample? s t c attenuation index = some (o.drumSample s t c attenuation index) := by
  have hclocked := h.clock s (rateScaling t s.keyScaled) false c.envelope
  have hturned := hclocked.turn t s c
  have hlevel := hturned.level
  unfold silence at hlevel
  unfold drumSample? Operator.drumSample
  dsimp only
  rw [bind_of_some (rateScaling?_eq ht s.keyScaled),
    bind_of_some (clock?_eq h hs (rateScaling_le ht _) false c.envelope)]
  generalize o.clock s (rateScaling t s.keyScaled) false c.envelope = clocked at *
  rw [bind_of_some (turn?_eq hclocked ht hs hc), unsigned32?_bind (by omega)]
  exact bind_of_some (outputAt?_eq _ (Nat.mod_lt _ (by decide)) _ _) _

end Operator

end Fm

end MasterSystem.Sound
