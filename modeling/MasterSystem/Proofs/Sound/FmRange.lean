import MasterSystem.Proofs.Sound.Safety

/-! # The ranges of the FM chip

The registers of the FM chip take any byte, and an operator hears itself, its modulator, two slow
oscillators and the envelope that the registers describe.  Nothing of this drives it out of the
ranges that its tables are made for.

* **Tables.**  The wave stays within 4095 and the gains within 4096 (`natAbs_wave_le`,
  `natAbs_gain_le`), so that no operator is louder than the wave (`natAbs_outputAt_le`).
* **Operators.**  A step of an envelope ends at full loudness or at silence, and a phase starts over
  (`Operator.Ranged.clock`, `Operator.Ranged.turn`).
* **The chip.**  A sample keeps the ranges, its noise does not fade to zero, and it is the sum of at
  most sixteen operators (`FmChip.Ranged.sample`).  Writes and frames keep the ranges too
  (`FmChip.Reached.ranged`). -/

namespace MasterSystem.Sound

namespace Fm

/-! ### Tables -/

/-- The height of the wave, and of every output. -/
def peak : Nat := 4095

/-- The gain without attenuation. -/
def unity : Nat := 4096

theorem natAbs_sineEntry_le : ∀ i : Fin sineSize, (sineEntry i.val).natAbs ≤ peak := by
  decide +kernel

theorem sineTable_size : sineTable.size = sineSize := by
  rw [sineTable, Array.size_map, Array.size_range]

theorem natAbs_wave_le (i : Nat) : (sineTable.getD i 0).natAbs ≤ peak := by
  rw [Array.getD_eq_getD_getElem?]
  by_cases hi : i < sineSize
  · rw [sineTable, Array.getElem?_map, Array.getElem?_range, if_pos hi]
    exact natAbs_sineEntry_le ⟨i, hi⟩
  · rw [Array.getElem?_eq_none (by rw [sineTable_size]; omega)]
    exact Nat.zero_le peak

/-- No gain is above the one without attenuation. -/
theorem le_of_gainReaches {a g : Nat} (h : gainReaches a g = true) : g ≤ unity := by
  have hreached : (2 * g - 1) ^ 160 * 10 ^ (3 * a) ≤ 8192 ^ 160 := of_decide_eq_true h
  have hpower : (2 * g - 1) ^ 160 ≤ 8192 ^ 160 :=
    Nat.le_trans (Nat.le_mul_of_pos_right _ (Nat.pow_pos (by decide))) hreached
  have hbase : 2 * g - 1 ≤ 8192 := (Nat.pow_le_pow_iff_left (by decide)).1 hpower
  unfold unity
  omega

theorem gainEntry_le (a : Nat) : gainEntry a ≤ unity := by
  have hstep (bits : List Nat) : ∀ g ≤ unity,
      bits.foldl (fun g bit => if gainReaches a (g + bit) then g + bit else g) g ≤ unity := by
    induction bits with
    | nil => exact fun g hg => hg
    | cons bit bits ih =>
        intro g hg
        refine ih _ ?_
        show (if gainReaches a (g + bit) then g + bit else g) ≤ unity
        split
        · rename_i hreached
          exact le_of_gainReaches hreached
        · exact hg
  exact hstep _ 0 (Nat.zero_le unity)

theorem gainTable_size : gainTable.size = gainSize := by
  rw [gainTable, Array.size_map, Array.size_range]

theorem natAbs_gain_le (a : Nat) : (gainTable.getD a 0).natAbs ≤ unity := by
  rw [Array.getD_eq_getD_getElem?]
  by_cases ha : a < gainSize
  · rw [gainTable, Array.getElem?_map, Array.getElem?_range, if_pos ha, Option.map_some,
      Option.getD_some, Int.natAbs_natCast]
    exact gainEntry_le a
  · rw [Array.getElem?_eq_none (by rw [gainTable_size]; omega)]
    exact Nat.zero_le unity

/-- A wave under a gain. -/
theorem natAbs_product_le (i a : Nat) :
    (sineTable.getD i 0 * gainTable.getD a 0).natAbs ≤ peak * unity := by
  rw [Int.natAbs_mul]
  exact Nat.mul_le_mul (natAbs_wave_le i) (natAbs_gain_le a)

/-! ### Envelopes -/

theorem rateOf_le (r scaling : Nat) : rateOf r scaling ≤ 63 := by
  unfold rateOf
  split <;> omega

theorem envelopeStep_le {rate : Nat} (h : rate ≤ 63) (counter : UInt32) :
    envelopeStep rate counter ≤ 4 := by
  have hfast : 1 <<< (rate / 4 - 13) ≤ 4 := by
    have hexponent : rate / 4 - 13 ≤ 2 := by omega
    rw [Nat.shiftLeft_eq, Nat.one_mul]
    exact Nat.pow_le_pow_right (by decide : 0 < 2) hexponent
  unfold envelopeStep
  dsimp only
  repeat' split
  all_goals omega

namespace Operator

/-- The numbers of an operator are in their ranges. -/
structure Ranged (o : Operator) : Prop where
  level : o.level ≤ silence
  phase : o.phase < phaseSize
  older : o.older.natAbs ≤ peak
  newer : o.newer.natAbs ≤ peak

variable {o : Operator}

theorem fade_le {level : Nat} (h : level ≤ silence) (step : Nat) : fade level step ≤ silence := by
  unfold fade
  split <;> omega

theorem rise_le (level step : Nat) : rise level step ≤ level := by
  unfold rise
  split <;> omega

theorem Ranged.new : ({} : Operator).Ranged :=
  ⟨Nat.le_refl silence, by decide, Nat.zero_le peak, Nat.zero_le peak⟩

theorem Ranged.key (h : o.Ranged) (rising falling : Bool) : (o.key rising falling).Ranged := by
  unfold Operator.key keyOn keyOff
  split
  · exact ⟨h.level, Nat.succ_pos _, h.older, h.newer⟩
  · split
    · split
      · exact h
      · exact ⟨h.level, h.phase, h.older, h.newer⟩
    · exact h

theorem Ranged.clock (h : o.Ranged) (s : Setting) (scaling : Nat) (sustain : Bool)
    (counter : UInt32) : (o.clock s scaling sustain counter).Ranged := by
  unfold Operator.clock
  dsimp only
  split
  case h_1 =>
    refine ⟨?_, h.phase, h.older, h.newer⟩
    dsimp only
    split
    · exact Nat.zero_le silence
    · exact Nat.le_trans (rise_le ..) h.level
  case h_2 => exact ⟨fade_le h.level _, h.phase, h.older, h.newer⟩
  case h_3 =>
    split
    · exact h
    · exact ⟨fade_le h.level _, h.phase, h.older, h.newer⟩
  case h_4 => exact ⟨fade_le h.level _, h.phase, h.older, h.newer⟩
  case h_5 => exact ⟨Nat.le_refl silence, h.phase, h.older, h.newer⟩

theorem Ranged.turn (h : o.Ranged) (t : Tuning) (s : Setting) (c : Counters) :
    (o.turn t s c).Ranged :=
  ⟨h.level, Nat.mod_lt _ (by decide), h.older, h.newer⟩

/-- The modulator remembers what it gave. -/
theorem Ranged.remember (h : o.Ranged) {m : Int} (hm : m.natAbs ≤ peak) :
    { o with older := o.newer, newer := m : Operator }.Ranged :=
  ⟨h.level, h.phase, h.newer, hm⟩

theorem natAbs_outputAt_le (o : Operator) (index attenuation : Nat) (rectify : Bool) :
    (o.outputAt index attenuation rectify).natAbs ≤ peak := by
  unfold outputAt
  split
  · exact Nat.zero_le peak
  · dsimp only
    split
    · exact Nat.zero_le peak
    · have hproduct := natAbs_product_le index attenuation
      unfold peak unity at *
      omega

theorem Ranged.sample (h : o.Ranged) (s : Setting) (t : Tuning) (c : Counters) (attenuation : Nat)
    (modulation : Int) :
    (o.sample s t c attenuation modulation).1.natAbs ≤ peak ∧
      (o.sample s t c attenuation modulation).2.Ranged :=
  ⟨natAbs_outputAt_le .., (h.clock ..).turn ..⟩

theorem natAbs_drumSample_le (o : Operator) (s : Setting) (t : Tuning) (c : Counters)
    (attenuation index : Nat) : (o.drumSample s t c attenuation index).1.natAbs ≤ peak :=
  natAbs_outputAt_le ..

end Operator

/-- The slow oscillators are within their turns. -/
structure Counters.Ranged (c : Counters) : Prop where
  tremolo : c.tremolo < tremoloPeriod
  vibrato : c.vibrato < vibratoPeriod

theorem Counters.Ranged.tick (c : Counters) : c.tick.Ranged :=
  ⟨Nat.mod_lt _ (by decide), Nat.mod_lt _ (by decide)⟩

end Fm

open Fm

/-- Both operators of a channel are in range. -/
structure FmChannel.Ranged (c : FmChannel) : Prop where
  modulator : c.modulator.Ranged
  carrier : c.carrier.Ranged

namespace FmChip

/-- The noise has 23 bits. -/
def noiseSize : Nat := 0x800000

/-- The numbers of a chip are in their ranges. -/
structure Ranged (f : FmChip) : Prop where
  safe : f.Safe
  channels : ∀ c ∈ f.channels, c.Ranged
  noise : 0 < f.noise.toNat ∧ f.noise.toNat < noiseSize
  counters : f.counters.Ranged

variable {f : FmChip}

/-! ### Samples -/

/-- The noise is fed back into its highest bit, before it can run dry. -/
theorem nextNoise_range {n : UInt32} (h : 0 < n.toNat ∧ n.toNat < noiseSize) :
    0 < (nextNoise n).toNat ∧ (nextNoise n).toNat < noiseSize := by
  have hhalf (v : UInt32) : (v >>> 1).toNat = v.toNat / 2 := by
    rw [UInt32.toNat_shiftRight]
    exact Nat.shiftRight_eq_div_pow v.toNat 1
  have hodd : (n &&& 1).toNat = n.toNat % 2 := by
    rw [UInt32.toNat_and]
    exact Nat.and_two_pow_sub_one_eq_mod n.toNat 1
  unfold noiseSize at h ⊢
  unfold nextNoise
  rw [hhalf]
  by_cases heven : n &&& 1 = 0
  · rw [if_pos (by simpa using heven)]
    rw [heven] at hodd
    have hzero : (0 : UInt32).toNat = 0 := rfl
    omega
  · rw [if_neg (by simpa using heven), UInt32.toNat_xor]
    have hlow : n.toNat.testBit 23 = false := Nat.testBit_lt_two_pow h.2
    have hhigh : (n.toNat ^^^ (0x800302 : UInt32).toNat).testBit 23 = true := by
      rw [Nat.testBit_xor, hlow]
      decide
    have hlarge := Nat.ge_two_pow_of_testBit hhigh
    have hsmall : n.toNat ^^^ (0x800302 : UInt32).toNat < 2 ^ 24 :=
      Nat.xor_lt_two_pow (by omega) (by decide)
    omega

theorem Ranged.channel (h : f.Ranged) (i : Fin 9) : (f.channels.get i).Ranged :=
  h.channels _ (Vector.getElem_mem i.isLt)

theorem Ranged.mapChannel (h : f.Ranged) (i : Fin 9) {g : FmChannel → FmChannel}
    (hg : ∀ c : FmChannel, c.Ranged → (g c).Ranged) : (f.mapChannel i g).Ranged where
  safe := ⟨h.safe.regs, h.safe.address⟩
  channels c hc := by
    have hset : c ∈ f.channels.set i.val (g (f.channels.get i)) i.isLt := hc
    obtain hold | rfl := Vector.mem_or_eq_of_mem_set hset
    · exact h.channels c hold
    · exact hg _ (h.channel i)
  noise := h.noise
  counters := h.counters

theorem pairSample_ranged {c : FmChannel} (h : c.Ranged) (p : Patch) (t : Tuning) (n : Counters)
    (attenuation : Nat) :
    (pairSample c p t n attenuation).1.natAbs ≤ peak ∧
      (pairSample c p t n attenuation).2.Ranged := by
  unfold pairSample
  dsimp only
  obtain ⟨hwave, hmodulator⟩ := h.modulator.sample (p.setting .modulator) t n p.modulatorLevel
    (if p.feedback = 0 then 0 else (c.modulator.older + c.modulator.newer) >>> (9 - p.feedback))
  obtain ⟨hheard, hcarrier⟩ := h.carrier.sample (p.setting .carrier) t n attenuation
    ((c.modulator.sample (p.setting .modulator) t n p.modulatorLevel
      (if p.feedback = 0 then 0
        else (c.modulator.older + c.modulator.newer) >>> (9 - p.feedback))).1 / 2)
  exact ⟨hheard, hmodulator.remember hwave, hcarrier⟩

theorem Ranged.playPair (h : f.Ranged) (i : Fin 9) (p : Patch) :
    (f.playPair i p).1.natAbs ≤ peak ∧ (f.playPair i p).2.Ranged := by
  obtain ⟨hheard, hchannel⟩ :=
    pairSample_ranged (h.channel i) p (f.tuning i) f.counters (f.volume i)
  exact ⟨hheard, h.mapChannel i fun _ _ => hchannel⟩

theorem Ranged.playMelodic : ∀ (is : List (Fin 9)) {f : FmChip} (total : Int), f.Ranged →
    (f.playMelodic is total).1.natAbs ≤ total.natAbs + peak * is.length ∧
      (f.playMelodic is total).2.Ranged
  | [], _, total, h => ⟨Nat.le_refl total.natAbs, h⟩
  | i :: is, f, total, h => by
      obtain ⟨hheard, hnext⟩ := h.playPair i (f.patch (f.voice i >>> 4).toNat)
      obtain ⟨htotal, hlast⟩ := playMelodic is
        (total + (f.playPair i (f.patch (f.voice i >>> 4).toNat)).1) hnext
      unfold FmChip.playMelodic
      refine ⟨Nat.le_trans htotal ?_, hlast⟩
      rw [List.length_cons, Nat.mul_succ]
      omega

/-- The drums sound twice as loud. -/
theorem natAbs_doubled_le {bass hat snare tom cymbal : Int} (hbass : bass.natAbs ≤ peak)
    (hhat : hat.natAbs ≤ peak) (hsnare : snare.natAbs ≤ peak) (htom : tom.natAbs ≤ peak)
    (hcymbal : cymbal.natAbs ≤ peak) :
    (2 * (bass + hat + snare + tom + cymbal)).natAbs ≤ 10 * peak := by omega

theorem Ranged.playDrums (h : f.Ranged) :
    f.playDrums.1.natAbs ≤ 10 * peak ∧ f.playDrums.2.Ranged := by
  obtain ⟨hbass, hnext⟩ := h.playPair 6 bassDrum
  have h7 := hnext.channel 7
  have h8 := hnext.channel 8
  unfold FmChip.playDrums
  dsimp only
  refine ⟨?_, (hnext.mapChannel 7 fun c _ => ⟨?_, ?_⟩).mapChannel 8 fun c _ => ⟨?_, ?_⟩⟩
  · exact natAbs_doubled_le hbass (Operator.natAbs_drumSample_le ..)
      (Operator.natAbs_drumSample_le ..) (Operator.natAbs_drumSample_le ..)
      (Operator.natAbs_drumSample_le ..)
  · exact (h7.modulator.clock ..).turn ..
  · exact (h7.carrier.clock ..).turn ..
  · exact (h8.modulator.clock ..).turn ..
  · exact (h8.carrier.clock ..).turn ..

/-- A sample keeps the ranges, and is the sum of nine channels, or of six channels and twice of five
drums. -/
theorem Ranged.sample (h : f.Ranged) : f.sample.1.natAbs ≤ 16 * peak ∧ f.sample.2.Ranged := by
  have hlater {g : FmChip} (hg : g.Ranged) :
      { g with noise := nextNoise g.noise, counters := g.counters.tick : FmChip }.Ranged :=
    ⟨⟨hg.safe.regs, hg.safe.address⟩, hg.channels, nextNoise_range hg.noise, .tick g.counters⟩
  unfold FmChip.sample
  extract_lets rhythm
  clear_value rhythm
  have hmelodic := Ranged.playMelodic
    (if rhythm then [0, 1, 2, 3, 4, 5] else [0, 1, 2, 3, 4, 5, 6, 7, 8]) 0 h
  generalize f.playMelodic (if rhythm then _ else _) 0 = p at hmelodic ⊢
  obtain ⟨total, g⟩ := p
  obtain ⟨htotal, hnext⟩ := hmelodic
  have hdrums := hnext.playDrums
  dsimp only at hdrums ⊢
  generalize g.playDrums = q at hdrums ⊢
  cases rhythm with
  | false =>
      have hnine : total.natAbs ≤ peak * 9 := by simpa using htotal
      refine ⟨?_, hlater hnext⟩
      show (total + 0).natAbs ≤ 16 * peak
      omega
  | true =>
      have hsix : total.natAbs ≤ peak * 6 := by simpa using htotal
      refine ⟨?_, hlater hdrums.2⟩
      show (total + q.1).natAbs ≤ 16 * peak
      omega

theorem Ranged.play : ∀ (n : Nat) {f : FmChip} (out : Stereo), f.Ranged → (play n f out).1.Ranged
  | 0, _, _, h => h
  | n + 1, f, out, h => by
      unfold FmChip.play
      obtain ⟨-, hnext⟩ := h.sample
      exact Ranged.play n _ ⟨⟨hnext.safe.regs, hnext.safe.address⟩, hnext.channels, hnext.noise,
        hnext.counters⟩

/-! ### Writes and frames -/

theorem Ranged.setRegs (h : f.Ranged) (i : Nat) (v : UInt8) :
    { f with regs := f.regs.setIfInBounds i v : FmChip }.Ranged :=
  ⟨⟨Array.size_setIfInBounds.trans h.safe.regs, h.safe.address⟩, h.channels, h.noise, h.counters⟩

theorem Ranged.updateRhythmKeys (h : f.Ranged) : f.updateRhythmKeys.Ranged := by
  unfold FmChip.updateRhythmKeys
  extract_lets keys rising falling press
  have hpress {c : FmChannel} (hc : c.Ranged) (bit bit' : UInt8) :
      { c with modulator := press bit c.modulator, carrier := press bit' c.carrier :
        FmChannel }.Ranged :=
    ⟨hc.modulator.key _ _, hc.carrier.key _ _⟩
  have hkeyed := ((h.mapChannel 6 fun c hc => hpress hc 0x10 0x10).mapChannel 7 fun c hc =>
    hpress hc 0x01 0x08).mapChannel 8 fun c hc => hpress hc 0x04 0x02
  exact ⟨⟨hkeyed.safe.regs, hkeyed.safe.address⟩, hkeyed.channels, hkeyed.noise, hkeyed.counters⟩

theorem Ranged.store (h : f.Ranged) (v : UInt8) : (f.store v).Ranged := by
  have hstored := h.setRegs f.address.toNat v
  unfold FmChip.store
  dsimp only
  split
  · exact hstored.updateRhythmKeys
  · split
    · exact hstored.mapChannel _ fun c hc => ⟨hc.modulator.key _ _, hc.carrier.key _ _⟩
    · exact hstored

theorem Ranged.runUntil (h : f.Ranged) (time : Nat) (out : Stereo) :
    (f.runUntil time out).1.Ranged := h.play _ out

theorem Ranged.new : ({} : FmChip).Ranged where
  safe := .new
  channels c hc := by
    rw [(Vector.mem_replicate.1 hc).2]
    exact ⟨.new, .new⟩
  noise := by decide
  counters := ⟨by decide, by decide⟩

/-- A chip that was turned on and then used, its output being whatever the rest of the console made
of it. -/
inductive Reached : FmChip → Prop
  | new : Reached {}
  | writeAddress {f : FmChip} (h : Reached f) (v : UInt8) : Reached (f.writeAddress v)
  | writeData {f : FmChip} (h : Reached f) (time : Nat) (v : UInt8) (out : Stereo) :
      Reached (f.writeData time v out).1
  | runUntil {f : FmChip} (h : Reached f) (time : Nat) (out : Stereo) :
      Reached (f.runUntil time out).1
  | setEnabled {f : FmChip} (h : Reached f) (time : Nat) (enabled : Bool) (out : Stereo) :
      Reached (Chip.setEnabled f time enabled out).1
  | endFrame {f : FmChip} (h : Reached f) (clocks : Nat) (out : Stereo) :
      Reached (Chip.endFrame f clocks out).1
  | reset {f : FmChip} (h : Reached f) : Reached (Chip.reset f)

theorem Reached.ranged (h : Reached f) : f.Ranged := by
  induction h with
  | new => exact .new
  | writeAddress _ v ih => exact ⟨ih.safe.writeAddress v, ih.channels, ih.noise, ih.counters⟩
  | writeData _ time v out ih => exact (ih.runUntil time out).store v
  | runUntil _ time out ih => exact ih.runUntil time out
  | setEnabled _ time enabled out ih =>
      have hrun := ih.runUntil time out
      exact ⟨⟨hrun.safe.regs, hrun.safe.address⟩, hrun.channels, hrun.noise, hrun.counters⟩
  | endFrame _ clocks out ih =>
      have hrun := ih.runUntil clocks out
      exact ⟨⟨hrun.safe.regs, hrun.safe.address⟩, hrun.channels, hrun.noise, hrun.counters⟩
  | reset => exact .new

end FmChip

end MasterSystem.Sound
