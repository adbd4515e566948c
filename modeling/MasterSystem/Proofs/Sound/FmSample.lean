import MasterSystem.Proofs.Sound.FmOperator

/-! # A sample of the FM chip, checked

A sample is the sum of the channels.  The checked programs of the operators make up one of the whole
chip (`FmChip.sample?`), and it gives what the sample gives when the chip is in its ranges
(`FmChip.sample?_eq`).  A chip that was turned on and used is in them before every sample
(`FmChip.stays_in_range`). -/

namespace MasterSystem.Sound

open Fm Word

namespace FmChip

variable {f : FmChip}

/-! ### Registers -/

theorem reg_bind {β : Type} (h : f.Safe) {i : Nat} (hi : i < 64) (k : UInt8 → Option β) :
    (f.regs[i]? >>= k) = k (f.reg i) := lookUp_bind (by rwa [h.regs]) 0 k

/-- `FmChip.tuning`. -/
def tuning? (f : FmChip) (i : Fin 9) : Option Tuning := do
  let low ← f.regs[0x10 + i.val]?
  let high ← f.regs[0x20 + i.val]?
  let top ← shiftLeft? (high &&& 1).toNat 8
  return {
    number := low.toNat ||| top
    block := (high >>> 1 &&& 7).toNat
    sustain := high &&& 0x20 != 0 }

theorem tuning_ranged (f : FmChip) (i : Fin 9) : (f.tuning i).Ranged where
  number := by
    have hlow := (f.reg (0x10 + i.val)).toNat_lt
    have hhigh := toNat_and_le (f.reg (0x20 + i.val)) 1
    have hone : (1 : UInt8).toNat = 1 := rfl
    show (f.reg (0x10 + i.val)).toNat + (f.reg (0x20 + i.val) &&& 1).toNat * 256 ≤ 511
    omega
  block := toNat_and_le _ 7

theorem tuning?_eq (h : f.Safe) (i : Fin 9) : f.tuning? i = some (f.tuning i) := by
  have htop : (f.reg (0x20 + i.val) &&& 1).toNat <<< 8 ≤ 256 :=
    shiftLeft_le (toNat_and_le _ 1) (Nat.le_refl 8)
  have hnumber : (f.reg (0x10 + i.val)).toNat ||| (f.reg (0x20 + i.val) &&& 1).toNat <<< 8 =
      (f.reg (0x10 + i.val)).toNat + (f.reg (0x20 + i.val) &&& 1).toNat * 256 := by
    rw [Nat.or_comm, ← Nat.shiftLeft_add_eq_or_of_lt (f.reg (0x10 + i.val)).toNat_lt,
      Nat.shiftLeft_eq, Nat.add_comm]
  unfold tuning?
  rw [reg_bind h (by omega), reg_bind h (by omega), shiftLeft?_bind (by decide) (by omega), hnumber]
  rfl

/-- `FmChip.volume`. -/
def volume? (f : FmChip) (i : Fin 9) : Option Nat := do
  let voice ← f.regs[0x30 + i.val]?
  unsigned32? ((voice &&& 0x0F).toNat * 8)

theorem volume_le (f : FmChip) (i : Fin 9) : f.volume i ≤ 120 :=
  Nat.mul_le_mul_right 8 (toNat_and_le _ 0x0F)

theorem volume?_eq (h : f.Safe) (i : Fin 9) : f.volume? i = some (f.volume i) := by
  unfold volume?
  rw [reg_bind h (by omega)]
  exact if_pos (Nat.lt_of_le_of_lt (f.volume_le i) (by decide))

/-- `FmChip.drumVolume`. -/
def drumVolume? (f : FmChip) (i : Fin 9) : Option Nat := do
  let voice ← f.regs[0x30 + i.val]?
  unsigned32? ((voice >>> 4).toNat * 8)

theorem drumVolume_le (f : FmChip) (i : Fin 9) : f.drumVolume i ≤ 120 :=
  Nat.mul_le_mul_right 8 (toNat_shift_le _ 4)

theorem drumVolume?_eq (h : f.Safe) (i : Fin 9) : f.drumVolume? i = some (f.drumVolume i) := by
  unfold drumVolume?
  rw [reg_bind h (by omega)]
  exact if_pos (Nat.lt_of_le_of_lt (f.drumVolume_le i) (by decide))

/-- `FmChip.patch`. -/
def patch? (f : FmChip) (n : Nat) : Option Patch :=
  if n = 0 then
    if 8 ≤ f.regs.size then some (f.patch 0) else none
  else melodicPatches[n - 1]?

theorem patch?_eq (h : f.Safe) {n : Nat} (hn : n ≤ 15) : f.patch? n = some (f.patch n) := by
  unfold patch?
  by_cases hzero : n = 0
  · rw [if_pos hzero, if_pos (by rw [h.regs]; omega), hzero]
  · have hplace : n - 1 < melodicPatches.size := by
      have hsize : melodicPatches.size = 15 := rfl
      omega
    rw [if_neg hzero, Array.getElem?_eq_getElem hplace]
    unfold patch
    rw [if_neg hzero, Array.getD_eq_getD_getElem?, Array.getElem?_eq_getElem hplace]
    rfl

/-! ### Channels -/

/-- A channel, if there is one of the number. -/
def channel? (n : Nat) : Option (Fin 9) := if h : n < 9 then some ⟨n, h⟩ else none

theorem channel?_val (i : Fin 9) : channel? i.val = some i := dif_pos i.isLt

/-- What the modulator hears of itself. -/
def heard (c : FmChannel) (p : Patch) : Int :=
  if p.feedback = 0 then 0 else (c.modulator.older + c.modulator.newer) >>> (9 - p.feedback)

/-- `FmChip.heard`. -/
def heard? (c : FmChannel) (p : Patch) : Option Int :=
  if p.feedback = 0 then some 0
  else do
    let sum ← signed32? (c.modulator.older + c.modulator.newer)
    let shift ← difference? 9 p.feedback
    signedShiftRight? sum shift

theorem natAbs_heard_le {c : FmChannel} (h : c.Ranged) (p : Patch) :
    (heard c p).natAbs ≤ 2 * peak := by
  have holder := h.modulator.older
  have hnewer := h.modulator.newer
  unfold heard
  split
  · exact Nat.zero_le (2 * peak)
  · rw [Int.shiftRight_eq_div_pow]
    exact Nat.le_trans (Int.natAbs_ediv_le_natAbs ..) (by omega)

theorem heard?_eq {c : FmChannel} (h : c.Ranged) (p : Patch) : heard? c p = some (heard c p) := by
  have holder := h.modulator.older
  have hnewer := h.modulator.newer
  have hfeedback := p.feedback_le
  unfold peak at holder hnewer
  unfold heard? heard
  split
  · rfl
  · rw [signed32?_bind (by unfold Fits32; omega), difference?_bind (by omega)]
    exact if_pos (by omega)

/-- `FmChip.pairSample`. -/
def pairSample? (c : FmChannel) (p : Patch) (t : Tuning) (counters : Counters)
    (attenuation : Nat) : Option (Int × FmChannel) := do
  let modulator ← p.setting? .modulator
  let carrier ← p.setting? .carrier
  let level ← p.modulatorLevel?
  let heard ← heard? c p
  let (m, o) ← c.modulator.sample? modulator t counters level heard
  let o := { o with older := o.newer, newer := m }
  let (s, carrier) ← c.carrier.sample? carrier t counters attenuation (m / 2)
  return (s, { c with modulator := o, carrier := carrier })

theorem pairSample?_eq {c : FmChannel} (h : c.Ranged) (p : Patch) {t : Tuning} (ht : t.Ranged)
    {counters : Counters} (hc : counters.Ranged) {attenuation : Nat}
    (hattenuation : attenuation ≤ 126) :
    pairSample? c p t counters attenuation = some (pairSample c p t counters attenuation) := by
  have hbent := h.modulator.sample (p.setting .modulator) t counters p.modulatorLevel (heard c p)
  have hmodulator := Operator.sample?_eq h.modulator (p.setting_ranged .modulator) ht hc
    p.modulatorLevel_le (natAbs_heard_le h p)
  unfold pairSample? pairSample
  rw [bind_of_some (p.setting?_eq .modulator), bind_of_some (p.setting?_eq .carrier),
    bind_of_some p.modulatorLevel?_eq, bind_of_some (heard?_eq h p), bind_of_some hmodulator]
  clear hmodulator
  unfold heard at hbent ⊢
  extract_lets o heard
  generalize o.sample (p.setting .modulator) t counters p.modulatorLevel heard = first at hbent ⊢
  obtain ⟨m, o'⟩ := first
  obtain ⟨hwave, -⟩ : m.natAbs ≤ peak ∧ o'.Ranged := hbent
  have hhalf : (m / 2).natAbs ≤ 2 * peak := by omega
  exact bind_of_some (Operator.sample?_eq h.carrier (p.setting_ranged .carrier) ht hc hattenuation
    hhalf) _

/-- `FmChip.playPair`. -/
def playPair? (f : FmChip) (i : Fin 9) (p : Patch) : Option (Int × FmChip) := do
  let t ← f.tuning? i
  let attenuation ← f.volume? i
  let (s, c) ← pairSample? (f.channels.get i) p t f.counters attenuation
  return (s, f.mapChannel i fun _ => c)

theorem playPair?_eq (h : f.Ranged) (i : Fin 9) (p : Patch) :
    f.playPair? i p = some (f.playPair i p) := by
  have hvolume := f.volume_le i
  unfold playPair?
  rw [bind_of_some (tuning?_eq h.safe i), bind_of_some (volume?_eq h.safe i)]
  exact bind_of_some (pairSample?_eq (h.channel i) p (f.tuning_ranged i) h.counters (by omega)) _

/-- `FmChip.playMelodic`. -/
def playMelodic? (f : FmChip) : List Nat → Int → Option (Int × FmChip)
  | [], total => some (total, f)
  | n :: ns, total => do
    let i ← channel? n
    let voice ← f.regs[0x30 + i.val]?
    let p ← f.patch? (voice >>> 4).toNat
    let (s, f) ← f.playPair? i p
    let total ← signed32? (total + s)
    playMelodic? f ns total

theorem playMelodic?_eq : ∀ (is : List (Fin 9)) {f : FmChip} (total : Int), f.Ranged →
    total.natAbs + peak * is.length < 0x80000000 →
    f.playMelodic? (is.map Fin.val) total = some (f.playMelodic is total)
  | [], _, _, _, _ => rfl
  | i :: is, f, total, h, hroom => by
      have hplayed := h.playPair i (f.patch (f.voice i >>> 4).toNat)
      have hpatch : f.patch? (f.voice i >>> 4).toNat = some (f.patch (f.voice i >>> 4).toNat) :=
        patch?_eq h.safe (toNat_shift_le _ 4)
      rw [List.length_cons, Nat.mul_succ] at hroom
      rw [List.map_cons]
      unfold playMelodic? playMelodic
      rw [bind_of_some (channel?_val i), reg_bind h.safe (by omega), ← voice, bind_of_some hpatch,
        bind_of_some (playPair?_eq h i _)]
      generalize f.playPair i (f.patch (f.voice i >>> 4).toNat) = first at hplayed ⊢
      obtain ⟨s, g⟩ := first
      obtain ⟨hheard, hnext⟩ : s.natAbs ≤ peak ∧ g.Ranged := hplayed
      dsimp only
      rw [signed32?_bind (by unfold Fits32; omega)]
      exact playMelodic?_eq is _ hnext (by omega)

/-! ### Drums -/

/-- A drum is added twice. -/
def addTwice? (total s : Int) : Option Int := do
  let twice ← signed32? (2 * s)
  signed32? (total + twice)

theorem addTwice?_eq {total s : Int} (htotal : total.natAbs ≤ 8 * peak) (hs : s.natAbs ≤ peak) :
    addTwice? total s = some (total + 2 * s) := by
  unfold peak at htotal hs
  unfold addTwice?
  rw [signed32?_bind (by unfold Fits32; omega)]
  exact if_pos (by unfold Fits32; omega)

/-- A drum, added to `total`. -/
def drum? (o : Operator) (p : Patch) (role : Role) (t : Tuning) (counters : Counters)
    (attenuation index : Nat) (total : Int) : Option (Int × Operator) := do
  let setting ← p.setting? role
  let (s, o) ← o.drumSample? setting t counters attenuation index
  let total ← addTwice? total s
  return (total, o)

theorem drum?_eq {o : Operator} (ho : o.Ranged) (p : Patch) (role : Role) {t : Tuning}
    (ht : t.Ranged) {counters : Counters} (hc : counters.Ranged) {attenuation : Nat}
    (hattenuation : attenuation ≤ 120) (index : Nat) {total : Int}
    (htotal : total.natAbs ≤ 8 * peak) :
    drum? o p role t counters attenuation index total =
      some (total + 2 * (o.drumSample (p.setting role) t counters attenuation index).1,
        (o.drumSample (p.setting role) t counters attenuation index).2) := by
  have hheard := o.natAbs_drumSample_le (p.setting role) t counters attenuation index
  unfold drum?
  rw [bind_of_some (p.setting?_eq role),
    bind_of_some (Operator.drumSample?_eq ho (p.setting_ranged role) ht hc (by omega) index)]
  exact bind_of_some (addTwice?_eq htotal hheard) _

/-- The two drums of a channel, added to `total`. -/
def drumPair? (f : FmChip) (i : Fin 9) (p : Patch) (index index' : Nat) (total : Int) :
    Option (Int × Operator × Operator) := do
  let t ← f.tuning? i
  let high ← f.drumVolume? i
  let low ← f.volume? i
  let c := f.channels.get i
  let (total, modulator) ← drum? c.modulator p .modulator t f.counters high index total
  let (total, carrier) ← drum? c.carrier p .carrier t f.counters low index' total
  return (total, modulator, carrier)

theorem drumPair?_eq (h : f.Ranged) (i : Fin 9) (p : Patch) (index index' : Nat) {total : Int}
    (htotal : total.natAbs ≤ 6 * peak) :
    let c := f.channels.get i
    let modulator := c.modulator.drumSample (p.setting .modulator) (f.tuning i) f.counters
      (f.drumVolume i) index
    let carrier := c.carrier.drumSample (p.setting .carrier) (f.tuning i) f.counters (f.volume i)
      index'
    f.drumPair? i p index index' total =
      some (total + 2 * modulator.1 + 2 * carrier.1, modulator.2, carrier.2) := by
  have hc := h.channel i
  have ht := f.tuning_ranged i
  intro c modulator carrier
  have hheard : modulator.1.natAbs ≤ peak := Operator.natAbs_drumSample_le ..
  have hfirst : total.natAbs ≤ 8 * peak := by omega
  have hsecond : (total + 2 * modulator.1).natAbs ≤ 8 * peak := by omega
  unfold drumPair?
  rw [bind_of_some (tuning?_eq h.safe i), bind_of_some (drumVolume?_eq h.safe i),
    bind_of_some (volume?_eq h.safe i),
    bind_of_some (drum?_eq hc.modulator p .modulator ht h.counters (f.drumVolume_le i) index
      hfirst)]
  exact bind_of_some (drum?_eq hc.carrier p .carrier ht h.counters (f.volume_le i) index' hsecond) _

/-- `FmChip.playDrums`. -/
def playDrums? (f : FmChip) : Option (Int × FmChip) := do
  let i6 ← channel? 6
  let i7 ← channel? 7
  let i8 ← channel? 8
  let (bass, f) ← f.playPair? i6 bassDrum
  let total ← addTwice? 0 bass
  let noise := f.noise &&& 1 != 0
  let hat := tableIndex (f.channels.get i7).modulator.phase
  let tom := tableIndex (f.channels.get i8).modulator.phase
  let cymbal := tableIndex (f.channels.get i8).carrier.phase
  let ring := ((bit hat 2 ^^ bit hat 7) || bit hat 3) || (bit cymbal 3 ^^ bit cymbal 5)
  let (total, hatOp, snareOp) ← f.drumPair? i7 hatSnare (hatIndex ring noise)
    (snareIndex (bit hat 8) noise) total
  let (total, tomOp, cymbalOp) ← f.drumPair? i8 tomCymbal tom (cymbalIndex ring) total
  let f := f.mapChannel i7 fun c => { c with modulator := hatOp, carrier := snareOp }
  let f := f.mapChannel i8 fun c => { c with modulator := tomOp, carrier := cymbalOp }
  return (total, f)

theorem playDrums?_eq (h : f.Ranged) : f.playDrums? = some f.playDrums := by
  have hplayed := h.playPair 6 bassDrum
  have h6 : channel? 6 = some 6 := channel?_val 6
  have h7 : channel? 7 = some 7 := channel?_val 7
  have h8 : channel? 8 = some 8 := channel?_val 8
  unfold playDrums? playDrums
  rw [bind_of_some h6, bind_of_some h7, bind_of_some h8, bind_of_some (playPair?_eq h 6 bassDrum)]
  generalize f.playPair 6 bassDrum = first at hplayed ⊢
  obtain ⟨bass, g⟩ := first
  obtain ⟨hbass, hg⟩ : bass.natAbs ≤ peak ∧ g.Ranged := hplayed
  have hget7 : g.channels[7] = g.channels.get 7 := rfl
  have hget8 : g.channels[8] = g.channels.get 8 := rfl
  dsimp only
  rw [hget7, hget8]
  generalize hatIndex _ _ = hatPlace, snareIndex _ _ = snarePlace, cymbalIndex _ = cymbalPlace
  have hhat := (g.channels.get 7).modulator.natAbs_drumSample_le (hatSnare.setting .modulator)
    (g.tuning 7) g.counters (g.drumVolume 7) hatPlace
  have hsnare := (g.channels.get 7).carrier.natAbs_drumSample_le (hatSnare.setting .carrier)
    (g.tuning 7) g.counters (g.volume 7) snarePlace
  have hfirst : (0 + 2 * bass).natAbs ≤ 6 * peak := by omega
  rw [bind_of_some (addTwice?_eq (Nat.zero_le _) hbass),
    bind_of_some (drumPair?_eq hg 7 hatSnare hatPlace snarePlace hfirst)]
  generalize (g.channels.get 7).modulator.drumSample _ _ _ _ _ = hat at hhat ⊢
  generalize (g.channels.get 7).carrier.drumSample _ _ _ _ _ = snare at hsnare ⊢
  have hsecond : (0 + 2 * bass + 2 * hat.1 + 2 * snare.1).natAbs ≤ 6 * peak := by omega
  rw [bind_of_some (drumPair?_eq hg 8 tomCymbal _ cymbalPlace hsecond)]
  generalize (g.channels.get 8).modulator.drumSample _ _ _ _ _ = tom
  generalize (g.channels.get 8).carrier.drumSample _ _ _ _ _ = cymbal
  have htotal : 0 + 2 * bass + 2 * hat.1 + 2 * snare.1 + 2 * tom.1 + 2 * cymbal.1 =
      2 * (bass + hat.1 + snare.1 + tom.1 + cymbal.1) := by omega
  rw [htotal]
  rfl

/-- The drums, if they play, added to `total`. -/
def playRhythm? (f : FmChip) (rhythm : Bool) (total : Int) : Option (Int × FmChip) :=
  if rhythm then do
    let (drums, f) ← f.playDrums?
    let total ← signed32? (total + drums)
    return (total, f)
  else some (total, f)

theorem playRhythm?_eq (h : f.Ranged) (rhythm : Bool) {total : Int}
    (htotal : total.natAbs ≤ peak * 9) :
    f.playRhythm? rhythm total =
      some (total + (if rhythm then f.playDrums else (0, f)).1,
        (if rhythm then f.playDrums else (0, f)).2) := by
  have hplayed := h.playDrums
  unfold peak at htotal hplayed
  unfold playRhythm?
  cases rhythm with
  | false =>
      show some (total, f) = some (total + 0, f)
      rw [Int.add_zero]
  | true =>
      rw [if_pos rfl, if_pos rfl, bind_of_some (playDrums?_eq h)]
      generalize f.playDrums = drums at hplayed ⊢
      exact signed32?_bind (by unfold Fits32; omega) _

/-- `FmChip.sample`. -/
def sample? (f : FmChip) : Option (Int × FmChip) := do
  let control ← f.regs[0x0E]?
  let rhythm := control &&& 0x20 != 0
  let (total, f) ← f.playMelodic? (List.range (if rhythm then 6 else 9)) 0
  let (total, f) ← f.playRhythm? rhythm total
  let tremolo ← unsigned32? (f.counters.tremolo + 1)
  let vibrato ← unsigned32? (f.counters.vibrato + 1)
  return (total, { f with
    noise := nextNoise f.noise
    counters := {
      envelope := f.counters.envelope + 1
      tremolo := tremolo % tremoloPeriod
      vibrato := vibrato % vibratoPeriod } })

theorem sample?_eq (h : f.Ranged) : f.sample? = some f.sample := by
  have hcontrol (k : UInt8 → Option (Int × FmChip)) :
      (f.regs[0x0E]? >>= k) = k (f.register 0x0E) := reg_bind h.safe (by decide) k
  unfold sample? sample rhythmMode
  rw [hcontrol]
  generalize (f.register 0x0E &&& 0x20 != 0) = rhythm
  have hrange : List.range (if rhythm then 6 else 9) =
      (if rhythm then [0, 1, 2, 3, 4, 5]
        else [0, 1, 2, 3, 4, 5, 6, 7, 8] : List (Fin 9)).map Fin.val := by
    cases rhythm <;> rfl
  have hchannels : (if rhythm then [0, 1, 2, 3, 4, 5]
      else [0, 1, 2, 3, 4, 5, 6, 7, 8] : List (Fin 9)).length ≤ 9 := by
    split <;> decide
  dsimp only
  rw [hrange]
  generalize (if rhythm then [0, 1, 2, 3, 4, 5]
    else [0, 1, 2, 3, 4, 5, 6, 7, 8] : List (Fin 9)) = is at hchannels ⊢
  have hroom := Nat.mul_le_mul_left peak hchannels
  have hplayed := Ranged.playMelodic is 0 h
  rw [bind_of_some (playMelodic?_eq is 0 h (Nat.lt_of_le_of_lt (Nat.add_le_add_left hroom _)
    (by decide)))]
  generalize f.playMelodic is 0 = melodic at hplayed ⊢
  obtain ⟨total, g⟩ := melodic
  obtain ⟨htotal, hg⟩ : total.natAbs ≤ (0 : Int).natAbs + peak * is.length ∧ g.Ranged := hplayed
  have hnine : total.natAbs ≤ peak * 9 := by omega
  have hlast : (if rhythm then g.playDrums else (0, g)).2.Ranged := by
    split
    · exact hg.playDrums.2
    · exact hg
  dsimp only
  rw [bind_of_some (playRhythm?_eq hg rhythm hnine)]
  generalize (if rhythm then g.playDrums else (0, g)) = drums at hlast ⊢
  have htremolo := hlast.counters.tremolo
  have hvibrato := hlast.counters.vibrato
  unfold tremoloPeriod at htremolo
  unfold vibratoPeriod at hvibrato
  dsimp only
  rw [unsigned32?_bind (by omega), unsigned32?_bind (by omega)]
  rfl

/-- **The FM chip stays in range.**  Whatever is written to it and however it is run, before each of
its samples every level, phase and remembered output, the noise and the slow oscillators are in
their ranges.  So the sample is made without a number that does not fit 32 bits and without looking
past a table or a register, and it is within 65520. -/
theorem stays_in_range (h : Reached f) (n : Nat) (out : Stereo) :
    let g := (play n f out).1
    (∀ c ∈ g.channels, ∀ o ∈ [c.modulator, c.carrier],
      o.level ≤ 127 ∧ o.phase < 0x80000 ∧ (-4095 ≤ o.older ∧ o.older ≤ 4095) ∧
        -4095 ≤ o.newer ∧ o.newer ≤ 4095) ∧
    (1 ≤ g.noise.toNat ∧ g.noise.toNat < 0x800000) ∧
    g.counters.tremolo < 13436 ∧ g.counters.vibrato < 7768 ∧
    g.sample? = some g.sample ∧ -65520 ≤ g.sample.1 ∧ g.sample.1 ≤ 65520 := by
  intro g
  have hranged : g.Ranged := h.ranged.play n out
  have hloud := hranged.sample.1
  have hoperator {o : Operator} (ho : o.Ranged) :
      o.level ≤ 127 ∧ o.phase < 0x80000 ∧ (-4095 ≤ o.older ∧ o.older ≤ 4095) ∧
        -4095 ≤ o.newer ∧ o.newer ≤ 4095 := by
    have holder := ho.older
    have hnewer := ho.newer
    unfold peak at holder hnewer
    exact ⟨ho.level, ho.phase, by omega, by omega⟩
  unfold peak at hloud
  refine ⟨fun c hc o ho => ?_, hranged.noise, hranged.counters.tremolo, hranged.counters.vibrato,
    sample?_eq hranged, by omega, by omega⟩
  rw [List.mem_cons, List.mem_singleton] at ho
  obtain rfl | rfl := ho
  · exact hoperator (hranged.channels c hc).modulator
  · exact hoperator (hranged.channels c hc).carrier

/-- All five drums at once, half a second after their keys went down. -/
theorem stays_in_range_of_drums :
    let out := Stereo.new 3579545 44100 4096
    let f := ((({} : FmChip).writeAddress 0x0E).writeData 0 0x3F out).1
    f.rhythmMode = true ∧ f.rhythmKeys = 0x1F ∧
      (play 25000 f out).1.sample? = some (play 25000 f out).1.sample ∧
      -65520 ≤ (play 25000 f out).1.sample.1 ∧ (play 25000 f out).1.sample.1 ≤ 65520 := by
  intro out f
  have hreached : Reached f := .writeData (.writeAddress .new 0x0E) 0 0x3F out
  obtain ⟨-, -, -, -, hsample⟩ := stays_in_range hreached 25000 out
  exact ⟨by decide, by decide, hsample⟩

end FmChip

end MasterSystem.Sound
