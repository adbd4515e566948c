import MasterSystem.Proofs.Sound.ShiftRegister

/-! # White noise

The bits that the noise puts out between two writes to its register are those of one sequence of
shifts, however these are spread over windows of time.  White noise is fed back low in the register,
so that its bits repeat after 15 shifts in one variant, and after 3 in the other.

* **Uses.**  As long as nothing starts the noise anew, all uses of the chip put out the bits of one
  sequence (`Undisturbed.shifted`).
* **White noise.**  A bit is the sum of two bits not long before it (`whiteBit_add_16`), from which
  the repetition follows. -/

namespace MasterSystem.Sound

namespace Psg

/-! ### Uses of the chip -/

/-- A use of the chip. -/
inductive Use where
  | runUntil (time : Nat)
  | write (time : Nat) (address : UInt16) (v : UInt8)
  | setEnabled (time : Nat) (enabled : Bool)
  | rebase (clocks : Nat)
  | setVariant (variant : NoiseVariant)
  | reset

/-- The chip after a use, whatever is in the output. -/
def after (p : Psg) (u : Use) (out : Stereo) : Psg :=
  match u with
  | .runUntil time => (Chip.runUntil p time out).1
  | .write time address v => (Chip.write p time address v out).1
  | .setEnabled time enabled => (Chip.setEnabled p time enabled out).1
  | .rebase clocks => Chip.rebase p clocks
  | .setVariant variant => { p with variant := variant }
  | .reset => Chip.reset p

/-- Whether a command byte goes to the noise register. -/
def addressesNoise (p : Psg) (v : UInt8) : Bool :=
  let latch := if v &&& 0x80 != 0 then v else p.latch
  latch &&& 0x10 == 0 && channelOf latch == 3

/-- Whether a use starts the noise anew. -/
def startsNoise (p : Psg) : Use → Bool
  | .write _ address v => Word.low address != 0x06 && p.addressesNoise v
  | .reset => true
  | _ => false

/-- The bits that the noise puts out up to a clock. -/
def outputsUntil (p : Psg) (time : Nat) : List Bool :=
  if time ≤ p.time then []
  else
    Noise.outputs p.noise.taps (p.noise.shifts p.time time (p.tones.get 2).period p.enabled)
      p.noise.shifter

/-- The bits that the noise puts out during a use. -/
def outputs (p : Psg) : Use → List Bool
  | .runUntil time | .write time _ _ | .setEnabled time _ => p.outputsUntil time
  | .rebase _ | .setVariant _ | .reset => []

/-- Some uses in turn, none of which starts the noise anew, and the bits put out during them.
What else goes to the output meanwhile does not matter. -/
inductive Undisturbed : Psg → List Bool → Psg → Prop
  | refl (p : Psg) : Undisturbed p [] p
  | use {p q : Psg} {bits : List Bool} (u : Use) (out : Stereo) :
      p.startsNoise u = false → Undisturbed (p.after u out) bits q →
      Undisturbed p (p.outputs u ++ bits) q

/-- `q` has the noise of `p` after the shifts that put out some bits. -/
structure Shifted (p : Psg) (bits : List Bool) (q : Psg) : Prop where
  taps : q.noise.taps = p.noise.taps
  shifter : q.noise.shifter = Noise.shifted p.noise.taps bits.length p.noise.shifter
  bits : bits = Noise.outputs p.noise.taps bits.length p.noise.shifter

theorem Shifted.refl (p : Psg) : Shifted p [] p := ⟨rfl, rfl, rfl⟩

theorem Shifted.trans {p q r : Psg} {bits more : List Bool} (h : Shifted p bits q)
    (h' : Shifted q more r) : Shifted p (bits ++ more) r := by
  have hmore := h'.bits
  have hlast := h'.shifter
  rw [h.taps, h.shifter] at hmore hlast
  refine ⟨h'.taps.trans h.taps, ?_, ?_⟩
  · rw [List.length_append, Noise.shifted_add]
    exact hlast
  · rw [List.length_append, Noise.outputs_add, ← h.bits, ← hmore]

theorem runUntil_shifted (p : Psg) (time : Nat) (out : Stereo) :
    Shifted p (p.outputsUntil time) (p.runUntil time out).1 := by
  unfold runUntil outputsUntil
  split
  · exact .refl p
  · dsimp only
    refine ⟨?_, ?_, ?_⟩
    · dsimp only
      rw [Noise.run_eq]
      rfl
    · dsimp only
      rw [Noise.run_eq, Noise.length_outputs, run_period]
      rfl
    · rw [Noise.length_outputs]

/-! ### What a use does to the noise -/

/-- `q` has the register and the taps of `p`. -/
def SameNoise (p q : Psg) : Prop :=
  q.noise.taps = p.noise.taps ∧ q.noise.shifter = p.noise.shifter

theorem Shifted.congr {p q r : Psg} {bits : List Bool} (h : Shifted p bits q)
    (hnoise : SameNoise q r) : Shifted p bits r :=
  ⟨hnoise.1.trans h.taps, hnoise.2.trans h.shifter, h.bits⟩

theorem sameNoise_setOsc (p : Psg) (channel : Nat) (o : Oscillator) :
    SameNoise p (p.setOsc channel o) := by
  unfold setOsc
  split <;> exact ⟨rfl, rfl⟩

theorem sameNoise_route (p : Psg) (channel : Nat) (routing : Routing) (time : Nat) (out : Stereo) :
    SameNoise p (p.route channel routing time out).1 := by
  unfold route
  dsimp only
  split
  · exact ⟨rfl, rfl⟩
  · exact sameNoise_setOsc p channel _

theorem sameNoise_routeAll {p : Psg} (data : UInt8) (time : Nat) : ∀ (channels : List Nat)
    (s : Psg × Stereo), SameNoise p s.1 → SameNoise p (routeAll data time channels s).1
  | [], _, h => h
  | i :: channels, s, h => by
      have hfirst := sameNoise_route s.1 i (routingOf data i) time s.2
      exact sameNoise_routeAll data time channels (s.1.route i (routingOf data i) time s.2)
        ⟨hfirst.1.trans h.1, hfirst.2.trans h.2⟩

theorem sameNoise_writeStereo (p : Psg) (time : Nat) (data : UInt8) (out : Stereo) :
    SameNoise (p.runUntil time out).1 (p.writeStereo time data out).1 := by
  rw [writeStereo_eq]
  dsimp only
  unfold rerouted
  generalize p.runUntil time out = r
  apply sameNoise_routeAll
  exact ⟨rfl, rfl⟩

theorem runUntil_keeps (p : Psg) (time : Nat) (out : Stereo) :
    (p.runUntil time out).1.latch = p.latch ∧ (p.runUntil time out).1.variant = p.variant := by
  constructor
  all_goals
    unfold runUntil
    split <;> rfl

/-- The chip with the byte that chooses a register. -/
def latched (p : Psg) (v : UInt8) : Psg := if v &&& 0x80 != 0 then { p with latch := v } else p

theorem addressesNoise_eq (p : Psg) (v : UInt8) : p.addressesNoise v =
    ((p.latched v).latch &&& 0x10 == 0 && channelOf (p.latched v).latch == 3) := by
  unfold addressesNoise latched
  split <;> rfl

theorem latched_keeps (p : Psg) (v : UInt8) :
    SameNoise p (p.latched v) ∧ (p.latched v).variant = p.variant := by
  unfold latched
  split <;> exact ⟨⟨rfl, rfl⟩, rfl⟩

theorem channelOf_lt (latch : UInt8) : channelOf latch < 4 := by
  unfold channelOf
  rw [UInt8.toNat_and]
  exact Nat.lt_of_le_of_lt Nat.and_le_right (by decide)

/-- A command for another register leaves the noise as it is. -/
theorem sameNoise_command (p : Psg) {v : UInt8} (h : p.addressesNoise v = false) :
    SameNoise p (p.command v) := by
  obtain ⟨hlatched, -⟩ := p.latched_keeps v
  rw [addressesNoise_eq] at h
  unfold command
  dsimp only
  rw [show (if v &&& 0x80 != 0 then { p with latch := v } else p) = p.latched v from rfl]
  generalize p.latched v = q at hlatched h ⊢
  have hlt := channelOf_lt q.latch
  suffices hcommand : SameNoise q _ from
    ⟨hcommand.1.trans hlatched.1, hcommand.2.trans hlatched.2⟩
  split
  · exact sameNoise_setOsc q _ _
  · rename_i hvolume
    split
    · exact ⟨rfl, rfl⟩
    · rename_i hchannel
      rw [bne, Bool.not_eq_true, Bool.not_eq_false'] at hvolume
      rw [hvolume, Bool.true_and] at h
      have hthree : channelOf q.latch = 3 := by omega
      rw [hthree] at h
      cases h

/-- A command for the noise register starts from the seed, with the taps that it chooses. -/
theorem command_noise (p : Psg) {v : UInt8} (h : p.addressesNoise v = true) :
    (p.command v).noise.shifter = p.variant.seed ∧
      (p.command v).noise.taps =
        if v &&& 0x04 != 0 then p.variant.whiteTaps else p.variant.periodicTaps := by
  obtain ⟨-, hvariant⟩ := p.latched_keeps v
  rw [addressesNoise_eq, Bool.and_eq_true, beq_iff_eq (b := 3)] at h
  unfold command
  dsimp only
  rw [show (if v &&& 0x80 != 0 then { p with latch := v } else p) = p.latched v from rfl]
  generalize p.latched v = q at hvariant h ⊢
  rw [if_neg (by rw [bne, h.1]; decide), dif_neg (by rw [h.2]; decide), hvariant]
  exact ⟨rfl, rfl⟩

theorem write_eq (p : Psg) (time : Nat) (address : UInt16) (v : UInt8) (out : Stereo) :
    p.after (.write time address v) out =
      if Word.low address == 0x06 then (p.writeStereo time v out).1
      else (p.runUntil time out).1.command v := by
  show (if Word.low address == 0x06 then p.writeStereo time v out
    else p.writeData time v out).1 = _
  split <;> rfl

theorem addressesNoise_runUntil (p : Psg) (time : Nat) (out : Stereo) (v : UInt8) :
    (p.runUntil time out).1.addressesNoise v = p.addressesNoise v := by
  unfold addressesNoise
  rw [(p.runUntil_keeps time out).1]

/-- A use that does not start the noise anew shifts it by the bits that are put out. -/
theorem shifted_after (p : Psg) {u : Use} (h : p.startsNoise u = false) (out : Stereo) :
    Shifted p (p.outputs u) (p.after u out) := by
  cases u with
  | runUntil time => exact p.runUntil_shifted time out
  | write time address v =>
      have hrun : Shifted p (p.outputs (.write time address v)) (p.runUntil time out).1 :=
        p.runUntil_shifted time out
      rw [write_eq]
      by_cases hstereo : Word.low address == 0x06
      · rw [if_pos hstereo]
        exact hrun.congr (p.sameNoise_writeStereo time v out)
      · have hother : p.addressesNoise v = false := by
          have hne : (Word.low address != 0x06) = true := by simpa using hstereo
          exact (Bool.and_eq_false_iff.1 h).resolve_left (by rw [hne]; decide)
        rw [if_neg hstereo]
        exact hrun.congr (sameNoise_command _ ((p.addressesNoise_runUntil time out v).trans hother))
  | setEnabled time enabled =>
      have hrun := p.runUntil_shifted time out
      exact ⟨hrun.taps, hrun.shifter, hrun.bits⟩
  | rebase clocks => exact ⟨rfl, rfl, rfl⟩
  | setVariant variant => exact ⟨rfl, rfl, rfl⟩
  | reset => cases h

/-- Uses in turn shift the noise by all the bits that they put out. -/
theorem Undisturbed.shifted {p q : Psg} {bits : List Bool} (h : Undisturbed p bits q) :
    Shifted p bits q := by
  induction h with
  | refl p => exact .refl p
  | use _ _ hstart _ ih => exact (shifted_after _ hstart _).trans ih

/-- A write to the noise register starts from the seed, with the taps that it chooses. -/
theorem after_startsNoise {p : Psg} {time : Nat} {address : UInt16} {v : UInt8}
    (h : p.startsNoise (.write time address v) = true) (out : Stereo) :
    (p.after (.write time address v) out).noise.shifter = p.variant.seed ∧
      (p.after (.write time address v) out).noise.taps =
        if v &&& 0x04 != 0 then p.variant.whiteTaps else p.variant.periodicTaps := by
  obtain ⟨haddress, hnoise⟩ := Bool.and_eq_true_iff.1 h
  rw [← p.addressesNoise_runUntil time out] at hnoise
  rw [write_eq, if_neg (by simpa using haddress), ← (p.runUntil_keeps time out).2]
  exact command_noise _ hnoise

end Psg

/-! ### White noise -/

namespace NoiseVariant

open Noise

/-- Bit `n` of white noise. -/
def whiteBit (v : NoiseVariant) (n : Nat) : Bool := bit (shifted v.whiteTaps n v.seed) 0

/-- A bit of white noise is the sum of the one before it and of an earlier one: the fourth before it
in one variant, the second in the other. -/
def lag : NoiseVariant → Nat
  | sega => 4
  | ti => 2

/-- Bits after which white noise repeats. -/
def cycle : NoiseVariant → Nat
  | sega => 15
  | ti => 3

/-- Bits before the first one that is set. -/
def lead : NoiseVariant → Nat
  | sega => 15
  | ti => 14

theorem bit_whiteTaps (v : NoiseVariant) {k : Nat} (h : v.lag ≤ k) : bit v.whiteTaps k = false := by
  refine Nat.testBit_lt_two_pow (Nat.lt_of_lt_of_le ?_ (Nat.pow_le_pow_right (by decide) h))
  cases v <;> decide

theorem fedBack_whiteTaps (v : NoiseVariant) {k : Nat} (h : v.lag ≤ k) : ∀ (n : Nat)
    (shifter : UInt16), fedBack v.whiteTaps n shifter k = false
  | 0, _ => rfl
  | n + 1, shifter => by
      unfold fedBack
      rw [v.bit_whiteTaps (Nat.le_add_right_of_le h), fedBack_whiteTaps v h n, Bool.and_false]
      rfl

/-- The places above the taps run empty. -/
theorem bit_shifted_whiteTaps (v : NoiseVariant) {n k : Nat} (hk : v.lag ≤ k) (hn : 16 ≤ k + n)
    (shifter : UInt16) : bit (shifted v.whiteTaps n shifter) k = false := by
  rw [bit_shifted, bit_of_ge _ hn, v.fedBack_whiteTaps hk]
  rfl

/-- A bit of white noise is the sum of the one before it and an earlier one. -/
theorem whiteBit_add_16 (v : NoiseVariant) (n : Nat) :
    v.whiteBit (n + 16) = (v.whiteBit (n + (16 - v.lag)) ^^ v.whiteBit (n + 15)) := by
  unfold whiteBit
  cases v with
  | sega =>
      have hempty := bit_shifted_whiteTaps .sega (n := n + 12) (Nat.le_refl 4) (by omega)
        (seed .sega)
      show bit (shifted _ (n + 12 + 4) _) 0 =
        (bit (shifted _ (n + 12) _) 0 ^^ bit (shifted _ (n + 12 + 3) _) 0)
      rw [shifted_add _ (n + 12) 4, shifted_add _ (n + 12) 3, bit_shifted, Nat.zero_add, hempty,
        Bool.false_xor]
      generalize shifted (whiteTaps .sega) (n + 12) (seed .sega) = shifter
      have h0 : bit (whiteTaps .sega) 0 = true := by decide
      have h1 : bit (whiteTaps .sega) 1 = false := by decide
      have h2 : bit (whiteTaps .sega) 2 = false := by decide
      have h3 : bit (whiteTaps .sega) 3 = true := by decide
      simp [fedBack, shifted, h0, h1, h2, h3]
  | ti =>
      have hempty := bit_shifted_whiteTaps .ti (n := n + 14) (Nat.le_refl 2) (by omega) (seed .ti)
      show bit (shifted _ (n + 14 + 2) _) 0 =
        (bit (shifted _ (n + 14) _) 0 ^^ bit (shifted _ (n + 14 + 1) _) 0)
      rw [shifted_add _ (n + 14) 2, shifted_add _ (n + 14) 1, bit_shifted, Nat.zero_add, hempty,
        Bool.false_xor]
      generalize shifted (whiteTaps .ti) (n + 14) (seed .ti) = shifter
      have h0 : bit (whiteTaps .ti) 0 = true := by decide
      have h1 : bit (whiteTaps .ti) 1 = true := by decide
      simp [fedBack, shifted, h0, h1]

/-- White noise begins with bits that are not set, and one that is. -/
theorem whiteBit_lead (v : NoiseVariant) :
    (∀ n < v.lead, v.whiteBit n = false) ∧ v.whiteBit v.lead = true := by
  cases v <;> decide +kernel

/-- From its first bit that is set on, white noise repeats. -/
theorem whiteBit_cycle (v : NoiseVariant) {n : Nat} (h : v.lead ≤ n) :
    v.whiteBit (n + v.cycle) = v.whiteBit n := by
  obtain ⟨k, rfl⟩ := Nat.exists_eq_add_of_le h
  have hcycle :
      shifted v.whiteTaps (v.lead + v.cycle) v.seed = shifted v.whiteTaps v.lead v.seed := by
    cases v <;> decide +kernel
  unfold whiteBit
  rw [Nat.add_right_comm, shifted_add _ (v.lead + v.cycle), hcycle, ← shifted_add]

end NoiseVariant

/-- **White noise repeats early.**  A command writes the noise register and chooses white noise; the
chip is then used in any way that does not start the noise anew.  Then the bits put out since the
command, over whatever windows, are those of one sequence.  Each is the sum of the bit before it and
of the fourth (or, in the other variant, the second) before it; after the first 15 (or 14) of them,
none of which is set, the same 15 (or 3) bits come again and again.  So they are not those of
registers of 16 and 15 bits with taps at bits 0 and 3 and at bits 0 and 1, from the first bit on for
which this can be told. -/
theorem Psg.white_noise {p q : Psg} {time : Nat} {address : UInt16} {v : UInt8} {out : Stereo}
    {bits : List Bool} (hnoise : p.startsNoise (.write time address v) = true)
    (hwhite : (v &&& 0x04 != 0) = true)
    (h : Undisturbed (p.after (.write time address v) out) bits q) :
    (∀ n < bits.length, bits[n]? = some (p.variant.whiteBit n)) ∧
    (∀ n, p.variant.whiteBit (n + 16) =
      (p.variant.whiteBit (n + (16 - p.variant.lag)) ^^ p.variant.whiteBit (n + 15))) ∧
    ((∀ n < p.variant.lead, p.variant.whiteBit n = false) ∧
      p.variant.whiteBit p.variant.lead = true ∧
      ∀ n, p.variant.lead ≤ n →
        p.variant.whiteBit (n + p.variant.cycle) = p.variant.whiteBit n) ∧
    (p.variant = .sega →
      p.variant.whiteBit 16 ≠ (p.variant.whiteBit 0 ^^ p.variant.whiteBit 3)) ∧
    (p.variant = .ti →
      p.variant.whiteBit 15 ≠ (p.variant.whiteBit 0 ^^ p.variant.whiteBit 1)) := by
  have hshifted := h.shifted
  obtain ⟨hseed, htaps⟩ := after_startsNoise hnoise out
  rw [if_pos hwhite] at htaps
  have hbits := hshifted.bits
  rw [hseed, htaps] at hbits
  refine ⟨?_, p.variant.whiteBit_add_16, ?_, ?_, ?_⟩
  · intro n hn
    rw [hbits]
    exact Noise.getElem?_outputs _ _ hn
  · obtain ⟨hquiet, hfirst⟩ := p.variant.whiteBit_lead
    exact ⟨hquiet, hfirst, fun n hn => p.variant.whiteBit_cycle hn⟩
  · intro hvariant
    rw [hvariant]
    decide +kernel
  · intro hvariant
    rw [hvariant]
    decide +kernel

/-- White noise is chosen at the lowest rate of 512 clocks and made as loud as can be; two windows
of 4096 and 8192 clocks make 24 shifts. -/
theorem Psg.white_noise_of_windows :
    (Psg.new .sega).startsNoise (.write 0 0x7F 0xE4) = true ∧
    ((0xE4 : UInt8) &&& 0x04 != 0) = true ∧
    ∃ bits q, Undisturbed ((Psg.new .sega).after (.write 0 0x7F 0xE4) default) bits q ∧
      bits.length = 24 ∧ bits[16]? = some (NoiseVariant.whiteBit .sega 16) := by
  have hnoise : (Psg.new .sega).startsNoise (.write 0 0x7F 0xE4) = true := by decide
  have hwhite : ((0xE4 : UInt8) &&& 0x04 != 0) = true := by decide
  have hrun := Undisturbed.use (.write 0 0x7F 0xF0) default
    (p := (Psg.new .sega).after (.write 0 0x7F 0xE4) default) (by decide) <|
    .use (.runUntil 4096) default (by decide) <| .use (.runUntil 12288) default (by decide) <|
    .refl _
  refine ⟨hnoise, hwhite, _, _, hrun, by decide +kernel, ?_⟩
  exact (Psg.white_noise hnoise hwhite hrun).1 16 (by decide +kernel)

end MasterSystem.Sound
