import MasterSystem.Sound.Mixer

/-! # Indices of the sound chips

A resampler indexes its slots by the position of a change of level and by the samples to be read,
and the FM chip its registers by the register addressed.

* **Representation.**  `Resampler.Safe`, `FmChip.Safe` and `Mixer.Safe` are what this relies on;
  `Resampler.InRange` and `FmChip.InRange` say that every index is within its array.
* **Output.**  A chip reaches the output by `addDelta` and `note` alone, so what these preserve
  (`Stereo.Stable`), every operation of every chip preserves. -/

namespace MasterSystem.Sound

/-! ### Resamplers -/

namespace Resampler

/-- What the slots of a resampler have to be like. -/
structure Safe (b : Resampler) : Prop where
  size : kernelWidth + 1 ≤ b.slots.size
  avail : b.avail ≤ b.capacity

/-- Every index of a resampler is within its slots. -/
structure InRange (b : Resampler) : Prop where
  /-- A change of level at any clock is spread over slots. -/
  spread : ∀ time, ∀ k < kernelWidth, min (b.slotOf time) b.capacity + k < b.slots.size
  /-- Samples that can be read are in slots. -/
  unread : ∀ i < b.avail, i < b.slots.size
  /-- What is carried over when some are read is in slots. -/
  carried : ∀ count ≤ b.avail, count + (b.avail + kernelWidth - count) ≤ b.slots.size

variable {b : Resampler}

theorem Safe.inRange (h : b.Safe) : b.InRange := by
  obtain ⟨hsize, havail⟩ := h
  unfold capacity at havail
  refine ⟨?_, ?_, ?_⟩
  · intro time k hk
    have := Nat.min_le_right (b.slotOf time) b.capacity
    unfold capacity at this ⊢
    omega
  · intro i hi
    omega
  · intro count hcount
    omega

theorem spread_size : ∀ (slots : Array Int) (i : Nat) (delta : Int) (ws : List Int),
    (Resampler.spread slots i delta ws).size = slots.size
  | _, _, _, [] => rfl
  | slots, i, delta, w :: ws => by
      rw [Resampler.spread, spread_size, Array.size_modify]

theorem Safe.addDelta (h : b.Safe) (time : Nat) (delta : Int) : (b.addDelta time delta).Safe := by
  unfold Resampler.addDelta
  split
  · exact h
  · dsimp only
    refine ⟨?_, ?_⟩
    · rw [spread_size]
      exact h.size
    · unfold capacity
      dsimp only
      rw [spread_size]
      exact h.avail

theorem Safe.endFrame (h : b.Safe) (clocks : Nat) : (b.endFrame clocks).Safe :=
  ⟨h.size, Nat.min_le_right _ _⟩

theorem drop_size {count : Nat} (h : b.Safe) (hcount : count ≤ b.avail) :
    (b.drop count).slots.size = b.slots.size := by
  have hcarried := h.inRange.carried count hcount
  unfold drop
  dsimp only
  rw [Array.size_append, Array.size_replicate, Array.size_extract]
  omega

theorem Safe.read (h : b.Safe) (count : Nat) : (b.read count).2.Safe := by
  unfold Resampler.read
  dsimp only
  generalize (integrate b.slots (min count b.avail) 0 b.integrator _).1 = level
  have hb : ({ b with integrator := level } : Resampler).Safe := ⟨h.size, h.avail⟩
  have hsize := drop_size hb (Nat.min_le_right count b.avail)
  refine ⟨?_, ?_⟩
  · rw [hsize]
    exact h.size
  · have havail := h.avail
    unfold capacity at havail ⊢
    rw [hsize]
    exact Nat.le_trans (Nat.sub_le _ _) havail

theorem Safe.clear (h : b.Safe) : b.clear.Safe := by
  refine ⟨?_, Nat.zero_le _⟩
  show kernelWidth + 1 ≤ (Array.replicate b.slots.size (0 : Int)).size
  rw [Array.size_replicate]
  exact h.size

theorem Safe.new (clockRate sampleRate capacity : Nat) :
    (Resampler.new clockRate sampleRate capacity).Safe := by
  refine ⟨?_, Nat.zero_le _⟩
  show kernelWidth + 1 ≤ (Array.replicate (capacity + kernelWidth + 1) (0 : Int)).size
  rw [Array.size_replicate]
  omega

end Resampler

/-! ### The output -/

namespace Stereo

/-- A property of the output that changes of level and notes preserve. -/
structure Stable (I : Stereo → Prop) : Prop where
  addDelta : ∀ {b}, I b → ∀ routing time delta, I (b.addDelta routing time delta)
  note : ∀ {b}, I b → ∀ n, I (b.note n)

/-- Both sides of the output are as they have to be. -/
structure Safe (b : Stereo) : Prop where
  left : b.left.Safe
  right : b.right.Safe

variable {b : Stereo}

theorem noteIf_left (b : Stereo) (n : Option Note) : (b.noteIf n).left = b.left := by
  cases n <;> rfl

theorem noteIf_right (b : Stereo) (n : Option Note) : (b.noteIf n).right = b.right := by
  cases n <;> rfl

theorem Safe.addLeft (h : b.Safe) (time : Nat) (delta : Int) : (b.addLeft time delta).Safe := by
  unfold Stereo.addLeft
  dsimp only
  refine ⟨?_, ?_⟩
  · dsimp only
    rw [noteIf_left]
    exact h.left.addDelta time delta
  · dsimp only
    rw [noteIf_right]
    exact h.right

theorem Safe.addRight (h : b.Safe) (time : Nat) (delta : Int) : (b.addRight time delta).Safe := by
  unfold Stereo.addRight
  dsimp only
  refine ⟨?_, ?_⟩
  · dsimp only
    rw [noteIf_left]
    exact h.left
  · dsimp only
    rw [noteIf_right]
    exact h.right.addDelta time delta

theorem Safe.stable : Stable Safe where
  addDelta h routing time delta := by
    cases routing with
    | off => exact h
    | right => exact h.addRight time delta
    | left => exact h.addLeft time delta
    | center => exact (h.addLeft time delta).addRight time delta
  note h _ := ⟨h.left, h.right⟩

theorem endFrame_left (b : Stereo) (clocks : Nat) :
    (b.endFrame clocks).left = b.left.endFrame clocks := by
  unfold endFrame endRight endLeft
  dsimp only
  rw [noteIf_left]
  dsimp only
  rw [noteIf_left]

theorem endFrame_right (b : Stereo) (clocks : Nat) :
    (b.endFrame clocks).right = b.right.endFrame clocks := by
  unfold endFrame endRight endLeft
  dsimp only
  rw [noteIf_right]
  dsimp only
  rw [noteIf_right]

theorem Safe.endFrame (h : b.Safe) (clocks : Nat) : (b.endFrame clocks).Safe := by
  refine ⟨?_, ?_⟩
  · rw [endFrame_left]
    exact h.left.endFrame clocks
  · rw [endFrame_right]
    exact h.right.endFrame clocks

theorem Safe.readInterleaved (h : b.Safe) (length : Nat) : (b.readInterleaved length).2.Safe := by
  unfold Stereo.readInterleaved
  dsimp only
  split
  · exact h
  · exact ⟨h.left.read _, h.right.read _⟩

theorem Safe.discard (h : b.Safe) : b.discard.Safe := ⟨h.left.read _, h.right.read _⟩

theorem Safe.clear (h : b.Safe) : b.clear.Safe := ⟨h.left.clear, h.right.clear⟩

end Stereo

/-! ### What the chips do to the output -/

namespace Stereo.Stable

variable {I : Stereo → Prop} (hI : Stereo.Stable I) {out : Stereo}
include hI

theorem setLevel (h : I out) (o : Oscillator) (time : Nat) (level : Int) :
    I (o.setLevel time level out).2 := by
  unfold Oscillator.setLevel
  dsimp only
  split
  · exact h
  · exact hI.addDelta h _ _ _

theorem playEdges (routing : Routing) (period : Nat) : ∀ (n time : Nat) (delta : Int)
    (out : Stereo), I out → I (Square.playEdges routing period n time delta out)
  | 0, _, _, _, h => h
  | n + 1, time, delta, _, h =>
      playEdges routing period n (time + period) (-delta) _ (hI.addDelta h routing time (-delta))

theorem square (h : I out) (s : Square) (start stop : Nat) (enabled : Bool) :
    I (s.run start stop enabled out).2 := by
  unfold Square.run
  dsimp only
  split
  · exact hI.setLevel h _ _ _
  · exact hI.playEdges _ _ _ _ _ _ (hI.setLevel h _ _ _)

theorem playShifts (routing : Routing) (taps : UInt16) (period : Nat) : ∀ (n time : Nat)
    (shifter : UInt16) (delta : Int) (out : Stereo), I out →
      I (Noise.playShifts routing taps period n time shifter delta out).2.2
  | 0, _, _, _, _, h => h
  | n + 1, time, shifter, delta, out, h => by
      unfold Noise.playShifts
      dsimp only
      split
      · exact playShifts routing taps period n _ _ _ _ (hI.addDelta h _ _ _)
      · exact playShifts routing taps period n _ _ _ _ h

theorem noise (h : I out) (s : Noise) (start stop tone : Nat) (enabled : Bool) :
    I (s.run start stop tone enabled out).2 := by
  unfold Noise.run
  dsimp only
  generalize (if s.shifter &&& 1 == 0 then s.osc.volume enabled else -s.osc.volume enabled) = level
  split
  · exact hI.setLevel h _ _ _
  · exact hI.playShifts _ _ _ _ _ _ _ _ (hI.setLevel h _ _ _)

theorem psgRunUntil (h : I out) (p : Psg) (time : Nat) : I (p.runUntil time out).2 := by
  unfold Psg.runUntil
  split
  · exact h
  · exact hI.noise (hI.square (hI.square (hI.square h _ _ _ _) _ _ _ _) _ _ _ _) _ _ _ _ _

theorem psgWriteData (h : I out) (p : Psg) (time : Nat) (data : UInt8) :
    I (p.writeData time data out).2 := hI.psgRunUntil h p time

theorem route (h : I out) (p : Psg) (channel : Nat) (routing : Routing) (time : Nat) :
    I (p.route channel routing time out).2 := by
  unfold Psg.route
  dsimp only
  split
  · exact h
  · dsimp only
    split
    · exact h
    · exact hI.addDelta h _ _ _

theorem psgWriteStereo (h : I out) (p : Psg) (time : Nat) (data : UInt8) :
    I (p.writeStereo time data out).2 := by
  have hrun := hI.psgRunUntil h p time
  unfold Psg.writeStereo
  exact hI.note (hI.route (hI.route (hI.route (hI.route hrun _ _ _ _) _ _ _ _) _ _ _ _) _ _ _ _) _

theorem fmPlay : ∀ (n : Nat) (f : FmChip) (out : Stereo), I out → I (FmChip.play n f out).2
  | 0, _, _, h => h
  | n + 1, f, out, h => by
      unfold FmChip.play
      dsimp only
      refine fmPlay n _ _ ?_
      split
      · split
        · exact h
        · exact hI.addDelta h _ _ _
      · split
        · exact h
        · exact hI.addDelta h _ _ _

theorem fmRunUntil (h : I out) (f : FmChip) (time : Nat) : I (f.runUntil time out).2 :=
  hI.fmPlay _ f out h

theorem fmWriteData (h : I out) (f : FmChip) (time : Nat) (v : UInt8) :
    I (f.writeData time v out).2 := hI.note (hI.fmRunUntil h f time) _

end Stereo.Stable

/-! ### The FM chip -/

namespace FmChip

/-- What the registers of the FM chip have to be like. -/
structure Safe (f : FmChip) : Prop where
  regs : f.regs.size = 64
  address : f.address.toNat < 64

/-- Every register that the FM chip addresses is there. -/
structure InRange (f : FmChip) : Prop where
  /-- The register written. -/
  port : f.address.toNat < f.regs.size
  /-- The registers of the channels, of the drums and of the instrument made of registers. -/
  play : ∀ i ≤ 0x3F, i < f.regs.size

variable {f : FmChip}

theorem Safe.inRange (h : f.Safe) : f.InRange where
  port := h.regs ▸ h.address
  play i hi := by
    rw [h.regs]
    omega

/-- What playing leaves alone. -/
def setup (f : FmChip) : UInt8 × Array UInt8 := (f.address, f.regs)

/-- What a sample leaves alone. -/
def still (f : FmChip) : UInt8 × Array UInt8 × UInt8 × Nat × Int × Bool :=
  (f.address, f.regs, f.rhythmKeys, f.nextSample, f.lastOutput, f.enabled)

theorem playMelodic_still : ∀ (f : FmChip) (is : List (Fin 9)) (total : Int),
    (f.playMelodic is total).2.still = f.still
  | _, [], _ => rfl
  | f, i :: is, total => by
      unfold playMelodic
      dsimp only
      rw [playMelodic_still]
      rfl

theorem sample_still (f : FmChip) : f.sample.2.still = f.still := by
  unfold sample
  extract_lets rhythm
  have hmelodic := playMelodic_still f
    (if rhythm then [0, 1, 2, 3, 4, 5] else [0, 1, 2, 3, 4, 5, 6, 7, 8]) 0
  generalize f.playMelodic (if rhythm then _ else _) 0 = p at hmelodic ⊢
  obtain ⟨total, g⟩ := p
  have hdrums : g.playDrums.2.still = g.still := rfl
  dsimp only
  generalize g.playDrums = q at hdrums ⊢
  cases rhythm with
  | true => exact hdrums.trans hmelodic
  | false => exact hmelodic

theorem sample_setup (f : FmChip) : f.sample.2.setup = f.setup :=
  congrArg (fun k => (k.1, k.2.1)) (sample_still f)

theorem sample_nextSample (f : FmChip) : f.sample.2.nextSample = f.nextSample :=
  congrArg (fun k => k.2.2.2.1) (sample_still f)

theorem sample_lastOutput (f : FmChip) : f.sample.2.lastOutput = f.lastOutput :=
  congrArg (fun k => k.2.2.2.2.1) (sample_still f)

theorem play_setup : ∀ (n : Nat) (f : FmChip) (out : Stereo), (play n f out).1.setup = f.setup
  | 0, _, _ => rfl
  | n + 1, f, out => by
      unfold play
      dsimp only
      exact (play_setup n _ _).trans (sample_setup f)

theorem Safe.congr (h : f.Safe) {g : FmChip} (hs : g.setup = f.setup) : g.Safe where
  regs := by
    have hregs : g.regs = f.regs := congrArg Prod.snd hs
    rw [hregs, h.regs]
  address := by
    have haddress : g.address = f.address := congrArg Prod.fst hs
    exact haddress ▸ h.address

theorem Safe.writeAddress (h : f.Safe) (v : UInt8) : (f.writeAddress v).Safe := by
  refine ⟨h.regs, ?_⟩
  show (v &&& 0x3F).toNat < 64
  rw [UInt8.toNat_and]
  exact Nat.lt_of_le_of_lt Nat.and_le_right (by decide)

theorem store_setup (f : FmChip) (v : UInt8) :
    (f.store v).setup = (f.address, f.regs.setIfInBounds f.address.toNat v) := by
  unfold store
  dsimp only
  split
  · rfl
  · split <;> rfl

theorem Safe.store (h : f.Safe) (v : UInt8) : (f.store v).Safe := by
  have hs := store_setup f v
  have hregs : (f.store v).regs = f.regs.setIfInBounds f.address.toNat v := congrArg Prod.snd hs
  have haddress : (f.store v).address = f.address := congrArg Prod.fst hs
  refine ⟨?_, haddress ▸ h.address⟩
  rw [hregs, Array.size_setIfInBounds, h.regs]

theorem Safe.runUntil (h : f.Safe) (time : Nat) (out : Stereo) : (f.runUntil time out).1.Safe :=
  h.congr (play_setup _ f out)

theorem Safe.writeData (h : f.Safe) (time : Nat) (v : UInt8) (out : Stereo) :
    (f.writeData time v out).1.Safe := (h.runUntil time out).store v

theorem Safe.new : ({} : FmChip).Safe := ⟨Array.size_replicate, by decide⟩

end FmChip

/-! ### The console's sound -/

namespace Mixer

/-- The sound chips and the output are as they have to be. -/
structure Safe (m : Mixer) : Prop where
  output : m.output.Safe
  fm : ∀ f ∈ m.fm, f.Safe

variable {m : Mixer}

theorem setFmEnabled_safe {fm : Option FmChip} {out : Stereo} (hfm : ∀ f ∈ fm, f.Safe)
    (hout : out.Safe) (time : Nat) (enabled : Bool) :
    (∀ f ∈ (setFmEnabled fm time enabled out).1, f.Safe) ∧
      (setFmEnabled fm time enabled out).2.Safe := by
  cases fm with
  | none => exact ⟨hfm, hout⟩
  | some f =>
      refine ⟨?_, Stereo.Safe.stable.fmRunUntil hout f time⟩
      intro g hg
      obtain rfl : _ = g := Option.some.inj hg
      exact ((hfm f rfl).runUntil time out).congr rfl

theorem Safe.applyMix (h : m.Safe) (time : Nat) : (m.applyMix time).Safe := by
  have hpsg := Stereo.Safe.stable.psgRunUntil h.output m.psg time
  unfold Mixer.applyMix
  dsimp only [Chip.setEnabled]
  generalize m.psg.runUntil time m.output = p at hpsg ⊢
  obtain ⟨hfm, hout⟩ := setFmEnabled_safe h.fm hpsg time m.mix.fm
  generalize setFmEnabled m.fm time m.mix.fm p.2 = q at hfm hout ⊢
  exact ⟨hout, hfm⟩

theorem Safe.writePsg (h : m.Safe) (time : Nat) (v : UInt8) : (m.writePsg time v).Safe := by
  have hout := Stereo.Safe.stable.psgWriteData h.output m.psg time v
  unfold Mixer.writePsg
  generalize m.psg.writeData time v m.output = p at hout ⊢
  exact ⟨hout, h.fm⟩

theorem Safe.writeStereo (h : m.Safe) (time : Nat) (v : UInt8) : (m.writeStereo time v).Safe := by
  have hout := Stereo.Safe.stable.psgWriteStereo h.output m.psg time v
  unfold Mixer.writeStereo
  generalize m.psg.writeStereo time v m.output = p at hout ⊢
  exact ⟨hout, h.fm⟩

theorem Safe.writeFm (h : m.Safe) (time : Nat) (port v : UInt8) : (m.writeFm time port v).Safe := by
  have hfm := h.fm
  unfold Mixer.writeFm
  split
  · exact h
  · rename_i f hf
    have hsafe := hfm f (by rw [hf]; rfl)
    dsimp only [Chip.write]
    split
    · refine ⟨h.output, ?_⟩
      intro g hg
      obtain rfl : _ = g := Option.some.inj hg
      exact hsafe.writeAddress v
    · refine ⟨Stereo.Safe.stable.fmWriteData h.output f time v, ?_⟩
      intro g hg
      obtain rfl : _ = g := Option.some.inj hg
      exact hsafe.writeData time v m.output

theorem Safe.writeControl (h : m.Safe) (time : Nat) (v : UInt8) : (m.writeControl time v).Safe := by
  have hnoted : ({ m with
      output := m.output.note (.soundMix v time), control := v &&& 7 } : Mixer).Safe :=
    ⟨Stereo.Safe.stable.note h.output _, h.fm⟩
  exact hnoted.applyMix time

theorem Safe.endFrame (h : m.Safe) (clocks : Nat) : (m.endFrame clocks).Safe := by
  have hpsg := Stereo.Safe.stable.psgRunUntil h.output m.psg clocks
  have hfm := h.fm
  unfold Mixer.endFrame
  dsimp only [Chip.endFrame, Chip.runUntil]
  generalize m.psg.runUntil clocks m.output = p at hpsg ⊢
  cases hf : m.fm with
  | none => exact ⟨hpsg.endFrame clocks, by simp⟩
  | some f =>
      have hsafe := hfm f (by rw [hf]; rfl)
      refine ⟨(Stereo.Safe.stable.fmRunUntil hpsg f clocks).endFrame clocks, ?_⟩
      intro g hg
      obtain rfl : _ = g := Option.some.inj hg
      exact (hsafe.runUntil clocks p.2).congr rfl

theorem Safe.readSamples (h : m.Safe) (length : Nat) : (m.readSamples length).2.Safe :=
  ⟨h.output.readInterleaved length, h.fm⟩

theorem Safe.discard (h : m.Safe) : m.discard.Safe := ⟨h.output.discard, h.fm⟩

theorem Safe.reset (h : m.Safe) : m.reset.Safe := by
  have hclear : ({ m with
      psg := m.psg.reset, fm := m.fm.map Chip.reset, control := 0
      output := m.output.clear } : Mixer).Safe := by
    refine ⟨h.output.clear, ?_⟩
    intro g hg
    cases hf : m.fm with
    | none => simp [hf] at hg
    | some f =>
        rw [hf] at hg
        obtain rfl : _ = g := Option.some.inj hg
        exact FmChip.Safe.new
  exact hclear.applyMix 0

theorem Safe.new (timing : Standard) (sampleRate : Nat) (noise : NoiseVariant) (fmFitted : Bool) :
    (Mixer.new timing sampleRate noise fmFitted).Safe := by
  unfold Mixer.new
  refine Safe.applyMix ⟨⟨Resampler.Safe.new _ _ _, Resampler.Safe.new _ _ _⟩, ?_⟩ 0
  intro g hg
  cases fmFitted with
  | false => simp at hg
  | true =>
      obtain rfl : _ = g := Option.some.inj hg
      exact FmChip.Safe.new

end Mixer

end MasterSystem.Sound
