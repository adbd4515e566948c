import MasterSystem.Machine.Snapshot
import MasterSystem.Proofs.Snapshot.RoundTrip

/-! # States after power-on

The numbers of a machine that has just been switched on are within the ranges of the layout, so its
state is read back (`decode_encode`).  The sample rate and the cartridge's RAM are the host's and
the cartridge's, and are all that this depends on. -/

namespace MasterSystem

open Snapshot Codec

theorem Snapshot.Codec.isSigned_zero (width : Nat) : IsSigned width 0 := by
  have hpos := range_pos width
  unfold IsSigned
  omega

theorem Video.Vdp.Fits.new (model : Video.Model) (timing : Standard) :
    (Video.Vdp.new model timing).Fits where
  vram := by
    show (Array.replicate Video.vramSize (0 : UInt8)).size < range 8
    rw [Array.size_replicate]
    decide
  cram := by
    show (Array.replicate (cramSize model) (0 : UInt8)).size < range 8
    rw [Array.size_replicate]
    cases model <;> decide
  palette := by
    show (Array.replicate 32 (0 : Video.Color)).size < range 8
    rw [Array.size_replicate]
    decide
  line := by
    show 192 < range 4
    decide
  lineCycles := by
    show 0 < range 4
    decide
  display := by
    refine ⟨?_, ?_, ?_⟩
    · show Video.screenWidth < range 4
      decide
    · show 192 < range 4
      decide
    · show (Array.replicate _ _).size < range 8
      rw [Array.size_replicate]
      decide

namespace Sound

theorem Oscillator.Fits.quiet : Psg.quiet.Fits := ⟨isSigned_zero 4, by decide⟩

theorem Psg.Fits.new (variant : NoiseVariant) : (Psg.new variant).Fits where
  tones s hs := by
    obtain rfl : s = _ := (Vector.mem_replicate.1 hs).2
    exact ⟨Oscillator.Fits.quiet, by decide⟩
  noise := Oscillator.Fits.quiet
  time := by
    show 0 < range 4
    decide

theorem Fm.Operator.Fits.off : ({} : Fm.Operator).Fits :=
  ⟨by decide, by decide, isSigned_zero 4, isSigned_zero 4⟩

theorem FmChip.Fits.new : ({} : FmChip).Fits where
  regs := by
    show (Array.replicate 64 (0 : UInt8)).size < range 8
    rw [Array.size_replicate]
    decide
  modulators c hc := by
    obtain rfl : c = _ := (Vector.mem_replicate.1 hc).2
    exact Fm.Operator.Fits.off
  carriers c hc := by
    obtain rfl : c = _ := (Vector.mem_replicate.1 hc).2
    exact Fm.Operator.Fits.off
  tremolo := by decide
  vibrato := by decide
  nextSample := by decide
  lastOutput := isSigned_zero 4

theorem Resampler.Fits.new {sampleRate : Nat} (timing : Standard) (h : sampleRate < range 4) :
    (Resampler.new timing.clockHz sampleRate (Mixer.capacity sampleRate)).Fits := by
  have hfactor : Resampler.factorOf timing.clockHz sampleRate < range 8 := by
    have hclock : max timing.clockHz 1 = timing.clockHz ∧ 0 < timing.clockHz ∧
        timing.clockHz < 0x100000000 := by cases timing <;> decide
    obtain ⟨hmax, hpos, hclock⟩ := hclock
    unfold factorOf timeUnit
    simp only [hmax]
    refine Nat.lt_of_le_of_lt (Nat.div_le_self _ _) ?_
    simp only [range] at h ⊢
    omega
  refine ⟨hfactor, ?_, range_pos 8, isSigned_zero 8, ?_, ?_⟩
  · show (if 0 = 0 then Resampler.factorOf timing.clockHz sampleRate / 2 else 0) < range 8
    rw [if_pos rfl]
    omega
  · intro z hz
    obtain rfl : z = 0 := by
      have hz : z ∈ Array.replicate (Mixer.capacity sampleRate + kernelWidth + 1) (0 : Int) := hz
      exact (Array.mem_replicate.1 hz).2
    exact isSigned_zero 8
  · show (Array.replicate (Mixer.capacity sampleRate + kernelWidth + 1) (0 : Int)).size < range 8
    rw [Array.size_replicate]
    simp only [range, Mixer.capacity, kernelWidth] at h ⊢
    omega

theorem Mixer.applyMix_zero {m : Mixer} (hfm : ∀ f ∈ m.fm, f.nextSample = 0) :
    m.applyMix 0 = { m with
      psg := { m.psg with enabled := m.mix.psg }
      fm := m.fm.map fun f => { f with enabled := m.mix.fm } } := by
  have hplay : m.psg.runUntil 0 m.output = (m.psg, m.output) := by
    unfold Psg.runUntil
    rw [if_pos (Nat.zero_le _)]
  unfold applyMix
  dsimp only [Chip.setEnabled]
  rw [hplay]
  cases hf : m.fm with
  | none => rfl
  | some f =>
      have hsample : f.nextSample = 0 := hfm f (by rw [hf]; rfl)
      have hrun : f.runUntil 0 m.output = (f, m.output) := by
        unfold FmChip.runUntil
        rw [hsample]
        rfl
      dsimp only [setFmEnabled, Chip.setEnabled]
      rw [hrun]
      rfl

theorem Mixer.Fits.new {sampleRate : Nat} (timing : Standard) (noise : NoiseVariant)
    (fmFitted : Bool) (h : sampleRate < range 4) :
    (Mixer.new timing sampleRate noise fmFitted).Fits := by
  have hpsg := Psg.Fits.new noise
  have hout := Resampler.Fits.new timing h
  unfold Mixer.new
  rw [Mixer.applyMix_zero (by cases fmFitted <;> simp)]
  refine ⟨⟨hpsg.tones, hpsg.noise, hpsg.time⟩, ?_, hout, hout, h⟩
  intro f hf
  cases fmFitted with
  | false => simp at hf
  | true =>
      obtain rfl : _ = f := Option.some.inj hf
      have hfm := FmChip.Fits.new
      exact ⟨hfm.regs, hfm.modulators, hfm.carriers, hfm.tremolo, hfm.vibrato, hfm.nextSample,
        hfm.lastOutput⟩

end Sound

/-- The state of a machine that has just been switched on is within the ranges of the layout. -/
theorem Machine.fits_of_power {m : Machine} {c : Cartridge} {bootRom : Option (Array UInt8)}
    {s : Settings} (hboard : m.board = .new (some c) bootRom s)
    (hrate : s.sampleRate < range 4) (hram : (Memory.mapperOf (some c)).ram.size < range 8)
    (hcount : m.frameCount = 0) (hcycle : m.frameCycle = 0) : m.state.Fits := by
  have hvdp := Video.Vdp.Fits.new (Mainboard.videoModel c.info.console) c.info.zone.timing
  unfold Machine.state
  rw [hboard, hcount, hcycle]
  refine ⟨?_, hram, ?_, Sound.Mixer.Fits.new _ _ _ hrate, by simp [Mainboard.new], range_pos 8,
    range_pos 4⟩
  · show (Array.replicate (Memory.ramSize c.info.console) (0 : UInt8)).size < range 8
    rw [Array.size_replicate]
    cases c.info.console <;> decide
  · exact ⟨hvdp.vram, hvdp.cram, hvdp.palette, hvdp.line, hvdp.lineCycles, hvdp.display⟩

end MasterSystem
