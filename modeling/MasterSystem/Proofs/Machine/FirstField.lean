import MasterSystem.Proofs.Machine.Reached
import MasterSystem.Proofs.Video.Representation

/-! # A first field

A processor that waits writes to no device.  The first field of such a machine leaves the devices as
power-on has left them, but for the beam, the clocks and the samples that can be read.

* **Sound.**  A tone generator that nothing was written to stays as it is (`Psg.endFrame_off`), so
  that closing the frame only makes samples (`Mixer.Fits.first`).
* **Video.**  What a chip draws whose registers are all zero is black (`Blank.advance`).
* **Machine.**  The field is run to its end, and its numbers are within the ranges of the layout
  (`Idle.first_field`). -/

namespace MasterSystem

open Video (Vdp)
open Video.Vdp (LineStart)
open Z80 (Processor)
open Snapshot Codec

/-! ### Sound -/

namespace Sound

/-- A tone that is off stays as it is. -/
theorem Square.run_off (start stop : Nat) (enabled : Bool) (out : Stereo) :
    ({ osc := Psg.quiet } : Square).run start stop enabled out = ({ osc := Psg.quiet }, out) := by
  have hvolume : Psg.quiet.volume enabled = 0 := by cases enabled <;> rfl
  have hlevel : Psg.quiet.setLevel start 0 out = (Psg.quiet, out) := rfl
  unfold Square.run
  simp only [hvolume, hlevel, if_true, true_or, Nat.sub_self]
  rfl

/-- So does a noise that is off, when its time does not run backwards. -/
theorem Noise.run_off {start stop : Nat} (h : start ≤ stop) (shifter taps : UInt16) (tone : Nat)
    (enabled : Bool) (out : Stereo) :
    ({ osc := Psg.quiet, shifter := shifter, taps := taps } : Noise).run start stop tone enabled
      out = ({ osc := Psg.quiet, shifter := shifter, taps := taps }, out) := by
  have hvolume : Psg.quiet.volume enabled = 0 := by cases enabled <;> rfl
  have hlevel : Psg.quiet.setLevel start 0 out = (Psg.quiet, out) := rfl
  have hdelay : start + Psg.quiet.delay - stop = 0 := Nat.sub_eq_zero_of_le h
  unfold Noise.run
  simp only [hvolume, Int.neg_zero, ite_self, hlevel, true_or, if_true, hdelay]
  rfl

/-- A tone generator that nothing was written to since power-on stays as it is. -/
theorem Psg.endFrame_off (variant : NoiseVariant) (enabled : Bool) (clocks : Nat) (out : Stereo) :
    Chip.endFrame { Psg.new variant with enabled := enabled } clocks out =
      ({ Psg.new variant with enabled := enabled }, out) := by
  have hend (p : Psg) : Chip.endFrame p clocks out =
      ({ (p.runUntil clocks out).1 with time := (p.runUntil clocks out).1.time - clocks },
        (p.runUntil clocks out).2) := rfl
  have hrun : Psg.runUntil { Psg.new variant with enabled := enabled } clocks out =
      ({ Psg.new variant with enabled := enabled, time := clocks }, out) := by
    unfold Psg.runUntil Psg.new
    dsimp only
    split
    · rename_i hzero
      rw [Nat.le_zero.1 hzero]
    · simp only [Vector.getElem_replicate, Square.run_off, Noise.run_off (Nat.zero_le clocks)]
      rfl
  rw [hend, hrun]
  dsimp only
  rw [Nat.sub_self]
  rfl

theorem Resampler.Fits.endFrame {b : Resampler} (h : b.Fits) (clocks : Nat) :
    (b.endFrame clocks).Fits where
  factor := h.factor
  offset := Nat.lt_trans (Nat.mod_lt _ (by decide : 0 < timeUnit)) (by decide)
  avail := by
    have hsize := h.size
    have havail : (b.endFrame clocks).avail ≤ b.slots.size - kernelWidth - 1 :=
      Nat.min_le_right _ _
    omega
  integrator := h.integrator
  slots := h.slots
  size := h.size

/-- The first frame of a console without an FM chip, if nothing is written to its tone generator. -/
theorem Mixer.Fits.first {sampleRate : Nat} (timing : Standard) (noise : NoiseVariant)
    (h : sampleRate < range 4) (clocks : Nat) :
    ((Mixer.new timing sampleRate noise false).endFrame clocks).Fits := by
  have hpsg := Psg.Fits.new noise
  have hout := (Resampler.Fits.new timing h).endFrame clocks
  have hnew : Mixer.new timing sampleRate noise false =
      { psg := { Psg.new noise with enabled := true }, fm := none, control := 0
        output := .new timing.clockHz sampleRate (Mixer.capacity sampleRate)
        sampleRate := sampleRate } := by
    unfold Mixer.new
    rw [Mixer.applyMix_zero (by simp)]
    rfl
  rw [hnew]
  unfold Mixer.endFrame
  rw [Psg.endFrame_off]
  dsimp only
  refine ⟨⟨hpsg.tones, hpsg.noise, hpsg.time⟩, by simp, ?_, ?_, h⟩
  · rw [Stereo.endFrame_left]
    exact hout
  · rw [Stereo.endFrame_right]
    exact hout

end Sound

/-! ### Video -/

namespace Video.Vdp

variable {v : Vdp}

/-- The registers are all zero, and so is the picture being drawn. -/
structure Blank (v : Vdp) : Prop where
  regs : v.regs = Vector.replicate 16 0
  scratch : v.scratch = .new screenWidth maxHeight

/-- No registers select a picture that is off, with a black border. -/
theorem Blank.rowDrawn (h : v.Blank) : v.rowDrawn = Array.replicate screenWidth 0 := by
  have hregs : v.poised.regs = Vector.replicate 16 0 := by
    rw [poised_eq]
    exact h.regs
  have hregister (i : Nat) : v.poised.register i = 0 := by
    unfold register
    rw [hregs]
    exact getD_replicate 16 0 i
  have hoff : v.poised.displayEnabled = false := by
    unfold displayEnabled regBit
    rw [hregister]
    rfl
  have hmode : v.poised.mode4 = false := by
    unfold mode4 regBit
    rw [hregister]
    simp
  unfold Vdp.rowDrawn paint backdrop
  rw [hoff, hmode, hregister]
  rfl

/-- Black pixels copied over black ones. -/
theorem copyRow_black (n k i size : Nat) :
    copyRow (Array.replicate screenWidth 0) n k i (Array.replicate size 0) =
      Array.replicate size 0 := by
  refine Array.ext_getElem? fun j => ?_
  by_cases hj : j < size
  · rw [copyRow_get _ _ _ _ _ _ (by rwa [Array.size_replicate]), Array.getElem?_replicate,
      if_pos hj, getD_replicate, ite_self]
  · rw [Array.getElem?_eq_none (by rw [copyRow_size, Array.size_replicate]; omega),
      Array.getElem?_eq_none (by rw [Array.size_replicate]; omega)]

theorem Blank.nextLine (h : v.Blank) : v.nextLine.2.Blank := by
  let w : Vdp := { v with line := (v.line + 1) % v.timing.linesPerFrame }
  have hw : w.Blank := ⟨h.regs, h.scratch⟩
  have hregs := congrArg Vdp.regs (bare_nextLine v)
  refine ⟨Eq.trans hregs h.regs, ?_⟩
  show w.startLine.2.scratch = _
  rw [startLine_scratch, hw.scratch]
  unfold inked
  split
  · rw [hw.rowDrawn]
    unfold Frame.new
    dsimp only
    rw [copyRow_black]
  · rfl

theorem Blank.nextLines : ∀ (n : Nat) {v : Vdp}, v.Blank → (nextLines n v).2.Blank
  | 0, _, h => h
  | n + 1, _, h => Blank.nextLines n h.nextLine

theorem Blank.advance (h : v.Blank) (cycles : Nat) : (v.advance cycles).2.Blank :=
  Blank.nextLines _ ⟨h.regs, h.scratch⟩

/-- The numbers of a chip are within the ranges of the layout, whatever was done to it. -/
theorem Represented.fits (h : v.Represented) : v.Fits := by
  have hline : v.line < 313 := by
    have hline := h.safe.line
    cases ht : v.timing <;> rw [ht] at hline <;> simp only [Standard.linesPerFrame] at hline <;>
      omega
  have hshape := h.framed.display
  unfold displayConsistent at hshape
  simp only [Bool.and_eq_true, Bool.or_eq_true, beq_iff_eq] at hshape
  obtain ⟨⟨hwidth, hheight⟩, hpixels⟩ := hshape
  have hsize : v.palette.colors.size = 32 := h.decoded.size
  have hcycles : v.lineCycles < 228 := h.safe.lineCycles
  refine ⟨?_, ?_, ?_, ?_, ?_, ?_, ?_, ?_⟩
  · rw [h.safe.vram]
    decide
  · rw [h.safe.cram]
    cases v.model <;> decide
  · rw [hsize]
    decide
  · simp only [range]
    omega
  · simp only [range]
    omega
  · rw [hwidth]
    decide
  · simp only [range]
    omega
  · rw [hpixels, hwidth]
    simp only [range, screenWidth]
    omega

end Video.Vdp

/-! ### The machine -/

namespace Machine

/-- A host without a place for samples takes none. -/
theorem takeSamples_zero (m : Machine) : (m.takeSamples (some 0)).2 = m := by
  unfold Machine.takeSamples Sound.Mixer.readSamples Sound.Stereo.readInterleaved
  dsimp only
  rw [Nat.zero_div, Nat.min_zero, if_pos rfl]
  rfl

/-- A machine without an FM chip after power-on, whose processor waits. -/
structure Idle (c : Cartridge) (m : Machine) : Prop where
  board : m.board = .new (some c) none m.settings
  fm : m.settings.fm = false
  rate : m.settings.sampleRate < range 4
  ram : (Memory.mapperOf (some c)).ram.size < range 8
  waits : m.cpu.Waits
  frameCycle : m.frameCycle = 0
  frameCount : m.frameCount = 0

variable {c : Cartridge} {m : Machine}

/-- The processor leaves the devices to themselves. -/
theorem Idle.atBlank (h : Idle c m) : m.atBlank.bus.vdp.Represented ∧ m.atBlank.bus.vdp.Blank ∧
    m.atBlank.bus.sound = m.board.sound ∧ m.atBlank.bus.controls = m.board.controls := by
  refine runToBlank_waits_bus (I := fun b => b.vdp.Represented ∧ b.vdp.Blank ∧
    b.sound = m.board.sound ∧ b.controls = m.board.controls) (fun hb _ => hb) ?_ (fun hb => hb)
    stepLimit m.frameCycle m.cpu h.waits ?_
  · rintro b ⟨hrep, hblank, hrest⟩ cycles
    have hadvance := hrep.advance cycles
    have hdrawn := hblank.advance cycles
    exact ⟨hadvance.congr (Vdp.Safe.stable.quiet hadvance.safe) rfl rfl rfl rfl rfl,
      ⟨hdrawn.regs, hdrawn.scratch⟩, hrest⟩
  · have hnew := Vdp.Represented.new (Mainboard.videoModel c.info.console) c.info.zone.timing
    have hsafe := hnew.safe
    show m.board.vdp.Represented ∧ m.board.vdp.Blank ∧ _ ∧ _
    refine ⟨?_, ?_, rfl, rfl⟩
    · rw [h.board]
      exact hnew.congr (hsafe.congr rfl rfl rfl rfl hsafe.address) rfl rfl rfl rfl rfl
    · rw [h.board]
      exact ⟨rfl, rfl⟩

/-- The field is run to its vertical blank. -/
theorem Idle.field (h : Idle c m) :
    m.runField.2 = .ok () ∧ (lines m.beats).any LineStart.blank = true := by
  have hrest : m.board.vdp.lineCycles < cyclesPerLine := by
    rw [h.board]
    exact (by decide : 0 < cyclesPerLine)
  have hline : m.board.vdp.line = m.board.vdp.activeHeight := by
    rw [h.board]
    exact Mainboard.new_line _ _ _
  obtain ⟨hsteps, hticks, -⟩ := Waits.field h.waits hrest hline
  exact ⟨hsteps, any_blank hsteps hticks hrest⟩

/-- Its sound after a frame. -/
theorem Idle.endFrame_fits (h : Idle c m) (clocks : Nat) :
    (m.board.sound.endFrame clocks).quiet.Fits := by
  have hfits := Sound.Mixer.Fits.first c.info.zone.timing c.info.noise h.rate clocks
  have hnew : m.board.sound =
      .new c.info.zone.timing m.settings.sampleRate c.info.noise false := by
    rw [h.board]
    unfold Mainboard.new
    rw [h.fm]
    rfl
  rw [hnew]
  exact ⟨hfits.psg, hfits.fm, hfits.left, hfits.right, hfits.sampleRate⟩

/-- **The first field of a machine that waits.**  A host that takes no samples of it can save the
machine, in which nothing but black was drawn. -/
theorem Idle.first_field (h : Idle c m) (hm : Reached m) :
    (m.run none (some 0)).1.frameCount = 1 ∧ (m.run none (some 0)).1.state.Fits ∧
      (m.run none (some 0)).1.board.vdp.scratch = .new Video.screenWidth Video.maxHeight := by
  obtain ⟨hsteps, hblank⟩ := h.field
  obtain ⟨hrep, hdrawn, hsound, hcontrols⟩ := h.atBlank
  have hreached : Reached (m.run none (some 0)).1 := .run hm hsteps hblank none (some 0)
  have hwired := hreached.ready.1.wired
  have hcart : (m.run none (some 0)).1.board.memory.cartridge = some c := by
    have hmake := (run_make hm.ready.2 hm.ready.1.paused hsteps none (some 0)).1
    rw [h.board] at hmake
    exact congrArg (·.2.2.2.1) hmake
  have hrun : (m.run none (some 0)).1 = m.runField.1 := by
    rw [hm.run_eq hsteps]
    exact takeSamples_zero _
  rw [hrun, (runField_ok hsteps).2] at hwired hcart ⊢
  generalize (runToBlank stepLimit m.frameCycle m.cpu).2.1 = cycle at *
  generalize m.atBlank = z at *
  -- From here on the field is a machine of which only these facts matter.
  have hboard := closeFrame_board { m with cpu := z } cycle
  obtain ⟨-, -, -, hcycle, hcount⟩ := closeFrame_spec { m with cpu := z } cycle
  generalize ({ m with cpu := z } : Machine).closeFrame cycle = k at *
  have hone : k.frameCount = 1 := by
    rw [hcount, h.frameCount]
  refine ⟨hone, ⟨?_, ?_, ?_, ?_, ?_, ?_, ?_⟩, ?_⟩
  · show k.board.memory.ram.size < range 8
    rw [hwired.ram]
    cases k.board.console <;> decide
  · show k.board.memory.mapper.ram.size < range 8
    rw [hwired.cartridge, hcart]
    exact h.ram
  · show k.board.vdp.Fits
    rw [hboard]
    exact hrep.fits
  · show k.board.sound.Fits
    rw [hboard]
    show (z.bus.sound.endFrame _).quiet.Fits
    rw [hsound]
    exact h.endFrame_fits _
  · show ∀ p ∈ k.board.controls.phaser, p.Fits
    rw [hboard]
    show ∀ p ∈ z.bus.controls.phaser, p.Fits
    rw [hcontrols, h.board]
    simp [Mainboard.new]
  · show k.frameCount < range 8
    rw [hone]
    decide
  · show k.frameCycle < range 4
    rw [hcycle]
    exact Nat.lt_trans hrep.safe.lineCycles (by decide)
  · rw [hboard]
    exact hdrawn.scratch

/-- The program of nothing but `HALT`, on a machine without an FM chip. -/
theorem idle_haltingImage : ∃ (c : Cartridge) (m₀ : Machine),
    (new { fm := false }).insert haltingImage
      { console := .master, zone := .exportNtsc, board := .romOnly } none = (m₀, .ok ()) ∧
    Fresh m₀ ∧ Reached m₀ ∧ Idle c m₀ := by
  obtain ⟨c, m₀, hm₀, hrom, hboard, hbus, hregs, -, hsettings, hcount, hcycle⟩ :=
    insert_small haltingImage_size { fm := false } rfl
  have hram : (Memory.mapperOf (some c)).ram.size < range 8 := by
    unfold Memory.mapperOf
    dsimp only
    rw [hboard]
    exact range_pos 8
  have hidle : Idle c m₀ := by
    refine ⟨?_, ?_, ?_, hram, haltingImage_waits hrom hboard hregs _ hbus, hcycle, hcount⟩
    · rw [hsettings]
      exact hbus
    · rw [hsettings]
    · rw [hsettings]
      decide
  have hfresh : Fresh m₀ := .insert (.new _) hm₀
  refine ⟨c, m₀, hm₀, hfresh, .load hfresh ?_, hidle⟩
  rw [hidle.board]
  rfl

end Machine

end MasterSystem
