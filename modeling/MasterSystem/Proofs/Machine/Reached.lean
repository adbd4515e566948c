import MasterSystem.Proofs.Machine.Alike
import MasterSystem.Proofs.Machine.Safety

/-! # Machines that a host can reach

A machine that was loaded, has run and was played with is still the machine that its settings and
its cartridge make.

* **Hardware.**  No program changes what a board consists of (`Kept`), and no program breaks what
  the settings, the phaser and the queues of notes have to do with each other (`Wired`).
* **Loading.**  A machine is `Fresh` when it was only loaded, with a boot ROM and with cheats.
* **Playing.**  `Reached` machines have run fields and taken inputs since; they are `Ready` to be
  saved (`Reached.ready`). -/

namespace MasterSystem

open Video (Vdp)
open Video.Vdp (LineStart)
open Sound (Mixer)
open Z80 (Processor)

/-! ### Devices -/

theorem Mapper.ram_write_size (m : Mapper) (address : UInt16) (v : UInt8) :
    (m.write address v).ram.size = m.ram.size := by
  cases m with
  | sega m =>
      simp only [Mapper.write, Mapper.ram, Sega.write]
      repeat' split
      all_goals simp
  | codemasters m =>
      simp only [Mapper.write, Mapper.ram, Codemasters.write]
      repeat' split
      all_goals simp
  | sg1000 m =>
      simp only [Mapper.write, Mapper.ram, Expansion.write]
      repeat' split
      all_goals simp
  | romOnly | korean _ | msx _ | janggun _ => rfl

namespace Video.Vdp

/-- Where the vertical blank begins nothing is drawn, so the phaser sees no light. -/
theorem nextLine_light {v : Vdp} (h : v.nextLine.1 = true) :
    v.nextLine.2.lightDetected = false := by
  have hstart (w : Vdp) (hline : w.line = w.activeHeight) :
      w.startLine.2.lightDetected = false := by
    have htraced : w.traced.lightDetected = false := by
      rw [traced_eq]
      dsimp only
      rw [if_neg (show ¬ w.line < w.activeHeight by omega),
        if_pos (show w.line ≤ w.activeHeight by omega), countLine_eq]
      rfl
    rw [startLine_eq, if_pos hline]
    dsimp only
    rw [finishField_eq]
    exact htraced
  exact hstart { v with line := (v.line + 1) % v.timing.linesPerFrame }
    (of_decide_eq_true ((enter_blank v).symm.trans h))

theorem nextLine_line_of_blank {v : Vdp} (h : v.nextLine.1 = true) :
    v.nextLine.2.line = v.nextLine.2.activeHeight := by
  rw [nextLine_line, nextLine_activeHeight]
  exact of_decide_eq_true ((enter_blank v).symm.trans h)

theorem nextLines_one (v : Vdp) : nextLines 1 v = v.nextLine := by
  show (v.nextLine.1 || false, v.nextLine.2) = v.nextLine
  rw [Bool.or_false]

/-- Where the beam is when a line starts with the vertical blank. -/
theorem advance_one {v : Vdp} {cycles : Nat} (hone : (v.lineCycles + cycles) / cyclesPerLine = 1)
    (h : (v.advance cycles).1 = true) : (v.advance cycles).2.lightDetected = false ∧
      (v.advance cycles).2.line = (v.advance cycles).2.activeHeight := by
  unfold advance at h ⊢
  dsimp only at h ⊢
  rw [hone, nextLines_one] at h ⊢
  exact ⟨nextLine_light h, nextLine_line_of_blank h⟩

theorem host_stable (p : Model × Glasses × Option (Int × Int)) :
    Vdp.Stable fun v => v.host = p where
  readData h := h
  writeData h b := (writeData_host _ b).trans h
  readStatus h := h
  writeControl h b := (writeControl_host _ b).trans h
  latchHCounter h := h
  setShutter h _ := h
  quiet h := h

end Video.Vdp

namespace Sound.Mixer

theorem applyMix_fmFitted (m : Mixer) (time : Nat) : (m.applyMix time).fmFitted = m.fmFitted := by
  unfold applyMix fmFitted
  dsimp only
  generalize Chip.setEnabled m.psg time m.mix.psg m.output = p
  cases m.fm with
  | none => rfl
  | some f => rfl

theorem writePsg_fmFitted (m : Mixer) (time : Nat) (v : UInt8) :
    (m.writePsg time v).fmFitted = m.fmFitted := by
  unfold writePsg
  generalize m.psg.writeData time v m.output = p
  rfl

theorem writeStereo_fmFitted (m : Mixer) (time : Nat) (v : UInt8) :
    (m.writeStereo time v).fmFitted = m.fmFitted := by
  unfold writeStereo
  generalize m.psg.writeStereo time v m.output = p
  rfl

theorem writeFm_fmFitted (m : Mixer) (time : Nat) (port v : UInt8) :
    (m.writeFm time port v).fmFitted = m.fmFitted := by
  unfold writeFm fmFitted
  split
  · rfl
  · rename_i hfm
    rw [hfm]
    rfl

theorem endFrame_fmFitted (m : Mixer) (clocks : Nat) :
    (m.endFrame clocks).fmFitted = m.fmFitted := by
  unfold endFrame fmFitted
  dsimp only [Chip.endFrame, Chip.runUntil]
  generalize m.psg.runUntil clocks m.output = p
  cases m.fm with
  | none => rfl
  | some f =>
      dsimp only
      generalize f.runUntil clocks p.2 = q
      rfl

theorem reset_fmFitted (m : Mixer) : m.reset.fmFitted = m.fmFitted := by
  unfold reset
  rw [applyMix_fmFitted]
  unfold fmFitted
  exact Option.isSome_map ..

theorem fm_stable (time : Nat) (fitted : Bool) :
    Mixer.Stable time fun m => m.fmFitted = fitted where
  writePsg h v := (writePsg_fmFitted _ time v).trans h
  writeStereo h v := (writeStereo_fmFitted _ time v).trans h
  writeFm h port v := (writeFm_fmFitted _ time port v).trans h
  writeControl h _ := (applyMix_fmFitted _ time).trans h
  quiet h := h

end Sound.Mixer

/-! ### Hardware -/

namespace Mainboard

/-- Two boards consist of the same, whatever they hold. -/
structure Kept (b c : Mainboard) : Prop where
  make : c.make = b.make
  ram : c.memory.ram.size = b.memory.ram.size
  board : c.memory.mapper.board = b.memory.mapper.board
  cartridge : c.memory.mapper.ram.size = b.memory.mapper.ram.size
  host : c.vdp.host = b.vdp.host
  fm : c.sound.fmFitted = b.sound.fmFitted
  opposites : c.controls.allowOpposites = b.controls.allowOpposites
  phaser : c.controls.phaser = b.controls.phaser

variable {b c d : Mainboard}

theorem Kept.trans (h : Kept b c) (h' : Kept c d) : Kept b d where
  make := h'.make.trans h.make
  ram := h'.ram.trans h.ram
  board := h'.board.trans h.board
  cartridge := h'.cartridge.trans h.cartridge
  host := h'.host.trans h.host
  fm := h'.fm.trans h.fm
  opposites := h'.opposites.trans h.opposites
  phaser := h'.phaser.trans h.phaser

theorem kept_write (b : Mainboard) (a : UInt16) (v : UInt8) : Kept b (b.write a v) := by
  obtain ⟨hmemory, hsound, hcontrols⟩ := b.write_rest a v
  have hmapper : (b.memory.write a v).mapper = b.memory.mapper.write a v := by
    unfold Memory.write
    dsimp only
    split <;> rfl
  refine ⟨b.make_write a v, ?_, ?_, ?_, (Vdp.host_stable _).write rfl a v, ?_, ?_, ?_⟩
  · rw [hmemory, Memory.ram_write_size]
  · rw [hmemory, hmapper, Mapper.board_write]
  · rw [hmemory, hmapper, Mapper.ram_write_size]
  · rw [hsound]
  · rw [hcontrols]
  · rw [hcontrols]

theorem kept_input (b : Mainboard) (port : UInt8) : Kept b (b.input port).2 := by
  obtain ⟨hmemory, hsound, hcontrols⟩ := b.input_rest port
  refine ⟨b.make_input port, ?_, ?_, ?_, (Vdp.host_stable _).input rfl port, ?_, ?_, ?_⟩
  · rw [hmemory]
  · rw [hmemory]
  · rw [hmemory]
  · rw [hsound]
  · rw [hcontrols]
  · rw [hcontrols]

theorem kept_output (b : Mainboard) (port v : UInt8) : Kept b (b.output port v) := by
  obtain ⟨hmemory, hcontrols⟩ := b.output_rest port v
  refine ⟨b.make_output port v, ?_, ?_, ?_, (Vdp.host_stable _).output rfl port v,
    (Mixer.fm_stable b.cycle _).output rfl rfl port v, ?_, ?_⟩
  · rcases hmemory with h | h <;> rw [h]
    rfl
  · rcases hmemory with h | h <;> rw [h]
    rfl
  · rcases hmemory with h | h <;> rw [h]
    rfl
  · rcases hcontrols with h | h <;> rw [h]
    rfl
  · rcases hcontrols with h | h <;> rw [h]
    rfl

/-! ### What belongs together -/

/-- The queues of the devices are empty: their notes have been moved to the board's. -/
structure Quiet (b : Mainboard) : Prop where
  video : b.vdp.notes = #[]
  sound : b.sound.output.notes = #[]

theorem writeData_notes (v : Vdp) (x : UInt8) : (v.writeData x).notes = v.notes := by
  obtain ⟨vram, cram, latch, palette, h⟩ := v.writeData_eq x
  rw [h]

theorem Quiet.writePort (h : b.Quiet) (port v : UInt8) : (b.writePort port v).Quiet := by
  obtain ⟨hvideo, hsound⟩ := h
  unfold Mainboard.writePort
  dsimp only
  split
  · unfold writeMemoryControl
    dsimp only
    split <;> exact ⟨hvideo, hsound⟩
  · split
    · unfold writePins
      dsimp only
      split <;> exact ⟨hvideo, hsound⟩
    · split
      · unfold Mainboard.writePsg
        rw [collectSound_eq]
        exact ⟨hvideo, rfl⟩
      · split
        · exact ⟨(writeData_notes b.vdp v).trans hvideo, hsound⟩
        · split
          · rw [collectVideo_eq]
            exact ⟨rfl, hsound⟩
          · exact ⟨hvideo, hsound⟩

theorem Quiet.output (h : b.Quiet) (port v : UInt8) : (b.output port v).Quiet := by
  unfold Mainboard.output
  split
  · split
    · unfold Mainboard.writeStereo
      rw [collectSound_eq]
      exact ⟨h.video, rfl⟩
    · exact h
  · split
    · unfold Mainboard.writeFmPort
      rw [collectSound_eq]
      exact ⟨h.video, rfl⟩
    · exact h.writePort port v

theorem Quiet.input (h : b.Quiet) (port : UInt8) : (b.input port).2.Quiet := by
  obtain ⟨hvideo, hsound⟩ := h
  unfold Mainboard.input readPort
  dsimp only
  repeat' split
  all_goals exact ⟨hvideo, hsound⟩

theorem Quiet.write (h : b.Quiet) (a : UInt16) (v : UInt8) : (b.write a v).Quiet := by
  obtain ⟨hvideo, hsound⟩ := h
  unfold Mainboard.write
  dsimp only
  split <;> exact ⟨hvideo, hsound⟩

/-- The board is the one that the settings and the cartridge make, and what the settings, the phaser
and the boot ROM have to do with each other is as it has to be. -/
structure Wired (s : Settings) (b : Mainboard) : Prop where
  console : b.make = (Mainboard.new b.memory.cartridge b.memory.bootRom s).make
  ram : b.memory.ram.size = Memory.ramSize b.console
  board : b.memory.mapper.board = (Memory.mapperOf b.memory.cartridge).board
  cartridge : b.memory.mapper.ram.size = (Memory.mapperOf b.memory.cartridge).ram.size
  host : b.vdp.host = (videoModel b.console, s.glasses, b.controls.phaser.map Phaser.target)
  fm : b.sound.fmFitted = (s.fm && videoModel b.console == .master && expectsFm b.info)
  opposites : b.controls.allowOpposites = s.allowOpposites
  mapped : b.memory.bootRomMapped = true → b.memory.bootRom.isSome = true
  framed : b.vdp.Framed
  quiet : b.Quiet

variable {s : Settings}

/-- A board that consists of the same is the one that the same settings make. -/
theorem Wired.keep (h : b.Wired s) (hk : Kept b c) (hmapped : c.memory.bootRomMapped = true →
    c.memory.bootRom.isSome = true) (hframed : c.vdp.Framed) (hquiet : c.Quiet) : c.Wired s := by
  have hmake := hk.make
  unfold make at hmake
  simp only [Prod.mk.injEq] at hmake
  obtain ⟨hconsole, -, -, hcart, hboot⟩ := hmake
  have hinfo : c.info = b.info := by
    unfold info
    rw [hcart]
  refine ⟨?_, ?_, ?_, ?_, ?_, ?_, hk.opposites.trans h.opposites, hmapped, hframed, hquiet⟩
  · rw [hk.make, h.console, hcart, hboot]
  · rw [hk.ram, h.ram, hconsole]
  · rw [hk.board, h.board, hcart]
  · rw [hk.cartridge, h.cartridge, hcart]
  · rw [hk.host, h.host, hconsole, hk.phaser]
  · rw [hk.fm, h.fm, hconsole, hinfo]

theorem mapped_output (h : b.memory.bootRomMapped = true → b.memory.bootRom.isSome = true)
    (port v : UInt8) : (b.output port v).memory.bootRomMapped = true →
      (b.output port v).memory.bootRom.isSome = true := by
  intro hm
  rcases (b.output_rest port v).1 with hmem | hmem <;> rw [hmem] at hm ⊢
  · exact h hm
  · unfold Memory.writeControl at hm ⊢
    exact h (Bool.and_eq_true_iff.1 hm).1

/-- Nothing that a program does breaks what belongs together. -/
theorem Wired.bus (s : Settings) : Z80.Bus.Invariant (Wired s) where
  write {b} h a v := by
    refine h.keep (kept_write b a v) ?_ (Vdp.Framed.stable.write h.framed a v) (h.quiet.write a v)
    show (b.write a v).memory.bootRomMapped = true → (b.write a v).memory.bootRom.isSome = true
    rw [(b.write_rest a v).1]
    unfold Memory.write
    dsimp only
    split <;> exact h.mapped
  input {b} h p := by
    refine h.keep (kept_input b (Word.low p)) ?_ (Vdp.Framed.stable.input h.framed (Word.low p))
      (h.quiet.input (Word.low p))
    show (b.input (Word.low p)).2.memory.bootRomMapped = true →
      (b.input (Word.low p)).2.memory.bootRom.isSome = true
    rw [(b.input_rest (Word.low p)).1]
    exact h.mapped
  output {b} h p v := h.keep (kept_output b (Word.low p) v) (mapped_output h.mapped _ v)
    (Vdp.Framed.stable.output h.framed (Word.low p) v) (h.quiet.output (Word.low p) v)
  vector h := h

/-- The board after power-on. -/
theorem Wired.new (c : Option Cartridge) (bootRom : Option (Array UInt8)) (s : Settings) :
    (Mainboard.new c bootRom s).Wired s := by
  have hsound (t : Standard) (rate : Nat) (noise : Sound.NoiseVariant) (fitted : Bool) :
      (Mixer.new t rate noise fitted).fmFitted = fitted ∧
        (Mixer.new t rate noise fitted).output.notes = #[] := by
    unfold Mixer.new
    rw [Mixer.applyMix_zero (by cases fitted <;> simp)]
    cases fitted <;> exact ⟨rfl, rfl⟩
  refine ⟨rfl, Array.size_replicate, rfl, rfl, rfl, (hsound _ _ _ _).1, rfl, ?_, ?_, rfl,
    (hsound _ _ _ _).2⟩
  · show Memory.mapsBootRom s.bootRom bootRom _ = true → bootRom.isSome = true
    unfold Memory.mapsBootRom
    intro h
    rw [Bool.and_eq_true_iff, Bool.and_eq_true_iff] at h
    exact h.1.2
  · exact (Vdp.Framed.new .master .ntsc).congr rfl rfl

end Mainboard

/-! ### Fields -/

namespace Machine

open Mainboard (Kept Wired)

variable {s : Settings}

theorem runToBlank_wired (n cycle : Nat) (z : Processor Mainboard) (h : z.bus.Wired s) :
    (runToBlank n cycle z).2.2.bus.Wired s := by
  refine runToBlank_invariant (Wired.bus s) ?_ ?_ ?_ n cycle z h
  · intro b hb c
    exact hb.keep (.mk rfl rfl rfl rfl rfl rfl rfl rfl) hb.mapped hb.framed
      ⟨hb.quiet.video, hb.quiet.sound⟩
  · intro b hb c
    refine hb.keep (.mk rfl rfl rfl rfl (Vdp.advance_host b.vdp c) rfl rfl rfl) hb.mapped
      (Vdp.Framed.stable.quiet (hb.framed.advance c)) ⟨rfl, hb.quiet.sound⟩
  · intro b hb
    exact hb.keep (.mk rfl rfl rfl rfl rfl rfl rfl rfl) hb.mapped hb.framed
      ⟨hb.quiet.video, hb.quiet.sound⟩

theorem closed_wired (cheats : Cheats) (cycle : Nat) {b : Mainboard} (h : b.Wired s) :
    (closed cheats cycle b).Wired s := by
  refine h.keep ⟨rfl, cheats.poke_size _, rfl, rfl, rfl, ?_, rfl, rfl⟩ h.mapped h.framed
    ⟨h.quiet.video, rfl⟩
  exact Mixer.endFrame_fmFitted b.sound _

/-- A frame that reaches its vertical blank ends where the blank begins, and no light is seen. -/
theorem runToBlank_end : ∀ (n cycle : Nat) (z : Processor Mainboard),
    z.bus.vdp.lineCycles < cyclesPerLine →
    (lines (beatsFrom n cycle z)).any LineStart.blank = true →
    (runToBlank n cycle z).2.2.bus.vdp.lightDetected = false ∧
      (runToBlank n cycle z).2.2.bus.vdp.line = (runToBlank n cycle z).2.2.bus.vdp.activeHeight ∧
      (runToBlank n cycle z).2.2.bus.vdp.lineCycles < cyclesPerLine
  | 0, _, _, _, hblank => by simp [beatsFrom, lines] at hblank
  | n + 1, cycle, z, hrest, hblank => by
      unfold beatsFrom runToBlank at *
      generalize hs : Processor.step { z with bus := { z.bus with cycle := cycle } } = o at *
      obtain ⟨w, x | c⟩ := o
      · simp [lines] at hblank
      · have hstarts := follow_starts w c
        have hnext := follow_lineCycles w c
        have hbus := follow_bus w c
        dsimp only at *
        generalize follow w c = p at *
        obtain ⟨_ | _, u⟩ := p
        · refine runToBlank_end n (cycle + c) u ?_ ?_
          · rw [hnext]
            exact Nat.mod_lt _ (by decide)
          · rw [lines_cons, List.any_append] at hblank
            dsimp only at hblank
            rwa [← hstarts, Bool.false_or] at hblank
        · -- No step is longer than a line, so the beam is on the line that reported the blank.
          have hadvance : u.bus.vdp.lightDetected = false ∧
              u.bus.vdp.line = u.bus.vdp.activeHeight := by
            have hone : (w.bus.vdp.lineCycles + c) / cyclesPerLine = 1 := by
              obtain ⟨t, ht⟩ := starts_one hs hrest hstarts.symm
              rw [← Vdp.length_starts, ht, List.length_singleton]
            have hblank := Vdp.advance_blank w.bus.vdp c
            rw [← hstarts] at hblank
            rw [hbus]
            exact Vdp.advance_one hone hblank
          refine ⟨hadvance.1, hadvance.2, ?_⟩
          rw [hnext]
          exact Nat.mod_lt _ (by decide)

/-! ### Loading -/

/-- A machine between two frames that is all that a save state and the host know of it. -/
structure Ready (m : Machine) : Prop where
  wired : m.board.Wired m.settings
  strict : m.cpu.strict = m.settings.strict
  paused : m.paused = false
  light : m.board.vdp.lightDetected = false
  line : m.board.vdp.line = m.board.vdp.activeHeight
  notes : m.board.notes = #[]
  rest : m.board.vdp.lineCycles < cyclesPerLine

/-- A machine that was loaded and has not run. -/
inductive Fresh : Machine → Prop where
  | new (s : Settings) : Fresh (.new s)
  | bootRom {m m' : Machine} {data : Array UInt8} :
      Fresh m → m.insertBootRom data = (m', .ok ()) → Fresh m'
  | insert {m m' : Machine} {data : Array UInt8} {o : Overrides} {path : Option String} :
      Fresh m → m.insert data o path = (m', .ok ()) → Fresh m'
  | cheat {m m' : Machine} {code : String} {c : Cheat} :
      Fresh m → m.addCheat code = (m', .ok c) → Fresh m'

theorem Ready.power (c : Option Cartridge) (bootRom : Option (Array UInt8)) (s : Settings)
    {m : Machine} (hboard : m.board = .new c bootRom s) (hsettings : m.settings = s)
    (hstrict : m.cpu.strict = s.strict) (hpaused : m.paused = false) : m.Ready := by
  refine ⟨?_, ?_, hpaused, ?_, ?_, ?_, ?_⟩
  · rw [hboard, hsettings]
    exact .new c bootRom s
  · rw [hsettings, hstrict]
  · rw [hboard]
    rfl
  · rw [hboard]
    exact Mainboard.new_line c bootRom s
  · rw [hboard]
    rfl
  · rw [hboard]
    show 0 < cyclesPerLine
    decide

end Machine

theorem Mapper.clearRam_spec (m : Mapper) :
    m.clearRam.board = m.board ∧ m.clearRam.ram.size = m.ram.size := by
  cases m <;> simp [clearRam, setRam, board, ram]

theorem Sound.Mixer.reset_notes (m : Mixer) : m.reset.output.notes = m.output.notes := by
  unfold reset
  rw [applyMix_zero]
  · rfl
  · intro f hf
    cases hm : m.fm with
    | none => simp [hm] at hf
    | some g =>
        rw [hm] at hf
        obtain rfl : _ = f := Option.some.inj hf
        rfl

/-- The board after a reset, with the phaser where it points. -/
theorem Mainboard.Wired.reset {s : Settings} {b : Mainboard} (h : b.Wired s)
    (keepCartridgeRam keepRam bootRomEnabled : Bool) :
    ({ b.reset keepCartridgeRam keepRam bootRomEnabled with
      vdp := b.vdp.reset.setPhaserTarget (b.controls.phaser.map Phaser.target) } :
        Mainboard).Wired s := by
  have haim : b.vdp.phaserTarget = b.controls.phaser.map Phaser.target :=
    congrArg (fun p => p.2.2) h.host
  refine h.keep ⟨rfl, ?_, ?_, ?_, ?_, Mixer.reset_fmFitted b.sound, rfl, rfl⟩ ?_ ?_ ?_
  · show (if keepRam then b.memory.ram else _).size = _
    split
    · rfl
    · exact Array.size_replicate
  · show (if keepCartridgeRam then b.memory.mapper.reset
      else b.memory.mapper.reset.clearRam).board = _
    split
    · exact Mapper.board_reset _
    · rw [(Mapper.clearRam_spec _).1, Mapper.board_reset]
  · show (if keepCartridgeRam then b.memory.mapper.reset
      else b.memory.mapper.reset.clearRam).ram.size = _
    split
    · rw [Mapper.ram_reset]
    · rw [(Mapper.clearRam_spec _).2, Mapper.ram_reset]
  · unfold Vdp.host
    rw [haim]
    rfl
  · show Memory.mapsBootRom _ b.memory.bootRom _ = true → b.memory.bootRom.isSome = true
    unfold Memory.mapsBootRom
    intro hm
    rw [Bool.and_eq_true_iff, Bool.and_eq_true_iff] at hm
    exact hm.1.2
  · exact (Vdp.Framed.new b.vdp.model b.vdp.timing).congr rfl rfl
  · exact ⟨h.quiet.video, (Mixer.reset_notes b.sound).trans h.quiet.sound⟩

namespace Machine

theorem Ready.reset {m : Machine} (h : m.Ready) : m.reset.Ready where
  wired := h.wired.reset _ _ _
  strict := h.strict
  paused := h.paused
  light := by
    show (m.board.vdp.reset.setPhaserTarget _).lightDetected = false
    unfold Vdp.setPhaserTarget
    dsimp only
    split <;> rfl
  line := (Vdp.activeHeight_new m.board.vdp.model m.board.vdp.timing).symm
  notes := h.notes
  rest := by
    show 0 < cyclesPerLine
    decide

theorem Ready.setBootRom {m : Machine} (h : m.Ready) (data : Array UInt8) (notes : Notes) :
    ((m.mapBoard (·.setBootRom (some data))).log notes).Ready := by
  have hw := h.wired
  refine ⟨?_, h.strict, h.paused, h.light, h.line, h.notes, h.rest⟩
  exact ⟨congrArg (fun p => (p.1, p.2.1, p.2.2.1, p.2.2.2.1, some data)) hw.console, hw.ram,
    hw.board, hw.cartridge, hw.host, hw.fm, hw.opposites, fun _ => rfl, hw.framed,
    ⟨hw.quiet.video, hw.quiet.sound⟩⟩

/-- A patched image is in the same cartridge. -/
theorem Ready.setRom {m : Machine} (h : m.Ready) {c : Cartridge}
    (hcart : m.board.memory.cartridge = some c) (rom : Array UInt8) (notes : Notes)
    (cheats : Cheats) : ({ (m.setRom c rom).log notes with cheats := cheats } : Machine).Ready := by
  have hw := h.wired
  have hconsole := hw.console
  have hboard := hw.board
  have hsize := hw.cartridge
  have hfm := hw.fm
  unfold Mainboard.info at hfm
  rw [hcart] at hconsole hboard hsize hfm
  refine ⟨?_, h.strict, h.paused, h.light, h.line, h.notes, h.rest⟩
  exact ⟨congrArg (fun p => (p.1, p.2.1, p.2.2.1, some { c with rom := rom }, p.2.2.2.2)) hconsole,
    hw.ram, hboard, hsize, hw.host, hfm, hw.opposites, hw.mapped, hw.framed,
    ⟨hw.quiet.video, hw.quiet.sound⟩⟩

theorem Fresh.ready {m : Machine} (h : Fresh m) : m.Ready := by
  induction h with
  | new s => exact .power none none s rfl rfl rfl rfl
  | @bootRom m m' data _ hload ih =>
      unfold insertBootRom at hload
      split at hload
      · simp at hload
      · have hready := ih.setBootRom data #[.bootRom data.size (Checksum.crc32 data)]
        obtain rfl : _ = m' := congrArg Prod.fst hload
        dsimp only
        split
        · exact hready.reset
        · exact hready
  | @insert m m' data o path _ hload ih =>
      unfold Machine.insert at hload
      dsimp only at hload
      split at hload
      · rename_i c _
        obtain rfl : _ = m' := congrArg Prod.fst hload
        exact .power (some c) m.board.memory.bootRom m.settings rfl rfl rfl rfl
      · simp at hload
  | @cheat m m' code c _ hadd ih =>
      unfold addCheat at hadd
      split at hadd
      · simp at hadd
      · rename_i cart hcart
        split at hadd
        · simp at hadd
        · rename_i rom _
          obtain rfl : _ = m' := congrArg Prod.fst hadd
          exact ih.setRom hcart rom _ _

/-! ### Playing -/

/-- A machine that was loaded with a cartridge, and has run fields and taken inputs since.  A field
that a host has run is one that reached its vertical blank. -/
inductive Reached : Machine → Prop where
  | load {m : Machine} : Fresh m → m.board.memory.cartridge.isSome = true → Reached m
  | run {m : Machine} : Reached m → m.runField.2 = .ok () →
      (lines m.beats).any LineStart.blank = true → ∀ (video : Option (Array UInt8))
      (audio : Option Nat), Reached (m.run video audio).1
  | press {m : Machine} : Reached m → ∀ (player : Nat) (k : Key), Reached (m.press player k)
  | release {m : Machine} : Reached m → ∀ (player : Nat) (k : Key), Reached (m.release player k)
  | setPhaser {m : Machine} : Reached m → ∀ p : Option Phaser, Reached (m.setPhaser p)

theorem runToBlank_strict : ∀ (n cycle : Nat) (z : Processor Mainboard),
    (runToBlank n cycle z).2.2.strict = z.strict
  | 0, _, _ => rfl
  | n + 1, cycle, z => by
      have hstep := Processor.step_strict { z with bus := { z.bus with cycle := cycle } }
      unfold runToBlank
      generalize Processor.step { z with bus := { z.bus with cycle := cycle } } = o at hstep ⊢
      obtain ⟨w, x | c⟩ := o
      · dsimp only
        rw [collect_strict]
        exact hstep
      · have hfollow := follow_strict w c
        dsimp only
        generalize follow w c = p at hfollow ⊢
        obtain ⟨_ | _, u⟩ := p
        · exact (runToBlank_strict n _ u).trans (hfollow.trans hstep)
        · exact hfollow.trans hstep

theorem Ready.runField {m : Machine} (h : m.Ready) (hsteps : m.runField.2 = .ok ())
    (hblank : (lines m.beats).any LineStart.blank = true) : m.runField.1.Ready := by
  obtain ⟨-, hclosed⟩ := runField_ok hsteps
  have hwired := runToBlank_wired stepLimit m.frameCycle m.cpu h.wired
  have hstrict := runToBlank_strict stepLimit m.frameCycle m.cpu
  obtain ⟨hlight, hline, hrest⟩ := runToBlank_end stepLimit m.frameCycle m.cpu h.rest hblank
  rw [hclosed]
  generalize (runToBlank stepLimit m.frameCycle m.cpu).2.1 = cycle
  have hboard := closeFrame_board { m with cpu := m.atBlank } cycle
  have hcpu := closeFrame_strict { m with cpu := m.atBlank } cycle
  obtain ⟨hsettings, -, hpaused⟩ := closeFrame_host { m with cpu := m.atBlank } cycle
  refine ⟨?_, ?_, hpaused.trans h.paused, ?_, ?_, ?_, ?_⟩
  · rw [hboard, hsettings]
    exact closed_wired m.cheats cycle hwired
  · rw [hcpu, hsettings]
    exact hstrict.trans h.strict
  · rw [hboard]
    exact hlight
  · rw [hboard]
    exact hline
  · rw [hboard]
    rfl
  · rw [hboard]
    exact hrest

/-- Other sound, with the same chips and an empty queue of notes. -/
theorem Ready.setSound {m : Machine} (h : m.Ready) {sound : Mixer}
    (hfm : sound.fmFitted = m.board.sound.fmFitted)
    (hnotes : sound.output.notes = m.board.sound.output.notes) :
    (m.mapBoard fun b => { b with sound := sound }).Ready := by
  refine ⟨?_, h.strict, h.paused, h.light, h.line, h.notes, h.rest⟩
  exact h.wired.keep ⟨rfl, rfl, rfl, rfl, rfl, hfm, rfl, rfl⟩ h.wired.mapped h.wired.framed
    ⟨h.wired.quiet.video, hnotes.trans h.wired.quiet.sound⟩

theorem readInterleaved_notes (b : Sound.Stereo) (length : Nat) :
    (b.readInterleaved length).2.notes = b.notes := by
  unfold Sound.Stereo.readInterleaved
  dsimp only
  split <;> rfl

theorem Ready.takeSamples {m : Machine} (h : m.Ready) (audio : Option Nat) :
    (m.takeSamples audio).2.Ready := by
  cases audio with
  | none => exact h.setSound rfl rfl
  | some n =>
      have hnotes := readInterleaved_notes m.board.sound.output n
      unfold Machine.takeSamples Mixer.readSamples
      dsimp only
      generalize m.board.sound.output.readInterleaved n = p at hnotes ⊢
      exact h.setSound rfl hnotes

theorem Ready.deliver {m : Machine} (h : m.Ready) (video : Option (Array UInt8))
    (audio : Option Nat) : (m.deliver video audio).1.Ready := by
  unfold Machine.deliver
  split
  · exact h
  · exact h.takeSamples audio

/-- Other buttons, with the phaser where it was. -/
theorem Ready.setControls {m : Machine} (h : m.Ready) {c : Controls}
    (hphaser : c.phaser = m.board.controls.phaser)
    (hopposites : c.allowOpposites = m.board.controls.allowOpposites) :
    (m.mapBoard fun b => { b with controls := c }).Ready := by
  refine ⟨?_, h.strict, h.paused, h.light, h.line, h.notes, h.rest⟩
  exact h.wired.keep ⟨rfl, rfl, rfl, rfl, rfl, rfl, hopposites, hphaser⟩ h.wired.mapped
    h.wired.framed ⟨h.wired.quiet.video, h.wired.quiet.sound⟩

theorem Ready.press {m : Machine} (h : m.Ready) (player : Nat) (k : Key) :
    (m.press player k).Ready := by
  have hpressed := h.setControls (c := m.board.controls.press player k) rfl rfl
  unfold Machine.press
  dsimp only
  split
  · exact ⟨hpressed.wired, hpressed.strict, hpressed.paused, hpressed.light, hpressed.line,
      hpressed.notes, hpressed.rest⟩
  · exact hpressed

theorem press_memory (m : Machine) (player : Nat) (k : Key) :
    (m.press player k).board.memory = m.board.memory := by
  unfold Machine.press
  dsimp only
  split <;> rfl

theorem Ready.setPhaser {m : Machine} (h : m.Ready) (p : Option Phaser) :
    (m.setPhaser p).Ready := by
  have hw := h.wired
  refine ⟨?_, h.strict, h.paused, ?_, h.line, h.notes, h.rest⟩
  · exact ⟨hw.console, hw.ram, hw.board, hw.cartridge,
      congrArg (fun q => (q.1, q.2.1, p.map Phaser.target)) hw.host, hw.fm, hw.opposites,
      hw.mapped, hw.framed.setPhaserTarget _, ⟨hw.quiet.video, hw.quiet.sound⟩⟩
  · show (m.board.vdp.setPhaserTarget _).lightDetected = false
    unfold Vdp.setPhaserTarget
    dsimp only
    split
    · rfl
    · exact h.light

/-- What a frame that the host runs is, once it has reached its vertical blank. -/
theorem Ready.run_eq {m : Machine} (h : m.Ready)
    (hcart : m.board.memory.cartridge.isSome = true) (hsteps : m.runField.2 = .ok ())
    (video : Option (Array UInt8)) (audio : Option Nat) :
    m.run video audio = m.runField.1.deliver video audio := by
  rw [run_deliver, Option.isNone_eq_false_iff.2 hcart, h.paused, if_neg (by decide),
    if_neg (by decide)]
  generalize m.runField = o at hsteps ⊢
  obtain ⟨k, r⟩ := o
  obtain rfl : r = .ok () := hsteps
  rfl

theorem Ready.run {m : Machine} (h : m.Ready) (hcart : m.board.memory.cartridge.isSome = true)
    (hsteps : m.runField.2 = .ok ()) (hblank : (lines m.beats).any LineStart.blank = true)
    (video : Option (Array UInt8)) (audio : Option Nat) : (m.run video audio).1.Ready := by
  rw [h.run_eq hcart hsteps]
  exact (h.runField hsteps hblank).deliver video audio

/-- **A machine that a host can reach can be saved**: nothing that is left out of a save state says
anything that the state and the host do not. -/
theorem Reached.ready {m : Machine} (h : Reached m) :
    m.Ready ∧ m.board.memory.cartridge.isSome = true := by
  induction h with
  | load hfresh hcart => exact ⟨hfresh.ready, hcart⟩
  | run _ hsteps hblank video audio ih =>
      obtain ⟨hready, hcart⟩ := ih
      have hmake := (run_make hcart hready.paused hsteps video audio).1
      have hsame := congrArg (fun p => p.2.2.2.1.isSome) hmake
      exact ⟨hready.run hcart hsteps hblank video audio, hsame.trans hcart⟩
  | press _ player k ih =>
      refine ⟨ih.1.press player k, ?_⟩
      rw [press_memory]
      exact ih.2
  | release _ player k ih => exact ⟨ih.1.setControls rfl rfl, ih.2⟩
  | setPhaser _ p ih => exact ⟨ih.1.setPhaser p, ih.2⟩

theorem Reached.run_eq {m : Machine} (h : Reached m) (hsteps : m.runField.2 = .ok ())
    (video : Option (Array UInt8)) (audio : Option Nat) :
    m.run video audio = m.runField.1.deliver video audio :=
  h.ready.1.run_eq h.ready.2 hsteps video audio

end Machine

end MasterSystem
