import MasterSystem.Proofs.Cheat.Undoing
import MasterSystem.Proofs.Machine.Reached
import MasterSystem.Proofs.Sound.Levels

/-! # Turning the power off and on

A reset takes a machine back to where it was when its cartridge was inserted, though it goes another
way: nothing is made anew, each device clears what it holds.

* **Devices.**  What a reset makes of the sound depends on nothing that was played
  (`Mixer.blank`), and what it makes of a mapper on nothing but the RAM (`Mapper.keepRam`).
* **Boards.**  `Fitted` boards have the parts of a new one.  No program changes them
  (`Fitted.bus`), and a reset leaves nothing else (`Fitted.reset_eq`).
* **Machines.**  `Played` are the machines that a host gets from one that was just loaded;
  `reset_eq_insert` compares their reset with loading them again. -/

namespace MasterSystem

open Video (Vdp)
open Sound (Mixer)
open Z80 (Processor)

/-! ### Sound -/

namespace Sound

namespace Resampler

theorem clear_addDelta (b : Resampler) (time : Nat) (delta : Int) :
    (b.addDelta time delta).clear = b.clear := by
  unfold addDelta
  split
  · rfl
  · unfold clear
    dsimp only
    rw [spread_size]

theorem clear_read (b : Resampler) (count : Nat) : (b.read count).2.clear = b.clear := by
  have hdrop (b : Resampler) (n : Nat) : (b.drop n).clear = b.clear := by
    have hsize : (b.drop n).slots.size = b.slots.size := by
      unfold drop
      dsimp only
      rw [Array.size_append, Array.size_replicate, Array.size_extract]
      omega
    unfold clear
    rw [hsize]
    rfl
  exact hdrop { b with integrator := _ } _

end Resampler

namespace Stereo

/-- The output after a reset, with its notes taken. -/
def blank (out : Stereo) : Stereo := { out.clear with notes := #[] }

variable (out : Stereo)

theorem blank_eq : out.blank = { left := out.left.clear, right := out.right.clear } := rfl

theorem blank_addLeft (time : Nat) (delta : Int) : (out.addLeft time delta).blank = out.blank := by
  simp only [blank_eq, addLeft, noteIf_left, noteIf_right, Resampler.clear_addDelta]

theorem blank_addRight (time : Nat) (delta : Int) :
    (out.addRight time delta).blank = out.blank := by
  simp only [blank_eq, addRight, noteIf_left, noteIf_right, Resampler.clear_addDelta]

/-- Nothing that is played changes what a reset makes of the output. -/
theorem blank_stable (cleared : Stereo) : Stereo.Stable fun out => out.blank = cleared where
  addDelta {out} h routing time delta := by
    cases routing with
    | off => exact h
    | right => exact (out.blank_addRight time delta).trans h
    | left => exact (out.blank_addLeft time delta).trans h
    | center => exact ((blank_addRight _ time delta).trans (out.blank_addLeft time delta)).trans h
  note h _ := h

theorem blank_endFrame (clocks : Nat) : (out.endFrame clocks).blank = out.blank := by
  simp only [blank_eq, endFrame, endLeft, endRight, noteIf_left, noteIf_right]
  rfl

theorem blank_readInterleaved (length : Nat) :
    (out.readInterleaved length).2.blank = out.blank := by
  unfold readInterleaved
  dsimp only
  split
  · rfl
  · simp only [blank_eq, Resampler.clear_read]

theorem blank_discard : out.discard.blank = out.blank := by
  simp only [blank_eq, discard, Resampler.clear_read]

end Stereo

namespace Psg

variable (p : Psg)

theorem runUntil_variant (time : Nat) (out : Stereo) :
    (p.runUntil time out).1.variant = p.variant := by
  unfold runUntil
  split <;> rfl

theorem setOsc_variant (channel : Nat) (o : Oscillator) :
    (p.setOsc channel o).variant = p.variant := by
  unfold setOsc
  split <;> rfl

theorem command_variant (data : UInt8) : (p.command data).variant = p.variant := by
  have hlatch : (if data &&& 0x80 != 0 then { p with latch := data } else p).variant =
      p.variant := by
    split <;> rfl
  unfold command
  dsimp only
  generalize (if data &&& 0x80 != 0 then { p with latch := data } else p) = q at hlatch ⊢
  split
  · exact (setOsc_variant q _ _).trans hlatch
  · split <;> exact hlatch

theorem route_variant (channel : Nat) (routing : Routing) (time : Nat) (out : Stereo) :
    (p.route channel routing time out).1.variant = p.variant := by
  unfold route
  dsimp only
  split
  · rfl
  · exact setOsc_variant p channel _

theorem writeStereo_variant (time : Nat) (data : UInt8) (out : Stereo) :
    (p.writeStereo time data out).1.variant = p.variant := by
  unfold writeStereo
  dsimp only
  rw [route_variant, route_variant, route_variant, route_variant]
  exact runUntil_variant p time out

end Psg

namespace Mixer

/-- The sound after a reset, before the mix control is in force, with its notes taken. -/
def blank (m : Mixer) : Mixer := m.cleared.quiet

variable (m : Mixer)

theorem blank_congr {m k : Mixer} (hpsg : k.psg.variant = m.psg.variant)
    (hfm : k.fmFitted = m.fmFitted) (hout : k.output.blank = m.output.blank)
    (hrate : k.sampleRate = m.sampleRate) : k.blank = m.blank := by
  have hchip : k.fm.map Chip.reset = m.fm.map Chip.reset := by
    unfold fmFitted at hfm
    cases hk : k.fm with
    | none =>
        cases hm : m.fm with
        | none => rfl
        | some f => simp [hk, hm] at hfm
    | some f =>
        cases hm : m.fm with
        | none => simp [hk, hm] at hfm
        | some g => rfl
  show Mixer.mk (.new k.psg.variant) (k.fm.map Chip.reset) 0 k.output.blank k.sampleRate =
    .mk (.new m.psg.variant) (m.fm.map Chip.reset) 0 m.output.blank m.sampleRate
  rw [hpsg, hchip, hout, hrate]

theorem applyMix_blank (time : Nat) : (m.applyMix time).blank = m.blank := by
  have hpsg := m.psg.runUntil_variant time m.output
  have hout := (Stereo.blank_stable m.output.blank).psgRunUntil rfl m.psg time
  have hfm := m.applyMix_fmFitted time
  unfold applyMix at hfm ⊢
  dsimp only [Chip.setEnabled] at hfm ⊢
  generalize m.psg.runUntil time m.output = p at hpsg hout hfm ⊢
  refine blank_congr hpsg hfm ?_ rfl
  cases m.fm with
  | none => exact hout
  | some f => exact (Stereo.blank_stable m.output.blank).fmRunUntil hout f time

theorem writePsg_blank (time : Nat) (v : UInt8) : (m.writePsg time v).blank = m.blank :=
  blank_congr ((Psg.command_variant _ v).trans (m.psg.runUntil_variant time m.output))
    (m.writePsg_fmFitted time v) ((Stereo.blank_stable _).psgWriteData rfl m.psg time v) rfl

theorem writeStereo_blank (time : Nat) (v : UInt8) : (m.writeStereo time v).blank = m.blank := by
  have hpsg := m.psg.writeStereo_variant time v m.output
  have hout := (Stereo.blank_stable m.output.blank).psgWriteStereo rfl m.psg time v
  unfold writeStereo
  generalize m.psg.writeStereo time v m.output = p at hpsg hout ⊢
  exact blank_congr hpsg rfl hout rfl

theorem writeFm_blank (time : Nat) (port v : UInt8) : (m.writeFm time port v).blank = m.blank := by
  have hfm := m.writeFm_fmFitted time port v
  unfold writeFm at hfm ⊢
  split
  · rfl
  · rename_i f hf
    rw [hf] at hfm
    refine blank_congr rfl hfm ?_ rfl
    dsimp only [Chip.write]
    split
    · rfl
    · exact (Stereo.blank_stable m.output.blank).fmWriteData rfl f time v

theorem endFrame_blank (clocks : Nat) : (m.endFrame clocks).blank = m.blank := by
  have hpsg := m.psg.runUntil_variant clocks m.output
  have hout := (Stereo.blank_stable m.output.blank).psgRunUntil rfl m.psg clocks
  have hfm := m.endFrame_fmFitted clocks
  unfold endFrame at hfm ⊢
  dsimp only [Chip.endFrame, Chip.runUntil] at hfm ⊢
  generalize m.psg.runUntil clocks m.output = p at hpsg hout hfm ⊢
  refine blank_congr hpsg hfm ?_ rfl
  cases m.fm with
  | none => exact (p.2.blank_endFrame clocks).trans hout
  | some f =>
      exact (Stereo.blank_endFrame _ clocks).trans
        ((Stereo.blank_stable m.output.blank).fmRunUntil hout f clocks)

/-- Nothing that is played changes what a reset makes of the sound. -/
theorem blank_stable (time : Nat) (cleared : Mixer) :
    Mixer.Stable time fun m => m.blank = cleared where
  writePsg h v := (writePsg_blank _ time v).trans h
  writeStereo h v := (writeStereo_blank _ time v).trans h
  writeFm h port v := (writeFm_blank _ time port v).trans h
  writeControl h _ := (applyMix_blank _ time).trans h
  quiet h := h

theorem reset_blank : m.reset.blank = m.blank := by
  refine (m.cleared.applyMix_blank 0).trans (blank_congr rfl ?_ ?_ rfl)
  · exact Option.isSome_map ..
  · have hclear (b : Resampler) : b.clear.clear = b.clear := by
      unfold Resampler.clear
      rw [Array.size_replicate]
    show Stereo.mk m.output.left.clear.clear m.output.right.clear.clear #[] =
      .mk m.output.left.clear m.output.right.clear #[]
    rw [hclear, hclear]

theorem reset_eq {m : Mixer} (hnotes : m.output.notes = #[]) : m.reset = m.blank.applyMix 0 := by
  have hquiet : m.cleared.quiet = m.cleared := by
    show { m.cleared with output := { m.output.clear with notes := #[] } } = m.cleared
    rw [← hnotes]
    rfl
  unfold blank
  rw [hquiet]
  rfl

theorem new_blank (timing : Standard) (sampleRate : Nat) (noise : NoiseVariant) (fmFitted : Bool) :
    (Mixer.new timing sampleRate noise fmFitted).blank =
      unmixed timing sampleRate noise fmFitted := by
  have hmix := (unmixed timing sampleRate noise fmFitted).applyMix_blank 0
  have hclear (clock n : Nat) : (Resampler.new clock sampleRate n).clear =
      Resampler.new clock sampleRate n := by
    unfold Resampler.clear Resampler.new Resampler.setRates
    simp
  have hpsg : (Psg.new noise).reset = Psg.new noise := rfl
  have hchip : Chip.reset ({} : FmChip) = {} := rfl
  refine hmix.trans ?_
  unfold blank
  cases fmFitted <;> simp [unmixed, cleared, quiet, Stereo.clear, Stereo.new, hclear, hpsg, hchip]

/-- The sound after a reset is a new one, if a reset makes of it what it makes of a new one. -/
theorem reset_eq_new {m : Mixer} {timing : Standard} {sampleRate : Nat} {noise : NoiseVariant}
    {fmFitted : Bool} (hnotes : m.output.notes = #[])
    (h : m.blank = (Mixer.new timing sampleRate noise fmFitted).blank) :
    m.reset = .new timing sampleRate noise fmFitted := by
  rw [reset_eq hnotes, h, new_blank]
  rfl

end Mixer

end Sound

/-! ### Mappers -/

namespace Mapper

/-- A mapper with the RAM of another one of the same board. -/
def keepRam (m old : Mapper) : Mapper :=
  match m, old with
  | sega m, sega o => sega { m with ram := o.ram, ramUsed := o.ramUsed }
  | codemasters m, codemasters o => codemasters { m with ram := o.ram, ramUsed := o.ramUsed }
  | sg1000 _, sg1000 o => sg1000 o
  | m, _ => m

theorem setRam_spec (m : Mapper) {data : Array UInt8} (hsize : m.ram.size = data.size) :
    (m.setRam data).board = m.board ∧ (m.setRam data).ram.size = m.ram.size := by
  cases m <;> first | exact ⟨rfl, hsize.symm⟩ | exact ⟨rfl, rfl⟩

theorem clearRam_ram (m : Mapper) : m.clearRam.ram = Array.replicate m.ram.size 0 := by
  cases m <;> rfl

/-- Only RAM that is there is ever shown. -/
def UsedIfThere (m : Mapper) : Prop := m.ramUsed = true → 0 < m.ram.size

variable {m : Mapper} {board : Board} {ram : Nat}

/-- The SG-1000 always shows what there is. -/
theorem UsedIfThere.expansion (m : Expansion) : (sg1000 m).UsedIfThere := by
  intro hused
  simpa [ramUsed, Mapper.ram, Array.size_pos_iff] using hused

theorem UsedIfThere.write (h : m.UsedIfThere) (address : UInt16) (v : UInt8) :
    (m.write address v).UsedIfThere := by
  intro hused
  rw [ram_write_size]
  by_cases hram : 0 < m.ram.size
  · exact hram
  · have hempty : m.ram = #[] := Array.size_eq_zero_iff.1 (by omega)
    have hunused : m.ramUsed = false := by
      cases hm : m.ramUsed with
      | false => rfl
      | true => exact absurd (h hm) hram
    refine absurd hused ?_
    cases m with
    | sega m =>
        simp only [Mapper.ram, Mapper.ramUsed] at hempty hunused
        simp only [Mapper.write, Mapper.ramUsed, Sega.write, Sega.ramCell?, hempty]
        repeat' split
        all_goals simp_all
    | codemasters m =>
        simp only [Mapper.ram, Mapper.ramUsed] at hempty hunused
        simp only [Mapper.write, Mapper.ramUsed, Codemasters.write, Codemasters.ramCell?, hempty]
        repeat' split
        all_goals simp_all
    | sg1000 m =>
        simp only [Mapper.ram] at hempty
        simp [Mapper.write, Mapper.ramUsed, Expansion.write, Expansion.ramCell?, hempty]
    | romOnly | korean _ | msx _ | janggun _ => simp [Mapper.write, ramUsed]

theorem UsedIfThere.reset (h : m.UsedIfThere) : m.reset.UsedIfThere := by
  intro hused
  rw [ram_reset]
  apply h
  cases m <;> exact hused

theorem UsedIfThere.setRam (h : m.UsedIfThere) {data : Array UInt8}
    (hsize : m.ram.size = data.size) : (m.setRam data).UsedIfThere := by
  cases m with
  | sg1000 m => exact .expansion _
  | sega m =>
      intro hused
      exact hsize ▸ h hused
  | codemasters m =>
      intro hused
      exact hsize ▸ h hused
  | romOnly | korean _ | msx _ | janggun _ => exact h

theorem UsedIfThere.clearRam (h : m.UsedIfThere) : m.clearRam.UsedIfThere :=
  h.setRam Array.size_replicate.symm

theorem UsedIfThere.new (board : Board) (ram : Nat) : (Mapper.new board ram).UsedIfThere := by
  cases board with
  | sg1000 => exact .expansion _
  | _ =>
      intro h
      exact nomatch h

/-- A reset keeps the RAM, and nothing else. -/
theorem reset_eq (hboard : m.board = (Mapper.new board ram).board) :
    m.reset = (Mapper.new board ram).keepRam m := by
  cases board <;> cases m <;> first | rfl | cases hboard

/-- Without the RAM, a mapper after a reset is a new one. -/
theorem clearRam_reset (hboard : m.board = (Mapper.new board ram).board)
    (hsize : m.ram.size = (Mapper.new board ram).ram.size) (hused : m.ramUsed = false) :
    m.reset.clearRam = .new board ram := by
  cases board <;> cases m <;> first
    | rfl
    | (cases hboard; done)
    | simp_all [Mapper.new, Mapper.ram, ramUsed, reset, clearRam, setRam, Sega.new, Sega.reset,
        Codemasters.new, Codemasters.reset, Expansion.new]

end Mapper

/-! ### Boards -/

namespace Mainboard

/-- A board that has the parts of a new one. -/
structure Fitted (fresh b : Mainboard) : Prop where
  console : (b.console, b.japan, b.pal) = (fresh.console, fresh.japan, fresh.pal)
  ram : b.memory.ram.size = fresh.memory.ram.size
  mapper : b.memory.mapper.board = fresh.memory.mapper.board
  cartridge : b.memory.mapper.ram.size = fresh.memory.mapper.ram.size
  used : b.memory.mapper.UsedIfThere
  model : b.vdp.model = fresh.vdp.model
  glasses : b.vdp.glasses = fresh.vdp.glasses
  timing : b.vdp.timing = fresh.vdp.timing
  video : b.vdp.Safe
  sound : b.sound.blank = fresh.sound.blank
  opposites : b.controls.allowOpposites = fresh.controls.allowOpposites
  quiet : b.Quiet

variable {fresh b c : Mainboard}

/-- A board that consists of the same has the same parts. -/
theorem Fitted.keep (h : Fitted fresh b) (hk : Kept b c) (hused : c.memory.mapper.UsedIfThere)
    (htiming : c.vdp.timing = b.vdp.timing) (hvideo : c.vdp.Safe)
    (hsound : c.sound.blank = b.sound.blank) (hquiet : c.Quiet) : Fitted fresh c where
  console := by
    have hconsole := congrArg (fun p => (p.1, p.2.1, p.2.2.1)) hk.make
    exact hconsole.trans h.console
  ram := hk.ram.trans h.ram
  mapper := hk.board.trans h.mapper
  cartridge := hk.cartridge.trans h.cartridge
  used := hused
  model := by
    have hmodel := congrArg Prod.fst hk.host
    exact hmodel.trans h.model
  glasses := by
    have hglasses := congrArg (fun p => p.2.1) hk.host
    exact hglasses.trans h.glasses
  timing := htiming.trans h.timing
  video := hvideo
  sound := hsound.trans h.sound
  opposites := hk.opposites.trans h.opposites
  quiet := hquiet

/-- No program changes the parts of a board. -/
theorem Fitted.bus (fresh : Mainboard) : Z80.Bus.Invariant (Fitted fresh) where
  write {b} h a v := by
    obtain ⟨hmemory, hsound, -⟩ := b.write_rest a v
    have hbeam := (Machine.stable_beam b.vdp.beam).write rfl a v
    have hmapper : (b.write a v).memory.mapper = b.memory.mapper.write a v := by
      rw [hmemory]
      unfold Memory.write
      dsimp only
      split <;> rfl
    refine h.keep (kept_write b a v) ?_ (congrArg Prod.fst hbeam)
      (Vdp.Safe.stable.write h.video a v) ?_ (h.quiet.write a v)
    · show (b.write a v).memory.mapper.UsedIfThere
      rw [hmapper]
      exact h.used.write a v
    · exact congrArg Mixer.blank hsound
  input {b} h p := by
    obtain ⟨hmemory, hsound, -⟩ := b.input_rest (Word.low p)
    have hbeam := (Machine.stable_beam b.vdp.beam).input rfl (Word.low p)
    refine h.keep (kept_input b (Word.low p)) ?_ (congrArg Prod.fst hbeam)
      (Vdp.Safe.stable.input h.video (Word.low p)) (congrArg Mixer.blank hsound)
      (h.quiet.input (Word.low p))
    show (b.input (Word.low p)).2.memory.mapper.UsedIfThere
    rw [hmemory]
    exact h.used
  output {b} h p v := by
    have hbeam := (Machine.stable_beam b.vdp.beam).output rfl (Word.low p) v
    refine h.keep (kept_output b (Word.low p) v) ?_ (congrArg Prod.fst hbeam)
      (Vdp.Safe.stable.output h.video (Word.low p) v)
      ((Mixer.blank_stable b.cycle b.sound.blank).output rfl rfl (Word.low p) v)
      (h.quiet.output (Word.low p) v)
    show (b.output (Word.low p) v).memory.mapper.UsedIfThere
    rcases (b.output_rest (Word.low p) v).1 with hmemory | hmemory <;> rw [hmemory] <;>
      exact h.used
  vector h := h

/-- A new board has its own parts. -/
theorem Fitted.new (c : Cartridge) (bootRom : Option (Array UInt8)) (s : Settings) :
    Fitted (.new (some c) none s) (.new (some c) bootRom s) := by
  have hsafe := Vdp.Safe.new (videoModel c.info.console) (standard (some c.info) s)
  have hwired := Wired.new (some c) bootRom s
  exact ⟨rfl, rfl, rfl, rfl, .new _ _, rfl, rfl, rfl,
    ⟨hsafe.vram, hsafe.cram, hsafe.address, hsafe.line, hsafe.lineCycles⟩, rfl, rfl, hwired.quiet⟩

/-- **A reset makes a new board of one with its parts**, but for what players hold and what is on
the cartridge. -/
theorem Fitted.reset_eq {c : Cartridge} {s : Settings} (h : Fitted (.new (some c) none s) b)
    (keepCartridgeRam : Bool) :
    b.reset keepCartridgeRam false s.bootRom =
      { Mainboard.new (some c) b.memory.bootRom s with
        memory :=
          { (Mainboard.new (some c) b.memory.bootRom s).memory with
            cartridge := b.memory.cartridge
            mapper := if keepCartridgeRam then b.memory.mapper.reset
              else b.memory.mapper.reset.clearRam }
        vdp :=
          { (Mainboard.new (some c) b.memory.bootRom s).vdp with
            phaserTarget := b.vdp.phaserTarget }
        controls :=
          { (Mainboard.new (some c) b.memory.bootRom s).controls with
            pads := b.controls.pads, phaser := b.controls.phaser }
        notes := b.notes } := by
  have hconsole := h.console
  simp only [Prod.mk.injEq] at hconsole
  obtain ⟨hconsole, hjapan, hpal⟩ := hconsole
  have hmemory : b.memory.reset keepCartridgeRam false s.bootRom b.console =
      { (Mainboard.new (some c) b.memory.bootRom s).memory with
        cartridge := b.memory.cartridge
        mapper := if keepCartridgeRam then b.memory.mapper.reset
          else b.memory.mapper.reset.clearRam } := by
    have hram : b.memory.ram.size = Memory.ramSize (Mainboard.new (some c) none s).console :=
      h.ram.trans Array.size_replicate
    unfold Memory.reset
    rw [hconsole, hram]
    rfl
  have hvdp : b.vdp.reset = { (Mainboard.new (some c) b.memory.bootRom s).vdp with
      phaserTarget := b.vdp.phaserTarget } := by
    unfold Vdp.reset
    rw [h.video.vram, h.video.cram, h.model, h.timing, h.glasses, h.quiet.video]
    rfl
  have hsound : b.sound.reset = (Mainboard.new (some c) b.memory.bootRom s).sound :=
    Mixer.reset_eq_new h.quiet.sound h.sound
  have hcontrols : b.controls.reset = { (Mainboard.new (some c) b.memory.bootRom s).controls with
      pads := b.controls.pads, phaser := b.controls.phaser } := by
    unfold Controls.reset
    rw [h.opposites]
    rfl
  unfold reset
  rw [hmemory, hvdp, hsound, hcontrols, hconsole, hjapan, hpal]
  rfl

/-- The board after a reset has the same parts. -/
theorem Fitted.reset (h : Fitted fresh b) (keepCartridgeRam keepRam bootRomEnabled : Bool)
    (target : Option (Int × Int)) :
    Fitted fresh { b.reset keepCartridgeRam keepRam bootRomEnabled with
      vdp := b.vdp.reset.setPhaserTarget target } where
  console := h.console
  ram := by
    show (if keepRam then b.memory.ram else _).size = _
    split
    · exact h.ram
    · exact Array.size_replicate.trans h.ram
  mapper := by
    show (if keepCartridgeRam then b.memory.mapper.reset
      else b.memory.mapper.reset.clearRam).board = _
    split
    · exact (Mapper.board_reset _).trans h.mapper
    · exact ((Mapper.clearRam_spec _).1.trans (Mapper.board_reset _)).trans h.mapper
  cartridge := by
    show (if keepCartridgeRam then b.memory.mapper.reset
      else b.memory.mapper.reset.clearRam).ram.size = _
    split
    · rw [Mapper.ram_reset, h.cartridge]
    · rw [(Mapper.clearRam_spec _).2, Mapper.ram_reset, h.cartridge]
  used := by
    show (if keepCartridgeRam then b.memory.mapper.reset
      else b.memory.mapper.reset.clearRam).UsedIfThere
    split
    · exact h.used.reset
    · exact h.used.reset.clearRam
  model := h.model
  glasses := h.glasses
  timing := h.timing
  video := by
    have hsafe := Vdp.Safe.new b.vdp.model b.vdp.timing
    exact ⟨Array.size_replicate.trans h.video.vram, Array.size_replicate.trans h.video.cram,
      hsafe.address, hsafe.line, hsafe.lineCycles⟩
  sound := (Mixer.reset_blank b.sound).trans h.sound
  opposites := h.opposites
  quiet := ⟨h.quiet.video, (Mixer.reset_notes b.sound).trans h.quiet.sound⟩

/-- A frame leaves the parts of the board as they were. -/
theorem Fitted.closed (h : Fitted fresh b) (cheats : Cheats) (cycle : Nat) :
    Fitted fresh (Machine.closed cheats cycle b) :=
  { h with
    ram := (cheats.poke_size _).trans h.ram
    sound := (Mixer.endFrame_blank b.sound _).trans h.sound
    quiet := ⟨h.quiet.video, rfl⟩ }

theorem Fitted.runToBlank (n cycle : Nat) (z : Processor Mainboard) (h : Fitted fresh z.bus) :
    Fitted fresh (Machine.runToBlank n cycle z).2.2.bus := by
  refine Machine.runToBlank_invariant (Fitted.bus fresh) ?_ ?_ ?_ n cycle z h
  · intro b hb c
    exact { hb with quiet := ⟨hb.quiet.video, hb.quiet.sound⟩ }
  · intro b hb c
    have hhost := Vdp.advance_host b.vdp c
    exact { hb with
      model := (congrArg Prod.fst hhost).trans hb.model
      glasses := (congrArg (fun p => p.2.1) hhost).trans hb.glasses
      timing := (Vdp.advance_timing b.vdp c).trans hb.timing
      video := Vdp.Safe.stable.quiet (hb.video.advance c)
      quiet := ⟨rfl, hb.quiet.sound⟩ }
  · intro b hb
    exact { hb with quiet := ⟨hb.quiet.video, hb.quiet.sound⟩ }

/-- Other sound, of which a reset makes the same. -/
theorem Fitted.setSound (h : Fitted fresh b) {sound : Mixer} (hblank : sound.blank = b.sound.blank)
    (hnotes : sound.output.notes = b.sound.output.notes) :
    Fitted fresh { b with sound := sound } :=
  { h with
    sound := hblank.trans h.sound
    quiet := ⟨h.quiet.video, hnotes.trans h.quiet.sound⟩ }

/-- Other contents of the slots. -/
theorem Fitted.setMemory (h : Fitted fresh b) {memory : Memory}
    (hram : memory.ram = b.memory.ram) (hmapper : memory.mapper.board = b.memory.mapper.board)
    (hsize : memory.mapper.ram.size = b.memory.mapper.ram.size)
    (hused : memory.mapper.UsedIfThere) : Fitted fresh { b with memory := memory } :=
  { h with
    ram := (congrArg Array.size hram).trans h.ram
    mapper := hmapper.trans h.mapper
    cartridge := hsize.trans h.cartridge
    used := hused
    quiet := ⟨h.quiet.video, h.quiet.sound⟩ }

/-- Other controls. -/
theorem Fitted.setControls (h : Fitted fresh b) {controls : Controls}
    (hopposites : controls.allowOpposites = b.controls.allowOpposites) :
    Fitted fresh { b with controls := controls } :=
  { h with
    opposites := hopposites.trans h.opposites
    quiet := ⟨h.quiet.video, h.quiet.sound⟩ }

end Mainboard

/-! ### Machines -/

namespace Machine

open Mainboard (Fitted)

/-- What a host and its players do with a machine that was loaded: run frames that succeed, press
keys, aim the phaser, pause, put cheats in force, restore cartridge RAM, exchange the boot ROM and
reset. -/
inductive Played (m₁ : Machine) : Machine → Prop where
  | load : Played m₁ m₁
  | run {m : Machine} {output : Output} : Played m₁ m → ∀ (video : Option (Array UInt8))
      (audio : Option Nat), (m.run video audio).2 = .ok output → Played m₁ (m.run video audio).1
  | press {m : Machine} : Played m₁ m → ∀ (player : Nat) (k : Key), Played m₁ (m.press player k)
  | release {m : Machine} : Played m₁ m → ∀ (player : Nat) (k : Key),
      Played m₁ (m.release player k)
  | setPhaser {m : Machine} : Played m₁ m → ∀ p : Option Phaser, Played m₁ (m.setPhaser p)
  | pause {m : Machine} : Played m₁ m → ∀ paused : Bool, Played m₁ { m with paused := paused }
  | addCheat {m : Machine} : Played m₁ m → ∀ code : String, Played m₁ (m.addCheat code).1
  | clearCheats {m : Machine} : Played m₁ m → Played m₁ m.clearCheats
  | loadRam {m : Machine} : Played m₁ m → ∀ data : Array UInt8, Played m₁ (m.loadRam data).1
  | insertBootRom {m : Machine} : Played m₁ m → ∀ data : Array UInt8,
      Played m₁ (m.insertBootRom data).1
  | ejectBootRom {m : Machine} : Played m₁ m → Played m₁ m.ejectBootRom
  | reset {m : Machine} : Played m₁ m → Played m₁ m.reset
  | softReset {m : Machine} : Played m₁ m → Played m₁ m.softReset

/-- A machine of some settings with a cartridge in its slot, up to what has happened since. -/
structure Seated (c : Cartridge) (s : Settings) (m : Machine) : Prop where
  settings : m.settings = s
  strict : m.cpu.strict = s.strict
  board : Fitted (.new (some c) none s) m.board
  /-- The cheats know what they replaced. -/
  rom : ∃ rom, m.board.memory.cartridge = some { c with rom := rom } ∧ m.cheats.restore rom = c.rom
  notes : m.board.notes = #[]

variable {c : Cartridge} {s : Settings} {m : Machine}

theorem Seated.setSound (h : Seated c s m) {sound : Mixer}
    (hblank : sound.blank = m.board.sound.blank)
    (hnotes : sound.output.notes = m.board.sound.output.notes) :
    Seated c s (m.mapBoard fun b => { b with sound := sound }) :=
  { h with board := h.board.setSound hblank hnotes }

theorem Seated.takeSamples (h : Seated c s m) (audio : Option Nat) :
    Seated c s (m.takeSamples audio).2 := by
  cases audio with
  | none => exact h.setSound (Mixer.blank_congr rfl rfl (Sound.Stereo.blank_discard _) rfl) rfl
  | some n =>
      have hnotes := readInterleaved_notes m.board.sound.output n
      have hblank := m.board.sound.output.blank_readInterleaved n
      unfold Machine.takeSamples Mixer.readSamples
      dsimp only
      generalize m.board.sound.output.readInterleaved n = p at hnotes hblank ⊢
      exact h.setSound (Mixer.blank_congr rfl rfl hblank rfl) hnotes

theorem Seated.runField (h : Seated c s m) (hsteps : m.runField.2 = .ok ()) :
    Seated c s m.runField.1 := by
  obtain ⟨-, hclosed⟩ := runField_ok hsteps
  have hblank := h.board.runToBlank stepLimit m.frameCycle m.cpu
  have hmake := atBlank_make m
  have hstrict := runToBlank_strict stepLimit m.frameCycle m.cpu
  rw [hclosed]
  generalize (runToBlank stepLimit m.frameCycle m.cpu).2.1 = cycle
  have hboard := closeFrame_board { m with cpu := m.atBlank } cycle
  have hcpu := closeFrame_strict { m with cpu := m.atBlank } cycle
  obtain ⟨hsettings, hcheats, -⟩ := closeFrame_host { m with cpu := m.atBlank } cycle
  refine ⟨hsettings.trans h.settings, (hcpu.trans hstrict).trans h.strict, ?_, ?_, ?_⟩
  · rw [hboard]
    exact hblank.closed m.cheats cycle
  · rw [hboard, hcheats]
    have hcart := congrArg (fun p => p.2.2.2.1) hmake
    obtain ⟨rom, hrom, hrestore⟩ := h.rom
    exact ⟨rom, hcart.trans hrom, hrestore⟩
  · rw [hboard]
    rfl

theorem Seated.run (h : Seated c s m) {output : Output} {video : Option (Array UInt8)}
    {audio : Option Nat} (hok : (m.run video audio).2 = .ok output) :
    Seated c s (m.run video audio).1 := by
  have hfield := h.runField
  rw [run_deliver] at hok ⊢
  split
  · exact h
  · rename_i hcart
    rw [if_neg hcart] at hok
    split
    · exact h
    · rename_i hpaused
      rw [if_neg hpaused] at hok
      generalize m.runField = o at hok hfield ⊢
      obtain ⟨k, x | _⟩ := o
      · simp at hok
      · have hk := hfield rfl
        dsimp only at hok ⊢
        unfold deliver
        split
        · exact hk
        · exact hk.takeSamples audio

/-- Other controls. -/
theorem Seated.setControls (h : Seated c s m) {controls : Controls}
    (hopposites : controls.allowOpposites = m.board.controls.allowOpposites) :
    Seated c s (m.mapBoard fun b => { b with controls := controls }) :=
  { h with board := h.board.setControls hopposites }

theorem Seated.press (h : Seated c s m) (player : Nat) (k : Key) :
    Seated c s (m.press player k) := by
  have hpressed : Seated c s
      (m.mapBoard fun b => { b with controls := m.board.controls.press player k }) :=
    h.setControls rfl
  unfold Machine.press
  dsimp only
  split
  · exact { hpressed with }
  · exact hpressed

theorem Seated.setPhaser (h : Seated c s m) (p : Option Phaser) : Seated c s (m.setPhaser p) :=
  { h with
    board :=
      { h.board with
        video := h.board.video.setPhaserTarget (p.map Phaser.target)
        quiet := ⟨h.board.quiet.video, h.board.quiet.sound⟩ } }

/-- Another image, for cheats that know what they replaced in it. -/
theorem Seated.setRom (h : Seated c s m) {cart : Cartridge} {rom : Array UInt8} {cheats : Cheats}
    (hcart : m.board.memory.cartridge = some cart) (hrestore : cheats.restore rom = c.rom) :
    Seated c s { m.setRom cart rom with cheats := cheats } := by
  obtain ⟨old, hold, -⟩ := h.rom
  obtain rfl : cart = { c with rom := old } := Option.some.inj (hcart.symm.trans hold)
  exact { h with
    board := h.board.setMemory rfl rfl rfl h.board.used
    rom := ⟨rom, rfl, hrestore⟩ }

theorem Seated.addCheat (h : Seated c s m) (code : String) : Seated c s (m.addCheat code).1 := by
  obtain ⟨old, hold, hrestore⟩ := h.rom
  unfold Machine.addCheat
  rw [hold]
  dsimp only
  split
  · exact h
  · rename_i cheat cheats rom hadd
    have hset : Seated c s { m.setRom { c with rom := old } rom with cheats := cheats } :=
      h.setRom hold ((Cheats.restore_add hadd).trans hrestore)
    exact { hset with }

theorem Seated.clearCheats (h : Seated c s m) : Seated c s m.clearCheats := by
  obtain ⟨old, hold, hrestore⟩ := h.rom
  unfold Machine.clearCheats
  rw [hold]
  exact h.setRom hold hrestore

theorem Seated.loadRam (h : Seated c s m) (data : Array UInt8) :
    Seated c s (m.loadRam data).1 := by
  unfold Machine.loadRam
  split
  · exact h
  · dsimp only
    split
    · exact h
    · rename_i hsize
      have hsize : m.board.memory.mapper.ram.size = data.size := not_ne_iff.1 hsize
      obtain ⟨hboard, hram⟩ := m.board.memory.mapper.setRam_spec hsize
      exact { h with board := h.board.setMemory rfl hboard hram (h.board.used.setRam hsize) }

theorem Seated.ejectBootRom (h : Seated c s m) : Seated c s m.ejectBootRom :=
  { h with board := h.board.setMemory rfl rfl rfl h.board.used }

theorem Seated.restart (h : Seated c s m) (keepCartridgeRam keepRam bootRomEnabled : Bool) :
    Seated c s (m.restart (m.board.reset keepCartridgeRam keepRam bootRomEnabled)) :=
  { h with board := h.board.reset keepCartridgeRam keepRam bootRomEnabled _ }

theorem Seated.insertBootRom (h : Seated c s m) (data : Array UInt8) :
    Seated c s (m.insertBootRom data).1 := by
  unfold Machine.insertBootRom
  split
  · exact h
  · have hset : Seated c s ((m.mapBoard (·.setBootRom (some data))).log
        #[.bootRom data.size (Checksum.crc32 data)]) :=
      { h with board := h.board.setMemory rfl rfl rfl h.board.used }
    dsimp only
    split
    · exact hset.restart _ _ _
    · exact hset

/-- What is done with a machine leaves its cartridge in its slot. -/
theorem Played.seated {m₁ m : Machine} (h : Played m₁ m) (h₁ : Seated c s m₁) : Seated c s m := by
  induction h with
  | load => exact h₁
  | run _ video audio hok ih => exact ih.run hok
  | press _ player k ih => exact ih.press player k
  | release _ player k ih => exact ih.setControls rfl
  | setPhaser _ p ih => exact ih.setPhaser p
  | pause _ paused ih => exact { ih with }
  | addCheat _ code ih => exact ih.addCheat code
  | clearCheats _ ih => exact ih.clearCheats
  | loadRam _ data ih => exact ih.loadRam data
  | insertBootRom _ data ih => exact ih.insertBootRom data
  | ejectBootRom _ ih => exact ih.ejectBootRom
  | reset _ ih => exact ih.restart _ _ _
  | softReset _ ih => exact ih.restart _ _ _

/-! ### Loading again -/

/-- A machine that was just loaded, with what outlives another one's loss of power: the patched
image and the cheats, what players hold, what the host counts, and with a battery the cartridge's
RAM. -/
def keeping (fresh m : Machine) : Machine :=
  { fresh with
    cpu :=
      { fresh.cpu with
        audit := m.cpu.audit
        notes := m.cpu.notes
        bus :=
          { fresh.board with
            memory :=
              { fresh.board.memory with
                cartridge := m.board.memory.cartridge
                mapper :=
                  if m.batteryBacked then
                    fresh.board.memory.mapper.keepRam m.board.memory.mapper
                  else fresh.board.memory.mapper }
            vdp :=
              { fresh.board.vdp with
                phaserTarget := m.board.controls.phaser.map Phaser.target }
            controls :=
              { fresh.board.controls with
                pads := m.board.controls.pads, phaser := m.board.controls.phaser } } }
    cheats := m.cheats
    paused := m.paused
    frameCount := m.frameCount }

theorem insert_ok {m m₁ : Machine} {data : Array UInt8} {o : Overrides} {path : Option String}
    (h : m.insert data o path = (m₁, .ok ())) :
    ∃ c, ∀ n : Machine, n.settings = m.settings →
      ∃ notes, n.insert data o path =
        ((n.log notes).install (.new (some c) n.board.memory.bootRom n.settings), .ok ()) := by
  unfold Machine.insert at h
  dsimp only at h
  split at h
  · rename_i c hload
    refine ⟨c, ?_⟩
    intro n hn
    refine ⟨Cartridge.loadNotes data (.ok c), ?_⟩
    have hoverrides := congrArg Settings.overrides hn
    unfold Machine.insert
    rw [hoverrides, hload]
    rfl
  · simp at h

/-- Without a battery the RAM was not shown, or there is none. -/
theorem Seated.unused (h : Seated c s m) (hb : m.batteryBacked = false) :
    m.board.memory.mapper.ramUsed = false := by
  obtain ⟨rom, hrom, -⟩ := h.rom
  have hused := h.board.used
  unfold batteryBacked cartridge Mainboard.info at hb
  rw [hrom] at hb
  unfold Mapper.UsedIfThere at hused
  cases hu : m.board.memory.mapper.ramUsed with
  | false => rfl
  | true =>
      have hsize := hused hu
      simp [hu] at hb
      simp [hb] at hsize

theorem Seated.load (n : Machine) (notes : Notes) (c : Cartridge) :
    Seated c n.settings ((n.log notes).install
      (.new (some c) n.board.memory.bootRom n.settings)) where
  settings := rfl
  strict := rfl
  board := .new c n.board.memory.bootRom n.settings
  rom := ⟨c.rom, rfl, rfl⟩
  notes := rfl

/-- The reset of a machine with a cartridge in its slot. -/
theorem Seated.reset_eq (h : Seated c s m) {n : Machine} (hsettings : n.settings = s)
    (hboot : n.board.memory.bootRom = m.board.memory.bootRom) (notes : Notes) :
    m.reset = ((n.log notes).install
      (.new (some c) n.board.memory.bootRom n.settings)).keeping m := by
  subst hsettings
  have hboard := h.board.reset_eq m.batteryBacked
  have hmapper : (if m.batteryBacked then m.board.memory.mapper.reset
      else m.board.memory.mapper.reset.clearRam) =
      if m.batteryBacked then
        (Memory.mapperOf (some c)).keepRam m.board.memory.mapper
      else Memory.mapperOf (some c) := by
    split
    · exact Mapper.reset_eq h.board.mapper
    · rename_i hb
      rw [Bool.not_eq_true] at hb
      exact Mapper.clearRam_reset h.board.mapper h.board.cartridge (h.unused hb)
  have haim (target : Option (Int × Int)) :
      ({ (Mainboard.new (some c) m.board.memory.bootRom n.settings).vdp with
        phaserTarget := m.board.vdp.phaserTarget } : Vdp).setPhaserTarget target =
      { (Mainboard.new (some c) m.board.memory.bootRom n.settings).vdp with
        phaserTarget := target } := by
    cases target <;> rfl
  unfold Machine.reset Machine.restart
  rw [h.settings, hboard, hmapper, h.notes]
  dsimp only
  rw [haim, hboot]
  unfold Processor.reset
  rw [h.strict]
  rfl

/-- **A power cycle is as good as loading again.**  However a machine was played with since its
cartridge was inserted, a reset makes of it the machine that the same image gives with the same
settings and boot ROM, but for what `keeping` lists.  Its image differs only where cheats have
replaced a byte, and its cartridge RAM is empty unless there is a battery. -/
theorem reset_eq_insert {m₀ m₁ m n : Machine} {data : Array UInt8} {o : Overrides}
    {path : Option String} (hload : m₀.insert data o path = (m₁, .ok ())) (hm : Played m₁ m)
    (hsettings : n.settings = m₀.settings)
    (hboot : n.board.memory.bootRom = m.board.memory.bootRom) :
    ∃ fresh, n.insert data o path = (fresh, .ok ()) ∧ m.reset = fresh.keeping m ∧
      (∃ c rom, fresh.board.memory.cartridge = some c ∧
        m.board.memory.cartridge = some { c with rom := rom } ∧ rom.size = c.rom.size ∧
        ∀ i, i ∉ m.cheats.replaced.map Prod.fst → rom[i]? = c.rom[i]?) ∧
      m.reset.board.memory.mapper.ram =
        if m.batteryBacked then m.board.memory.mapper.ram
        else Array.replicate m.board.memory.mapper.ram.size 0 := by
  obtain ⟨c, hinsert⟩ := insert_ok hload
  obtain ⟨notes₁, hfirst⟩ := hinsert m₀ rfl
  obtain ⟨notes, hagain⟩ := hinsert n hsettings
  obtain rfl : _ = m₁ := congrArg Prod.fst (hfirst.symm.trans hload)
  have hseated := hm.seated (Seated.load m₀ notes₁ c)
  refine ⟨_, hagain, hseated.reset_eq hsettings hboot notes, ?_, ?_⟩
  · obtain ⟨rom, hrom, hrestore⟩ := hseated.rom
    refine ⟨c, rom, rfl, hrom, ?_, ?_⟩
    · rw [← hrestore, Cheats.size_restore]
    · intro i hi
      rw [← hrestore, Cheats.restore_getElem? _ _ hi]
  · show (if m.batteryBacked then m.board.memory.mapper.reset
      else m.board.memory.mapper.reset.clearRam).ram = _
    split
    · exact Mapper.ram_reset _
    · rw [Mapper.clearRam_ram, Mapper.ram_reset]

/-- A program that halts has run a frame, and the pause button is down. -/
theorem reset_eq_insert_of_halt : ∃ m₁ m fresh : Machine,
    (new {}).insert haltingImage
      { console := .master, zone := .exportNtsc, board := .romOnly } none = (m₁, .ok ()) ∧
    m = (m₁.run none none).1.press 0 .start ∧ Played m₁ m ∧
    (new {}).insert haltingImage
      { console := .master, zone := .exportNtsc, board := .romOnly } none = (fresh, .ok ()) ∧
    m.reset = fresh.keeping m := by
  obtain ⟨c, m₁, hm₁, hrom, hboard, hbus, hregs, -⟩ := insert_haltingImage
  have hwaits := haltingImage_waits hrom hboard hregs {} hbus
  have hsync := Synchronous.load hm₁
  obtain ⟨hsteps, -, -⟩ := Waits.field hwaits (hsync.clock ▸ hsync.rest) hsync.line
  have hrun : ∃ output, (m₁.run none none).2 = .ok output := by
    rw [run_deliver, Option.isNone_eq_false_iff.2 hsync.cartridge, hsync.paused]
    generalize m₁.runField = p at hsteps ⊢
    obtain ⟨k, r⟩ := p
    obtain rfl : r = .ok () := hsteps
    exact ⟨_, rfl⟩
  obtain ⟨output, hrun⟩ := hrun
  have hplayed : Played m₁ ((m₁.run none none).1.press 0 .start) :=
    .press (.run .load none none hrun) 0 .start
  have hboot : (new {}).board.memory.bootRom =
      ((m₁.run none none).1.press 0 .start).board.memory.bootRom := by
    have hmake := (run_make hsync.cartridge hsync.paused hsteps none none).1
    have hnone := congrArg (fun p => p.2.2.2.2) hmake
    rw [press_memory]
    refine Eq.trans ?_ hnone.symm
    show none = m₁.cpu.bus.memory.bootRom
    rw [hbus]
    rfl
  obtain ⟨fresh, hfresh, heq, -⟩ := reset_eq_insert hm₁ hplayed (n := new {}) rfl hboot
  exact ⟨m₁, _, fresh, hm₁, rfl, hplayed, hfresh, heq⟩

end Machine

end MasterSystem
