import MasterSystem.Machine.Run
import MasterSystem.Proofs.Z80.Simulation

/-! # What a program can do to the devices

A processor reaches the devices of the board only through the bus.  A property of a device that the
device's own ports preserve is therefore an invariant of the bus, and every step of a program
preserves it.

* **Video.**  `Vdp.Stable` collects the accesses to the video processor (`Vdp.Stable.bus`).
* **Sound.**  `Mixer.Stable` does so for the sound chips, whose ports carry the clock
  (`Mixer.Stable.output`).
* **Make.**  What a board is, its console and what is plugged into it, never changes (`make_bus`).

Time is not an operation of the bus: `follow` moves the beam after the step.  What both preserve, a
frame preserves (`runToBlank_invariant`). -/

namespace MasterSystem

open Video (Vdp)
open Sound (Mixer)

/-! ### Queues of notes -/

/-- The video processor with its notes taken. -/
def Video.Vdp.quiet (v : Vdp) : Vdp := { v with notes := #[] }

/-- The sound chips with their notes taken. -/
def Sound.Mixer.quiet (m : Mixer) : Mixer := { m with output := { m.output with notes := #[] } }

namespace Mainboard

theorem collectVideo_vdp (b : Mainboard) : b.collectVideo.vdp = b.vdp.quiet := by
  unfold collectVideo
  split
  · rename_i h
    rw [Vdp.quiet, ← Array.isEmpty_iff.1 h]
  · rfl

theorem collectVideo_eq (b : Mainboard) :
    b.collectVideo = { b with notes := b.collectVideo.notes, vdp := b.vdp.quiet } := by
  rw [← collectVideo_vdp]
  unfold collectVideo
  split <;> rfl

theorem collectSound_eq (b : Mainboard) :
    b.collectSound = { b with notes := b.collectSound.notes, sound := b.sound.quiet } := by
  unfold collectSound
  split
  · rename_i h
    rw [Mixer.quiet, ← Array.isEmpty_iff.1 h]
  · rfl

end Mainboard

namespace Machine

theorem collect_eq (z : Z80.Processor Mainboard) :
    collect z = { z with notes := (collect z).notes, bus := { z.bus with notes := #[] } } := by
  unfold collect
  split
  · rename_i h
    rw [← Array.isEmpty_iff.1 h]
  · rfl

theorem collect_regs (z : Z80.Processor Mainboard) : (collect z).regs = z.regs := by
  rw [collect_eq]

theorem collect_strict (z : Z80.Processor Mainboard) : (collect z).strict = z.strict := by
  rw [collect_eq]

theorem collect_bus (z : Z80.Processor Mainboard) :
    (collect z).bus = { z.bus with notes := #[] } := by
  rw [collect_eq]

/-! ### Time -/

theorem follow_blank (z : Z80.Processor Mainboard) (cycles : Nat) :
    (follow z cycles).1 = (z.bus.vdp.advance cycles).1 := rfl

/-- The board after the beam moved: only the video processor has changed. -/
theorem follow_bus (z : Z80.Processor Mainboard) (cycles : Nat) :
    (follow z cycles).2.bus =
      { z.bus with vdp := (z.bus.vdp.advance cycles).2.quiet, notes := #[] } := by
  unfold follow
  dsimp only
  rw [collect_bus]
  unfold Mainboard.advance
  dsimp only
  rw [Mainboard.collectVideo_eq]
  rfl

theorem follow_regs (z : Z80.Processor Mainboard) (cycles : Nat) :
    (follow z cycles).2.regs = { z.regs with irqLine := (follow z cycles).2.bus.vdp.irq } := by
  rw [follow_bus]
  unfold follow
  dsimp only
  rw [collect_regs]
  unfold Mainboard.advance
  dsimp only
  rw [Mainboard.collectVideo_eq]
  rfl

theorem follow_strict (z : Z80.Processor Mainboard) (cycles : Nat) :
    (follow z cycles).2.strict = z.strict := by
  unfold follow
  dsimp only
  rw [collect_strict]
  rfl

end Machine

/-! ### The video processor -/

/-- A property of the video processor that its ports and the emptying of its notes preserve. -/
structure Video.Vdp.Stable (I : Vdp → Prop) : Prop where
  readData : ∀ {v}, I v → I v.readData.2
  writeData : ∀ {v}, I v → ∀ b, I (v.writeData b)
  readStatus : ∀ {v}, I v → I v.readStatus.2
  writeControl : ∀ {v}, I v → ∀ b, I (v.writeControl b)
  latchHCounter : ∀ {v}, I v → I v.latchHCounter
  setShutter : ∀ {v}, I v → ∀ b, I (v.setShutter b)
  quiet : ∀ {v}, I v → I v.quiet

namespace Video.Vdp.Stable

variable {I : Vdp → Prop}

theorem write (hI : Vdp.Stable I) {b : Mainboard} (h : I b.vdp) (a : UInt16) (v : UInt8) :
    I (b.write a v).vdp := by
  unfold Mainboard.write
  dsimp only
  split
  · exact hI.setShutter h v
  · exact h

theorem readPort (hI : Vdp.Stable I) {b : Mainboard} (h : I b.vdp) (port : UInt8) :
    I (b.readPort port).2.vdp := by
  unfold Mainboard.readPort
  dsimp only
  repeat' split
  all_goals first | exact h | exact hI.readData h | exact hI.readStatus h

theorem input (hI : Vdp.Stable I) {b : Mainboard} (h : I b.vdp) (port : UInt8) :
    I (b.input port).2.vdp := by
  unfold Mainboard.input
  split
  · exact h
  · split
    · exact h
    · exact hI.readPort h port

theorem writePins (hI : Vdp.Stable I) {b : Mainboard} (h : I b.vdp) (v : UInt8) :
    I (b.writePins v).vdp := by
  unfold Mainboard.writePins
  dsimp only
  split
  · exact hI.latchHCounter h
  · exact h

theorem writePort (hI : Vdp.Stable I) {b : Mainboard} (h : I b.vdp) (port v : UInt8) :
    I (b.writePort port v).vdp := by
  unfold Mainboard.writePort
  dsimp only
  split
  · unfold Mainboard.writeMemoryControl
    dsimp only
    split <;> exact h
  · split
    · exact hI.writePins h v
    · split
      · unfold Mainboard.writePsg
        rw [Mainboard.collectSound_eq]
        exact h
      · split
        · exact hI.writeData h v
        · split
          · rw [Mainboard.collectVideo_vdp]
            exact hI.quiet (hI.writeControl h v)
          · exact h

theorem output (hI : Vdp.Stable I) {b : Mainboard} (h : I b.vdp) (port v : UInt8) :
    I (b.output port v).vdp := by
  unfold Mainboard.output
  split
  · split
    · unfold Mainboard.writeStereo
      rw [Mainboard.collectSound_eq]
      exact h
    · exact h
  · split
    · unfold Mainboard.writeFmPort
      rw [Mainboard.collectSound_eq]
      exact h
    · exact hI.writePort h port v

/-- What the ports of the video processor preserve, every operation of the bus preserves. -/
theorem bus (hI : Vdp.Stable I) : Z80.Bus.Invariant fun b : Mainboard => I b.vdp where
  write h a v := hI.write h a v
  input h p := hI.input h (Word.low p)
  output h p v := hI.output h (Word.low p) v
  vector h := h

end Video.Vdp.Stable

/-! ### The sound chips -/

/-- A property of the sound chips that their ports and the emptying of their notes preserve, when
the clock of the frame reads `time`. -/
structure Sound.Mixer.Stable (time : Nat) (I : Mixer → Prop) : Prop where
  writePsg : ∀ {m}, I m → ∀ v, I (m.writePsg time v)
  writeStereo : ∀ {m}, I m → ∀ v, I (m.writeStereo time v)
  writeFm : ∀ {m}, I m → ∀ port v, I (m.writeFm time port v)
  writeControl : ∀ {m}, I m → ∀ v, I (m.writeControl time v)
  quiet : ∀ {m}, I m → I m.quiet

namespace Sound.Mixer.Stable

variable {time : Nat} {I : Mixer → Prop}

theorem collect (hI : Mixer.Stable time I) {b : Mainboard} (h : I b.sound) :
    I b.collectSound.sound := by
  rw [Mainboard.collectSound_eq]
  exact hI.quiet h

theorem writePort (hI : Mixer.Stable time I) {b : Mainboard} (ht : b.cycle = time) (h : I b.sound)
    (port v : UInt8) : I (b.writePort port v).sound := by
  unfold Mainboard.writePort
  dsimp only
  split
  · unfold Mainboard.writeMemoryControl
    dsimp only
    split <;> exact h
  · split
    · exact h
    · split
      · refine hI.collect ?_
        rw [ht]
        exact hI.writePsg h v
      · split
        · exact h
        · split
          · rw [Mainboard.collectVideo_eq]
            exact h
          · exact h

theorem output (hI : Mixer.Stable time I) {b : Mainboard} (ht : b.cycle = time) (h : I b.sound)
    (port v : UInt8) : I (b.output port v).sound := by
  unfold Mainboard.output
  split
  · split
    · refine hI.collect ?_
      rw [ht]
      exact hI.writeStereo h v
    · exact h
  · split
    · refine hI.collect ?_
      dsimp only
      rw [ht]
      split
      · exact hI.writeControl h v
      · exact hI.writeFm h port v
    · exact hI.writePort ht h port v

end Sound.Mixer.Stable

/-! ### What no operation changes -/

/-- What a board is, as against what it holds. -/
def Mainboard.make (b : Mainboard) :
    Console × Bool × Bool × Option Cartridge × Option (Array UInt8) :=
  (b.console, b.japan, b.pal, b.memory.cartridge, b.memory.bootRom)

namespace Mainboard

theorem make_write (b : Mainboard) (a : UInt16) (v : UInt8) : (b.write a v).make = b.make := by
  unfold write Memory.write
  dsimp only
  split <;> split <;> rfl

theorem make_input (b : Mainboard) (port : UInt8) : (b.input port).2.make = b.make := by
  unfold input readPort
  dsimp only
  repeat' split
  all_goals rfl

theorem make_sound (b : Mainboard) (m : Mixer) :
    ({ b with sound := m } : Mainboard).collectSound.make = b.make := by
  rw [collectSound_eq]
  unfold make
  rfl

theorem make_writePort (b : Mainboard) (port v : UInt8) : (b.writePort port v).make = b.make := by
  unfold writePort
  dsimp only
  split
  · unfold writeMemoryControl
    dsimp only
    split <;> rfl
  · split
    · rfl
    · split
      · exact make_sound b _
      · split
        · rfl
        · split
          · rw [collectVideo_eq]
            rfl
          · rfl

theorem make_output (b : Mainboard) (port v : UInt8) : (b.output port v).make = b.make := by
  unfold output
  split
  · split
    · exact make_sound b _
    · rfl
  · split
    · exact make_sound b _
    · exact make_writePort b port v

/-- No operation of the bus changes what a board is. -/
theorem make_bus (b : Mainboard) : Z80.Bus.Invariant fun c : Mainboard => c.make = b.make where
  write h a v := (make_write _ a v).trans h
  input h p := (make_input _ (Word.low p)).trans h
  output h p v := (make_output _ (Word.low p) v).trans h
  vector h := h

end Mainboard

/-! ### What an access leaves alone -/

namespace Mainboard

variable (b : Mainboard)

theorem input_rest (port : UInt8) :
    (b.input port).2.memory = b.memory ∧ (b.input port).2.sound = b.sound ∧
      (b.input port).2.controls = b.controls := by
  unfold input readPort
  dsimp only
  repeat' split
  all_goals exact ⟨rfl, rfl, rfl⟩

theorem write_rest (a : UInt16) (v : UInt8) :
    (b.write a v).memory = b.memory.write a v ∧ (b.write a v).sound = b.sound ∧
      (b.write a v).controls = b.controls := by
  unfold write
  dsimp only
  split <;> exact ⟨rfl, rfl, rfl⟩

theorem collectSound_rest :
    b.collectSound.memory = b.memory ∧ b.collectSound.controls = b.controls := by
  rw [collectSound_eq]
  exact ⟨rfl, rfl⟩

theorem writePort_rest (port v : UInt8) :
    ((b.writePort port v).memory = b.memory ∨
      (b.writePort port v).memory = b.memory.writeControl v) ∧
    ((b.writePort port v).controls = b.controls ∨
      (b.writePort port v).controls = b.controls.writeIoControl v) := by
  unfold writePort
  dsimp only
  split
  · unfold writeMemoryControl
    dsimp only
    split <;> exact ⟨.inr rfl, .inl rfl⟩
  · split
    · exact ⟨.inl rfl, .inr rfl⟩
    · split
      · exact (collectSound_rest _).imp .inl .inl
      · split
        · exact ⟨.inl rfl, .inl rfl⟩
        · split
          · rw [collectVideo_eq]
            exact ⟨.inl rfl, .inl rfl⟩
          · exact ⟨.inl rfl, .inl rfl⟩

/-- A port takes a write to the memory control or to the pins of the controls, or to neither. -/
theorem output_rest (port v : UInt8) :
    ((b.output port v).memory = b.memory ∨
      (b.output port v).memory = b.memory.writeControl v) ∧
    ((b.output port v).controls = b.controls ∨
      (b.output port v).controls = b.controls.writeIoControl v) := by
  unfold output
  split
  · split
    · exact (collectSound_rest _).imp .inl .inl
    · exact ⟨.inl rfl, .inl rfl⟩
  · split
    · exact (collectSound_rest _).imp .inl .inl
    · exact writePort_rest b port v

end Mainboard

/-! ### Whole frames -/

/-- What every operation of the bus, the moving beam and the clock of the frame preserve, a frame
preserves. -/
theorem Machine.runToBlank_invariant {I : Mainboard → Prop} (hbus : Z80.Bus.Invariant I)
    (hcycle : ∀ {b}, I b → ∀ c, I { b with cycle := c })
    (htime : ∀ {b}, I b → ∀ c, I { b with vdp := (b.vdp.advance c).2.quiet })
    (hquiet : ∀ {b}, I b → I { b with notes := #[] }) :
    ∀ (n cycle : Nat) (z : Z80.Processor Mainboard), I z.bus →
      I (runToBlank n cycle z).2.2.bus
  | 0, _, _, h => h
  | n + 1, cycle, z, h => by
      have hstep := Z80.Processor.step_invariant hbus
        (z := { z with bus := { z.bus with cycle := cycle } }) (hcycle h cycle)
      unfold runToBlank
      generalize Z80.Processor.step { z with bus := { z.bus with cycle := cycle } } = o at hstep ⊢
      obtain ⟨w, x | c⟩ := o
      · dsimp only
        rw [collect_bus]
        exact hquiet hstep
      · have hf := hquiet (htime hstep c)
        rw [← follow_bus] at hf
        dsimp only
        generalize follow w c = p at hf ⊢
        obtain ⟨_ | _, u⟩ := p
        · exact runToBlank_invariant hbus hcycle htime hquiet n _ u hf
        · exact hf

end MasterSystem
