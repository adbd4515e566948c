import MasterSystem.Proofs.Machine.Waiting
import MasterSystem.Proofs.Snapshot.PowerOn
import MasterSystem.Proofs.Sound.Safety
import MasterSystem.Proofs.Video.Safety

/-! # Machines that are safe to run

The board as a whole has the representation that its devices index by, and keeps it whatever is done
to it.  A restored machine has it just when the state did, and that is not checked.

* **Boards.**  `Mainboard.Safe` collects the devices; `Access` are the operations of a board, and
  none of them breaks it (`Safe.access`), so that a whole field does not (`runField_safe`).
* **States.**  Restoring checks that a state fits the machine (`Mainboard.Admits`), which leaves out
  what `State.Safe` says about its numbers and sizes (`restore_safe`). -/

namespace MasterSystem

open Video (Vdp)
open Sound (Mixer Resampler FmChip)
open Snapshot (State)

/-! ### Memory -/

namespace Mapper

/-- The cell of the cartridge's RAM at an address, on the boards that have any. -/
def cell? : Mapper → UInt16 → Option Nat
  | sega m, address => m.ramCell? address
  | codemasters m, address => m.ramCell? address
  | sg1000 m, address => m.ramCell? address
  | _, _ => none

theorem size_pos {ram : Array UInt8} (h : ¬ ram.isEmpty) : 0 < ram.size := by
  rw [Array.isEmpty_iff_size_eq_zero] at h
  omega

/-- A board never addresses RAM that it does not have, whatever its registers hold. -/
theorem cell_lt {m : Mapper} {address : UInt16} {i : Nat} (h : m.cell? address = some i) :
    i < m.ram.size := by
  cases m with
  | sega m =>
      simp only [cell?, Sega.ramCell?] at h
      split at h
      · simp at h
      · rename_i hshown
        obtain rfl := Option.some.inj h
        rw [Bool.or_eq_true, not_or] at hshown
        exact Nat.mod_lt _ (size_pos hshown.2)
  | codemasters m =>
      simp only [cell?, Codemasters.ramCell?] at h
      split at h
      · rename_i hshown
        obtain rfl := Option.some.inj h
        rw [Bool.and_eq_true, Bool.not_eq_true'] at hshown
        exact Nat.mod_lt _ (size_pos (by simp [hshown.2]))
      · simp at h
  | sg1000 m =>
      simp only [cell?, Expansion.ramCell?] at h
      split at h
      · rename_i hshown
        obtain rfl := Option.some.inj h
        rw [Bool.and_eq_true, Bool.not_eq_true'] at hshown
        exact Nat.mod_lt _ (size_pos (by simp [hshown.2]))
      · simp at h
  | romOnly | korean _ | msx _ | janggun _ => simp [cell?] at h

end Mapper

theorem Memory.ram_write_size (m : Memory) (address : UInt16) (v : UInt8) :
    (m.write address v).ram.size = m.ram.size := by
  unfold write
  dsimp only
  split
  · exact Array.size_setIfInBounds
  · rfl

theorem Cheats.poke_size (e : Cheats) (ram : Array UInt8) : (e.poke ram).size = ram.size := by
  unfold poke
  rw [← Array.foldl_toList]
  induction e.active.toList generalizing ram with
  | nil => rfl
  | cons c cs ih =>
      rw [List.foldl_cons, ih]
      unfold pokeOne
      split
      · exact Array.size_setIfInBounds
      · rfl

/-! ### Boards -/

namespace Mainboard

/-- The devices of the board are as they have to be. -/
structure Safe (b : Mainboard) : Prop where
  ram : 0 < b.memory.ram.size
  vdp : b.vdp.Safe
  framed : b.vdp.Framed
  sound : b.sound.Safe

/-- Every index that a device of the board computes is within its array. -/
structure InRange (b : Mainboard) : Prop where
  ram : ∀ address : UInt16, address.toNat % b.memory.ram.size < b.memory.ram.size
  cartridge : ∀ address, ∀ i ∈ b.memory.mapper.cell? address, i < b.memory.mapper.ram.size
  vdp : b.vdp.InRange
  left : b.sound.output.left.InRange
  right : b.sound.output.right.InRange
  fm : ∀ f ∈ b.sound.fm, f.InRange

variable {b : Mainboard}

theorem Safe.inRange (h : b.Safe) : b.InRange where
  ram _ := Nat.mod_lt _ h.ram
  cartridge _ _ hi := Mapper.cell_lt hi
  vdp := h.vdp.inRange h.framed
  left := h.sound.output.left.inRange
  right := h.sound.output.right.inRange
  fm f hf := (h.sound.fm f hf).inRange

/-- What can happen to a board while a machine runs. -/
inductive Access where
  | write (address : UInt16) (v : UInt8)
  | input (port : UInt8)
  | output (port v : UInt8)
  | advance (cycles : Nat)
  /-- The clock of the frame at which the next instruction starts. -/
  | clock (cycle : Nat)
  | endFrame (clocks : Nat)
  | poke (cheats : Cheats)
  | readSamples (length : Nat)
  | discard
  | setControls (controls : Controls)
  | setPhaserTarget (target : Option (Int × Int))
  | clearNotes

/-- The board after an access. -/
def access (b : Mainboard) : Access → Mainboard
  | .write address v => b.write address v
  | .input port => (b.input port).2
  | .output port v => b.output port v
  | .advance cycles => (b.advance cycles).2
  | .clock cycle => { b with cycle := cycle }
  | .endFrame clocks => b.endFrame clocks
  | .poke cheats => { b with memory := { b.memory with ram := cheats.poke b.memory.ram } }
  | .readSamples length => { b with sound := (b.sound.readSamples length).2 }
  | .discard => { b with sound := b.sound.discard }
  | .setControls controls => { b with controls := controls }
  | .setPhaserTarget target => { b with vdp := b.vdp.setPhaserTarget target }
  | .clearNotes => { b with notes := #[] }

theorem mixer_stable (time : Nat) : Mixer.Stable time Mixer.Safe where
  writePsg h v := h.writePsg time v
  writeStereo h v := h.writeStereo time v
  writeFm h port v := h.writeFm time port v
  writeControl h v := h.writeControl time v
  quiet h := ⟨⟨h.output.left, h.output.right⟩, h.fm⟩

theorem output_ram (b : Mainboard) (port v : UInt8) :
    (b.output port v).memory.ram = b.memory.ram := by
  rcases (b.output_rest port v).1 with h | h <;> rw [h]
  rfl

/-- Whatever happens to a board that is as it has to be, it stays so. -/
theorem Safe.access (h : b.Safe) (a : Access) : (b.access a).Safe := by
  obtain ⟨hram, hvdp, hframed, hsound⟩ := h
  cases a with
  | write a v =>
      obtain ⟨hmemory, hmixer, -⟩ := b.write_rest a v
      refine ⟨?_, Vdp.Safe.stable.write hvdp a v, Vdp.Framed.stable.write hframed a v, ?_⟩
      · show 0 < (b.write a v).memory.ram.size
        rwa [hmemory, Memory.ram_write_size]
      · show (b.write a v).sound.Safe
        rwa [hmixer]
  | input port =>
      obtain ⟨hmemory, hmixer, -⟩ := b.input_rest port
      refine ⟨?_, Vdp.Safe.stable.input hvdp port, Vdp.Framed.stable.input hframed port, ?_⟩
      · show 0 < (b.input port).2.memory.ram.size
        rwa [hmemory]
      · show (b.input port).2.sound.Safe
        rwa [hmixer]
  | output port v =>
      refine ⟨?_, Vdp.Safe.stable.output hvdp port v, Vdp.Framed.stable.output hframed port v,
        (mixer_stable b.cycle).output rfl hsound port v⟩
      show 0 < (b.output port v).memory.ram.size
      rwa [output_ram]
  | advance cycles =>
      unfold Mainboard.access Mainboard.advance
      dsimp only
      rw [collectVideo_eq]
      exact ⟨hram, Vdp.Safe.stable.quiet (hvdp.advance cycles),
        Vdp.Framed.stable.quiet (hframed.advance cycles), hsound⟩
  | clock cycle => exact ⟨hram, hvdp, hframed, hsound⟩
  | endFrame clocks =>
      unfold Mainboard.access Mainboard.endFrame
      dsimp only
      rw [collectSound_eq]
      exact ⟨hram, hvdp, hframed, (mixer_stable 0).quiet (hsound.endFrame clocks)⟩
  | poke cheats => exact ⟨(cheats.poke_size _).symm ▸ hram, hvdp, hframed, hsound⟩
  | readSamples length => exact ⟨hram, hvdp, hframed, hsound.readSamples length⟩
  | discard => exact ⟨hram, hvdp, hframed, hsound.discard⟩
  | setControls c => exact ⟨hram, hvdp, hframed, hsound⟩
  | setPhaserTarget target =>
      exact ⟨hram, hvdp.setPhaserTarget target, hframed.setPhaserTarget target, hsound⟩
  | clearNotes => exact ⟨hram, hvdp, hframed, hsound⟩

theorem Safe.accesses (h : b.Safe) (as : List Access) : (as.foldl Mainboard.access b).Safe := by
  induction as generalizing b with
  | nil => exact h
  | cons a as ih => exact ih (h.access a)

/-- Nothing that the processor does breaks the board. -/
theorem Safe.bus : Z80.Bus.Invariant Safe where
  write h a v := h.access (.write a v)
  input h p := h.access (.input (Word.low p))
  output h p v := h.access (.output (Word.low p) v)
  vector h := h

end Mainboard

/-- A field leaves the board as it has to be. -/
theorem Machine.runField_safe {m : Machine} (h : m.board.Safe) : m.runField.1.board.Safe := by
  have hrun := runToBlank_invariant Mainboard.Safe.bus
    (fun h c => h.access (.clock c))
    (fun {b} h c => ⟨h.ram, Vdp.Safe.stable.quiet (h.vdp.advance c),
      Vdp.Framed.stable.quiet (h.framed.advance c), h.sound⟩)
    (fun h => h.access .clearNotes) stepLimit m.frameCycle m.cpu h
  unfold runField
  generalize runToBlank stepLimit m.frameCycle m.cpu = o at hrun ⊢
  obtain ⟨x | x, cycle, z⟩ := o
  · have hclosed := ((hrun.access (.endFrame (cycle - z.bus.vdp.lineCycles))).access
      .clearNotes).access (.poke m.cheats)
    unfold closeFrame board
    dsimp only
    rw [collect_bus]
    exact hclosed
  · exact hrun

/-! ### States -/

/-- The numbers and sizes of a state that restoring does not look at. -/
structure Snapshot.State.Safe (s : State) : Prop where
  vdp : s.vdp.Safe
  sound : s.sound.Safe

/-- What restoring asks of a state for a board. -/
structure Mainboard.Admits (b : Mainboard) (s : State) : Prop where
  ram : s.ram.size = b.memory.ram.size
  board : s.mapper.board = b.memory.mapper.board
  cartridge : s.mapper.ram.size = b.memory.mapper.ram.size
  model : s.vdp.model = b.vdp.model
  fm : s.sound.fmFitted = b.sound.fmFitted
  display : s.vdp.displayConsistent = true

namespace Machine

theorem corruption?_eq_none {b : Mainboard} {s : State} :
    corruption? b s = none ↔ b.Admits s := by
  unfold corruption?
  constructor
  · intro h
    repeat' split at h
    case isFalse.isFalse.isFalse.isFalse hram hmapper hchips hdisplay =>
      rw [not_or, Decidable.not_not, Decidable.not_not] at hmapper hchips
      exact ⟨Decidable.not_not.1 hram, hmapper.1, hmapper.2, hchips.1, hchips.2,
        by simpa using hdisplay⟩
    all_goals simp at h
  · rintro ⟨hram, hboard, hcartridge, hmodel, hfm, hdisplay⟩
    rw [if_neg (by simp [hram]), if_neg (by simp [hboard, hcartridge]),
      if_neg (by simp [hmodel, hfm]), if_neg (by simp [hdisplay])]

/-- A state is restored exactly when its bytes are those of a state that fits the board. -/
theorem restore_ok_iff {m : Machine} {bytes : Array UInt8} :
    (m.restore bytes).2 = .ok () ↔ ∃ info s, m.cartridge = some info ∧
      Snapshot.decode info.crc bytes.toList = .ok s ∧ m.board.Admits s := by
  unfold restore
  constructor
  · intro h
    repeat' split at h
    case h_2 info hinfo _ s hs _ hnone =>
      exact ⟨info, s, hinfo, hs, corruption?_eq_none.1 hnone⟩
    all_goals simp at h
  · rintro ⟨info, s, hinfo, hs, hadmits⟩
    rw [hinfo]
    dsimp only
    rw [hs]
    dsimp only
    rw [corruption?_eq_none.2 hadmits]

theorem restore_board {m : Machine} {bytes : Array UInt8} {info : Info} {s : State}
    (hinfo : m.cartridge = some info) (hs : Snapshot.decode info.crc bytes.toList = .ok s)
    (h : m.board.Admits s) : (m.restore bytes).1.board = restoreBoard m.board s m.settings := by
  unfold restore
  rw [hinfo]
  dsimp only
  rw [hs]
  dsimp only
  rw [corruption?_eq_none.2 h]
  rfl

/-- A restored board is as it has to be just when the state is. -/
theorem restoreBoard_safe {b : Mainboard} {s : State} (settings : Settings) (h : b.Admits s)
    (hscratch : s.vdp.scratch = .new Video.screenWidth Video.maxHeight) :
    (restoreBoard b s settings).Safe ↔ 0 < b.memory.ram.size ∧ s.Safe := by
  constructor
  · rintro ⟨hram, hvdp, -, hsound⟩
    refine ⟨h.ram ▸ hram, ?_, hsound⟩
    exact hvdp.congr rfl rfl rfl rfl hvdp.address
  · rintro ⟨hram, hvdp, hsound⟩
    have hframed : s.vdp.Framed := by
      refine ⟨?_, h.display⟩
      rw [hscratch]
      exact Array.size_replicate
    refine ⟨?_, hvdp.congr rfl rfl rfl rfl hvdp.address, hframed.congr rfl rfl, hsound⟩
    show 0 < s.ram.size
    rwa [h.ram]

/-- **What a restored machine can rely on.**  A state that is restored fits the board, in what
restoring checks; beyond that the board is as its devices need it just when the state is.  Then no
access to it, whatever accesses came before, leaves the arrays. -/
theorem restore_safe {m : Machine} {bytes : Array UInt8} (h : (m.restore bytes).2 = .ok ()) :
    ∃ info s, m.cartridge = some info ∧ Snapshot.decode info.crc bytes.toList = .ok s ∧
      m.board.Admits s ∧ (m.restore bytes).1.board = restoreBoard m.board s m.settings ∧
      ((m.restore bytes).1.board.Safe ↔ 0 < m.board.memory.ram.size ∧ s.Safe) ∧
      (0 < m.board.memory.ram.size → s.Safe → ∀ as : List Mainboard.Access,
        (as.foldl Mainboard.access (m.restore bytes).1.board).InRange) := by
  obtain ⟨info, s, hinfo, hs, hadmits⟩ := restore_ok_iff.1 h
  have hboard := restore_board hinfo hs hadmits
  have hsafe := restoreBoard_safe m.settings hadmits (Snapshot.decode_scratch hs)
  rw [← hboard] at hsafe
  refine ⟨info, s, hinfo, hs, hadmits, hboard, hsafe, ?_⟩
  intro hram hstate as
  exact ((hsafe.2 ⟨hram, hstate⟩).accesses as).inRange

/-- The state of a machine that was loaded with the program of nothing but `HALT`. -/
theorem fits_haltingImage : ∃ (c : Cartridge) (m₀ : Machine),
    (new {}).insert haltingImage
      { console := .master, zone := .exportNtsc, board := .romOnly } none = (m₀, .ok ()) ∧
    m₀.board = .new (some c) none {} ∧ m₀.settings = {} ∧ m₀.state.Fits := by
  obtain ⟨c, m₀, hm₀, -, hboard, hbus, -, hsettings, hcount, hcycle⟩ := insert_haltingImage
  refine ⟨c, m₀, hm₀, hbus, hsettings, fits_of_power hbus (by decide) ?_ hcount hcycle⟩
  unfold Memory.mapperOf
  dsimp only
  rw [hboard]
  exact Snapshot.Codec.range_pos 8

/-- A state whose beam is below the last line is restored, and the board is not as it has to be. -/
theorem restore_safe_of_line : ∃ (m₀ : Machine) (bytes : Array UInt8),
    (new {}).insert haltingImage
      { console := .master, zone := .exportNtsc, board := .romOnly } none = (m₀, .ok ()) ∧
    (m₀.restore bytes).2 = .ok () ∧ ¬ (m₀.restore bytes).1.board.Safe := by
  obtain ⟨c, m₀, hm₀, hboard, -, hfits⟩ := fits_haltingImage
  have hinfo : m₀.cartridge = some c.info := by
    unfold cartridge
    rw [hboard]
    rfl
  let s : State := { m₀.state with vdp := { m₀.board.vdp with line := 313 } }
  have hs : s.Fits :=
    { hfits with vdp := { hfits.vdp with line := (by decide : 313 < Snapshot.Codec.range 4) } }
  have hdecode := Snapshot.decode_encode c.info.crc hs
  have hadmits : m₀.board.Admits s.saved := by
    refine ⟨rfl, rfl, rfl, rfl, rfl, ?_⟩
    show m₀.board.vdp.displayConsistent = true
    rw [hboard]
    exact (Vdp.Framed.new _ _).display
  let bytes := (Snapshot.encode c.info.crc s).toArray
  have hok : (m₀.restore bytes).2 = .ok () := restore_ok_iff.2 ⟨_, _, hinfo, hdecode, hadmits⟩
  refine ⟨m₀, bytes, hm₀, hok, ?_⟩
  obtain ⟨info, s', hinfo', hs', -, -, hsafe, -⟩ := restore_safe hok
  obtain rfl := Option.some.inj (hinfo.symm.trans hinfo')
  obtain rfl := Except.ok.inj (hdecode.symm.trans hs')
  intro hm
  have hline : 313 < m₀.board.vdp.timing.linesPerFrame := (hsafe.1 hm).2.vdp.line
  generalize m₀.board.vdp.timing = t at hline
  cases t <;> simp [Standard.linesPerFrame] at hline

end Machine

end MasterSystem
