import MasterSystem.Proofs.Machine.Waiting

/-! # The clocks of a machine

Three clocks run in a machine: the processor counts T-states since power-on, the beam has its place
in a line, and the host's loop keeps the clock of the frame.

* **One frame.**  `Account` is what they tell of a frame (`frame_account`).
* **Many frames.**  `Frames` are whole fields from power-on, after which the clocks still agree
  (`Frames.synchronous`).

`frame_clock` states both. -/

namespace MasterSystem

open Video (Vdp)
open Video.Vdp (LineStart)
open Z80 (Processor Fault)

/-- After power-on the beam stands where the vertical blank begins. -/
theorem Mainboard.new_line (c : Option Cartridge) (rom : Option (Array UInt8)) (s : Settings) :
    (Mainboard.new c rom s).vdp.line = (Mainboard.new c rom s).vdp.activeHeight := by
  have h := Vdp.activeHeight_congr (v := (Mainboard.new c rom s).vdp)
    (w := .new (Mainboard.new c rom s).vdp.model .ntsc) rfl rfl
  rw [h, Vdp.activeHeight_new]
  rfl

namespace Machine

/-! ### The account of a frame -/

/-- The processor when the vertical blank begins. -/
def atBlank (m : Machine) : Processor Mainboard := (runToBlank stepLimit m.frameCycle m.cpu).2.2

/-- A frame that the host runs is `runField`, after which the host only takes samples. -/
theorem run_eq {m : Machine} (hcart : m.board.memory.cartridge.isSome = true)
    (hpaused : m.paused = false) (h : m.runField.2 = .ok ()) (video : Option (Array UInt8))
    (audio : Option Nat) :
    ∃ sound : Sound.Mixer, (m.run video audio).1 =
      m.runField.1.mapBoard fun b => { b with sound := sound } := by
  unfold run
  rw [Option.isNone_eq_false_iff.2 hcart, hpaused]
  generalize m.runField = o at h ⊢
  obtain ⟨closed, r⟩ := o
  obtain rfl : r = .ok () := h
  dsimp only
  rw [if_neg (by decide), if_neg (by decide)]
  cases video.mapM closed.writePicture with
  | error x => exact ⟨closed.board.sound, rfl⟩
  | ok video =>
      cases audio with
      | none => exact ⟨_, rfl⟩
      | some n => exact ⟨_, rfl⟩

/-- **The account of a frame** that was run on a machine, with the machine when the frame was closed
and the machine after it. -/
structure Account (m closed m' : Machine) : Prop where
  /-- The steps that were made. -/
  course : Course m.frameCycle m.cpu m.beats (none, m.frameCycle + ticks m.beats, m.atBlank)
  /-- The sound is closed at the start of the line that the beam is on. -/
  sound : closed.board.sound =
    (m.atBlank.bus.sound.endFrame (cyclesPerLine * (lines m.beats).length)).quiet
  frameCycle : m'.frameCycle = m'.board.vdp.lineCycles
  rest : m'.frameCycle < cyclesPerLine
  /-- The processor has counted the T-states of the steps. -/
  cycles : m'.cpu.regs.cycles = m.cpu.regs.cycles + UInt64.ofNat (ticks m.beats)
  /-- They are the lines that started and what the last step runs into the next frame, less what the
  last frame ran into this one. -/
  balance : m.frameCycle + ticks m.beats = cyclesPerLine * (lines m.beats).length + m'.frameCycle
  frameCount : m'.frameCount = m.frameCount + 1
  /-- The frame ends within its last step, unless the beam was past the end of its line when that
  step, the only one, began. -/
  overrun : (∀ b, m.beats.getLast? = some b → m'.frameCycle < b.ticks) ↔
    WithinLine m.cpu m.beats ∨ (m.frameCycle + ticks m.beats) % cyclesPerLine < ticks m.beats
  /-- A frame from one vertical blank to the next is a whole field, with the same exception. -/
  field : m.board.vdp.line = m.board.vdp.activeHeight →
    (∀ s ∈ lines m.beats, s.height = m.board.vdp.activeHeight) →
    ((lines m.beats).length = m.board.vdp.timing.linesPerFrame ↔
      WithinLine m.cpu m.beats ∨
        (m.frameCycle + ticks m.beats) / cyclesPerLine = m.board.vdp.timing.linesPerFrame)

theorem runField_ok {m : Machine} (h : m.runField.2 = .ok ()) :
    (runToBlank stepLimit m.frameCycle m.cpu).1 = none ∧
      m.runField.1 = { m with cpu := m.atBlank }.closeFrame
        (runToBlank stepLimit m.frameCycle m.cpu).2.1 := by
  unfold runField at h ⊢
  unfold atBlank
  generalize runToBlank stepLimit m.frameCycle m.cpu = o at h ⊢
  obtain ⟨x | x, cycle, z⟩ := o
  · exact ⟨rfl, rfl⟩
  · simp at h

/-- A board whose frame was closed at a clock. -/
def closed (cheats : Cheats) (cycle : Nat) (b : Mainboard) : Mainboard :=
  { b with
    memory := { b.memory with ram := cheats.poke b.memory.ram }
    sound := (b.sound.endFrame (cycle - b.vdp.lineCycles)).quiet
    notes := #[] }

theorem closeFrame_board (m : Machine) (cycle : Nat) :
    (m.closeFrame cycle).board = closed m.cheats cycle m.board := by
  unfold closeFrame board closed
  dsimp only
  rw [collect_bus]
  unfold Mainboard.endFrame
  rw [Mainboard.collectSound_eq]

/-- What belongs to the host stays as it is. -/
theorem closeFrame_host (m : Machine) (cycle : Nat) :
    (m.closeFrame cycle).settings = m.settings ∧ (m.closeFrame cycle).cheats = m.cheats ∧
      (m.closeFrame cycle).paused = m.paused := by
  unfold closeFrame
  exact ⟨rfl, rfl, rfl⟩

/-- The machine after a frame was closed, as far as the clocks are concerned. -/
theorem closeFrame_spec (m : Machine) (cycle : Nat) :
    (m.closeFrame cycle).board.vdp = m.board.vdp ∧
      (m.closeFrame cycle).board.sound =
        (m.board.sound.endFrame (cycle - m.board.vdp.lineCycles)).quiet ∧
      (m.closeFrame cycle).cpu.regs = m.cpu.regs ∧
      (m.closeFrame cycle).frameCycle = m.board.vdp.lineCycles ∧
      (m.closeFrame cycle).frameCount = m.frameCount + 1 := by
  have hregs : (m.closeFrame cycle).cpu.regs = m.cpu.regs := by
    unfold closeFrame
    dsimp only
    rw [collect_regs]
  rw [closeFrame_board]
  exact ⟨rfl, rfl, hregs, rfl, rfl⟩

/-- The processor at the vertical blank, after the steps of a frame that succeeds. -/
theorem course_ok {m : Machine} (hsteps : m.runField.2 = .ok ())
    (hticks : ticks m.beats < 0x100000000) :
    Course m.frameCycle m.cpu m.beats (none, m.frameCycle + ticks m.beats, m.atBlank) := by
  have hcourse := course m hticks
  have hnone := (runField_ok hsteps).1
  have hclock := hcourse.clock
  unfold atBlank
  generalize runToBlank stepLimit m.frameCycle m.cpu = o at *
  obtain ⟨x, cycle, z⟩ := o
  dsimp only at hnone hclock ⊢
  rw [← hnone, ← hclock]
  exact hcourse

/-- The vertical blank begins in a frame that succeeds. -/
theorem any_blank {m : Machine} (hsteps : m.runField.2 = .ok ())
    (hticks : ticks m.beats < 0x100000000) (hrest : m.board.vdp.lineCycles < cyclesPerLine) :
    (lines m.beats).any LineStart.blank = true := by
  obtain ⟨early, last, hends⟩ := (course_ok hsteps hticks).closes rfl (.inl hrest)
  rw [hends.lines, List.any_append, List.any_cons, hends.blank, Bool.true_or, Bool.or_true]

theorem frame_account {m : Machine} (hcart : m.board.memory.cartridge.isSome = true)
    (hpaused : m.paused = false) (hclock : m.frameCycle = m.board.vdp.lineCycles)
    (hsteps : m.runField.2 = .ok ()) (hticks : ticks m.beats < 0x100000000)
    (video : Option (Array UInt8)) (audio : Option Nat) :
    Account m m.runField.1 (m.run video audio).1 := by
  obtain ⟨sound, hrun⟩ := run_eq hcart hpaused hsteps video audio
  have hclosed := (runField_ok hsteps).2
  have hcycle := (course m hticks).clock
  have hcourse := course_ok hsteps hticks
  have hbalance : m.frameCycle + ticks m.beats =
      cyclesPerLine * (lines m.beats).length + m.atBlank.bus.vdp.lineCycles := by
    rw [hclock]
    exact hcourse.beam
  have hrest : m.atBlank.bus.vdp.lineCycles < cyclesPerLine := hcourse.rest rfl
  obtain ⟨hvdp, hsound, hregs, hframe, hcount⟩ := closeFrame_spec { m with cpu := m.atBlank }
    (runToBlank stepLimit m.frameCycle m.cpu).2.1
  rw [← hclosed] at hvdp hsound hregs hframe hcount
  have hafter : (m.run video audio).1.frameCycle = m.atBlank.bus.vdp.lineCycles := by
    rw [hrun]
    exact hframe
  have hmod : m.atBlank.bus.vdp.lineCycles = (m.frameCycle + ticks m.beats) % cyclesPerLine := by
    rw [hbalance, Nat.mul_add_mod, Nat.mod_eq_of_lt hrest]
  have hdiv : (lines m.beats).length = (m.frameCycle + ticks m.beats) / cyclesPerLine := by
    rw [hbalance, Nat.mul_add_div (by decide), Nat.div_eq_of_lt hrest, Nat.add_zero]
  refine ⟨hcourse, ?_, ?_, ?_, ?_, ?_, ?_, ?_, ?_⟩
  · rw [hsound, hcycle, hbalance]
    dsimp only [board]
    rw [Nat.add_sub_cancel]
  · rw [hrun]
    exact hframe.trans (congrArg Vdp.lineCycles hvdp).symm
  · rw [hafter]
    exact hrest
  · rw [hrun]
    exact hregs ▸ hcourse.cycles rfl
  · rw [hafter]
    exact hbalance
  · rw [hrun]
    exact hcount
  · rw [hafter, ← hmod]
    exact hcourse.overrun_iff rfl
  · intro hline hheight
    by_cases hw : WithinLine m.cpu m.beats
    · exact ⟨fun _ => .inl hw, fun _ => hcourse.length_lines rfl hw hline hheight⟩
    · rw [hdiv]
      exact ⟨.inr, fun h => h.resolve_left hw⟩

/-! ### Frames from power-on -/

/-- The machine after some frames of constant height, between which the host may press buttons. -/
inductive Frames (m₀ : Machine) : Nat → Machine → Prop where
  | load : Frames m₀ 0 m₀
  | frame {n : Nat} {m : Machine} : Frames m₀ n m → m.runField.2 = .ok () →
      ticks m.beats < 0x100000000 → (∀ s ∈ lines m.beats, s.height = m.board.vdp.activeHeight) →
      ∀ (video : Option (Array UInt8)) (audio : Option Nat), Frames m₀ (n + 1) (m.run video audio).1
  | press {n : Nat} {m : Machine} : Frames m₀ n m →
      ∀ (player : Nat) (k : Key), Frames m₀ n (m.press player k)
  | release {n : Nat} {m : Machine} : Frames m₀ n m →
      ∀ (player : Nat) (k : Key), Frames m₀ n (m.release player k)
  | setPhaser {n : Nat} {m : Machine} : Frames m₀ n m →
      ∀ p : Option Phaser, Frames m₀ n (m.setPhaser p)

/-- The clocks between two frames, `n` whole fields after power-on. -/
structure Synchronous (t : Standard) (n : Nat) (m : Machine) : Prop where
  cartridge : m.board.memory.cartridge.isSome = true
  paused : m.paused = false
  timing : m.board.vdp.timing = t
  clock : m.frameCycle = m.board.vdp.lineCycles
  rest : m.frameCycle < cyclesPerLine
  line : m.board.vdp.line = m.board.vdp.activeHeight
  cycles : m.cpu.regs.cycles = UInt64.ofNat (n * t.cyclesPerFrame + m.frameCycle)
  frameCount : m.frameCount = n

/-- A frame leaves the cartridge in its slot. -/
theorem atBlank_make (m : Machine) : m.atBlank.bus.make = m.board.make :=
  runToBlank_invariant (Mainboard.make_bus m.board) (fun h _ => h) (fun h _ => h) (fun h => h) _ _ _
    rfl

/-- A frame leaves the hardware as it was, and the machine runs on. -/
theorem run_make {m : Machine} (hcart : m.board.memory.cartridge.isSome = true)
    (hpaused : m.paused = false) (hsteps : m.runField.2 = .ok ()) (video : Option (Array UInt8))
    (audio : Option Nat) :
    (m.run video audio).1.board.make = m.board.make ∧ (m.run video audio).1.paused = false ∧
      (m.run video audio).1.board.vdp = m.atBlank.bus.vdp := by
  obtain ⟨sound, hrun⟩ := run_eq hcart hpaused hsteps video audio
  have hboard := closeFrame_board { m with cpu := m.atBlank }
    (runToBlank stepLimit m.frameCycle m.cpu).2.1
  obtain ⟨-, -, hrunning⟩ := closeFrame_host { m with cpu := m.atBlank }
    (runToBlank stepLimit m.frameCycle m.cpu).2.1
  rw [← (runField_ok hsteps).2] at hboard hrunning
  rw [hrun]
  refine ⟨?_, hrunning.trans hpaused, ?_⟩
  · have hmake := congrArg Mainboard.make hboard
    exact hmake.trans (atBlank_make m)
  · have hvdp := congrArg Mainboard.vdp hboard
    exact hvdp

section

variable {t : Standard} {n : Nat} {m : Machine}

/-- A machine after power-on. -/
theorem Synchronous.load {m₀ : Machine} {data : Array UInt8} {o : Overrides}
    {path : Option String} (h : m.insert data o path = (m₀, .ok ())) :
    Synchronous m₀.board.vdp.timing 0 m₀ := by
  unfold Machine.insert at h
  dsimp only at h
  split at h
  · obtain rfl : _ = m₀ := congrArg Prod.fst h
    refine ⟨rfl, rfl, rfl, rfl, (by decide : 0 < cyclesPerLine), ?_, ?_, rfl⟩
    · exact (Mainboard.new_line _ _ _)
    · rw [Nat.zero_mul]
      rfl
  · simp at h

theorem Synchronous.frame (h : Synchronous t n m) (hsteps : m.runField.2 = .ok ())
    (hticks : ticks m.beats < 0x100000000)
    (hheight : ∀ s ∈ lines m.beats, s.height = m.board.vdp.activeHeight)
    (video : Option (Array UInt8)) (audio : Option Nat) :
    Synchronous t (n + 1) (m.run video audio).1 := by
  have ha := frame_account h.cartridge h.paused h.clock hsteps hticks video audio
  obtain ⟨hmake, hrunning, hvdp⟩ := run_make h.cartridge h.paused hsteps video audio
  have hw : WithinLine m.cpu m.beats := .inl (h.clock ▸ h.rest)
  obtain ⟨early, last, hends⟩ := ha.course.closes rfl hw
  have hlines : (lines m.beats).length = t.linesPerFrame :=
    h.timing ▸ (ha.field h.line hheight).2 (.inl hw)
  have hlast : last.blank = decide (last.line = last.height) :=
    (ha.course.lines_spec last (by rw [hends.lines]; simp)).2
  refine ⟨?_, hrunning, ?_, ha.frameCycle, ha.rest, ?_, ?_, ?_⟩
  · have hcart := congrArg (fun k => k.2.2.2.1.isSome) hmake
    exact hcart.trans h.cartridge
  · rw [hvdp]
    exact ha.course.timing.trans h.timing
  · rw [hvdp, hends.line, hends.height]
    rw [hends.blank] at hlast
    exact of_decide_eq_true hlast.symm
  · rw [ha.cycles, h.cycles, ← UInt64.ofNat_add]
    congr 1
    have hbalance := ha.balance
    rw [hlines] at hbalance
    unfold Standard.cyclesPerFrame
    rw [Nat.add_one_mul, Nat.mul_comm t.linesPerFrame cyclesPerLine]
    omega
  · rw [ha.frameCount, h.frameCount]

theorem Synchronous.press (h : Synchronous t n m) (player : Nat) (k : Key) :
    Synchronous t n (m.press player k) := by
  unfold Machine.press
  dsimp only
  split
  · exact ⟨h.cartridge, h.paused, h.timing, h.clock, h.rest, h.line, h.cycles, h.frameCount⟩
  · exact ⟨h.cartridge, h.paused, h.timing, h.clock, h.rest, h.line, h.cycles, h.frameCount⟩

end

/-- The clocks agree after any number of frames from power-on. -/
theorem Frames.synchronous {m m₀ m' : Machine} {data : Array UInt8} {o : Overrides}
    {path : Option String} (hload : m.insert data o path = (m₀, .ok ())) {n : Nat}
    (h : Frames m₀ n m') : Synchronous m₀.board.vdp.timing n m' := by
  induction h with
  | load => exact .load hload
  | frame _ hsteps hticks hheight video audio ih => exact ih.frame hsteps hticks hheight video audio
  | press _ player k ih => exact ih.press player k
  | release _ player k ih =>
      exact ⟨ih.cartridge, ih.paused, ih.timing, ih.clock, ih.rest, ih.line, ih.cycles,
        ih.frameCount⟩
  | setPhaser _ p ih =>
      exact ⟨ih.cartridge, ih.paused, ih.timing, ih.clock, ih.rest, ih.line, ih.cycles,
        ih.frameCount⟩

/-- **The clocks of a machine.**  Every frame that a machine with a cartridge runs without a fault
keeps its account, if the frame is shorter than `2 ^ 32` T-states and the clock of the frame agrees
with the beam.  After `n` frames of constant height from power-on, the processor has counted `n`
whole fields and what it ran into the next one. -/
theorem frame_clock (m : Machine) :
    (m.board.memory.cartridge.isSome = true → m.paused = false →
      m.frameCycle = m.board.vdp.lineCycles → m.runField.2 = .ok () → ticks m.beats < 0x100000000 →
      ∀ video audio, Account m m.runField.1 (m.run video audio).1) ∧
    (∀ (m₀ : Machine) (data : Array UInt8) (o : Overrides) (path : Option String),
      m.insert data o path = (m₀, .ok ()) → ∀ (n : Nat) (m' : Machine), Frames m₀ n m' →
        m'.cpu.regs.cycles =
          UInt64.ofNat (n * m₀.board.vdp.timing.cyclesPerFrame + m'.frameCycle) ∧
        m'.frameCycle = m'.board.vdp.lineCycles ∧ m'.frameCycle < cyclesPerLine ∧
        m'.frameCount = n) := by
  constructor
  · intro hcart hpaused hclock hsteps hticks video audio
    exact frame_account hcart hpaused hclock hsteps hticks video audio
  · intro m₀ data o path hload n m' hframes
    have h := hframes.synchronous hload
    exact ⟨h.cycles, h.clock, h.rest, h.frameCount⟩

/-- A program that halts runs a whole field. -/
theorem frame_clock_of_halt : ∃ m₀ : Machine,
    (new {}).insert haltingImage
      { console := .master, zone := .exportNtsc, board := .romOnly } none = (m₀, .ok ()) ∧
    Account m₀ m₀.runField.1 (m₀.run none none).1 ∧
    Frames m₀ 1 (m₀.run none none).1 ∧
    (m₀.run none none).1.cpu.regs.cycles = UInt64.ofNat
      (1 * m₀.board.vdp.timing.cyclesPerFrame + (m₀.run none none).1.frameCycle) := by
  obtain ⟨c, m₀, hm₀, hrom, hboard, hbus, hregs, -⟩ := insert_haltingImage
  have hwaits := haltingImage_waits hrom hboard hregs {} hbus
  have hsync := Synchronous.load hm₀
  obtain ⟨hsteps, hticks, hheight⟩ := Waits.field hwaits (hsync.clock ▸ hsync.rest) hsync.line
  have hframes : Frames m₀ 1 (m₀.run none none).1 :=
    .frame .load hsteps hticks hheight none none
  exact ⟨m₀, hm₀,
    (frame_clock m₀).1 hsync.cartridge hsync.paused hsync.clock hsteps hticks none none,
    hframes, ((frame_clock (new {})).2 _ _ _ _ hm₀ 1 _ hframes).1⟩

end Machine

end MasterSystem
