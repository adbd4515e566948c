import MasterSystem.Proofs.Machine.Clock

/-! # The place in the frame

Between two frames the machine knows how far into the next one it is (`frameCycle`); while a frame
runs, only the loop does.  The beam knows it all the time: it has moved by some T-states since the
vertical blank last began (`sinceBlank`).

* **End.**  A frame that reaches the vertical blank leaves the two in agreement
  (`Course.sinceBlank_of_end`).
* **Fault.**  A frame that a fault ends does not put the loop's clock back, so that the machine is
  behind the beam by all the steps before the fault (`Interrupted`).  The next frame starts with a
  clock that the sound chips have already passed. -/

namespace MasterSystem

open Video (Vdp)
open Video.Vdp (LineStart)
open Z80 (Processor Fault)

namespace Machine

/-! ### Time since the vertical blank -/

/-- T-states since the vertical blank last began, after a step at whose start they were `t` and the
beam was `x` T-states into its line. -/
def Beat.sinceBlank (b : Beat) (t x : Nat) : Nat :=
  match b.starts.reverse.findIdx? LineStart.blank with
  | some k => cyclesPerLine * k + (x + b.ticks) % cyclesPerLine
  | none => t + b.ticks

/-- T-states since the vertical blank last began, after some steps. -/
def sinceBlank : Nat → Nat → List Beat → Nat
  | t, _, [] => t
  | t, x, b :: bs => sinceBlank (b.sinceBlank t x) ((x + b.ticks) % cyclesPerLine) bs

theorem Beat.sinceBlank_of_none {b : Beat} (t x : Nat)
    (h : b.starts.any LineStart.blank = false) : b.sinceBlank t x = t + b.ticks := by
  have hnone : b.starts.reverse.findIdx? LineStart.blank = none := by
    rw [List.findIdx?_eq_none_iff]
    intro s hs
    exact Bool.eq_false_iff.2 (List.any_eq_false.1 h s (List.mem_reverse.1 hs))
  unfold Beat.sinceBlank
  rw [hnone]

/-- Steps without a vertical blank count their T-states. -/
theorem sinceBlank_of_none : ∀ (t x : Nat) (bs : List Beat),
    (∀ b ∈ bs, b.starts.any LineStart.blank = false) → sinceBlank t x bs = t + ticks bs
  | _, _, [], _ => rfl
  | t, x, b :: bs, h => by
      unfold sinceBlank
      rw [Beat.sinceBlank_of_none t x (h b List.mem_cons_self),
        sinceBlank_of_none _ _ bs fun c hc => h c (List.mem_cons_of_mem b hc), ticks_cons,
        Nat.add_assoc]

section

variable {cycle : Nat} {z : Processor Mainboard} {bs : List Beat}
  {r : Option Fault × Nat × Processor Mainboard}

/-- No vertical blank begins before a fault. -/
theorem Course.no_blank (h : Course cycle z bs r) (hr : r.1.isSome = true) :
    ∀ b ∈ bs, b.starts.any LineStart.blank = false := by
  induction h with
  | fault _ => simp
  | last _ _ => simp at hr
  | @next cycle c z w u bs r hs hf _ ih =>
      intro b hb
      rcases List.mem_cons.1 hb with rfl | hb
      · have hblank := follow_starts w c
        rw [hf] at hblank
        exact hblank.symm
      · exact ih hr b hb

/-- At the vertical blank, what the last step runs into its line is the time since then. -/
theorem Course.sinceBlank_of_end (h : Course cycle z bs r) (hr : r.1 = none)
    (hrest : z.bus.vdp.lineCycles < cyclesPerLine) (t : Nat) :
    sinceBlank t z.bus.vdp.lineCycles bs = r.2.2.bus.vdp.lineCycles := by
  induction h generalizing t with
  | fault _ => simp at hr
  | @last cycle c z w u hs hf =>
      have hcycles := follow_lineCycles w c
      have hblank := follow_starts w c
      rw [hf] at hcycles hblank
      obtain ⟨s, hstarts⟩ := starts_one hs hrest hblank.symm
      rw [hstarts, List.any_cons, List.any_nil, Bool.or_false] at hblank
      unfold sinceBlank Beat.sinceBlank
      rw [hstarts, List.reverse_singleton, List.findIdx?_singleton, ← hblank, if_pos rfl]
      show cyclesPerLine * 0 + (z.bus.vdp.lineCycles + c) % cyclesPerLine = _
      rw [Nat.mul_zero, Nat.zero_add, ← step_lineCycles hs]
      exact hcycles.symm
  | @next cycle c z w u bs r hs hf _ ih =>
      have hcycles := follow_lineCycles w c
      rw [hf, step_lineCycles hs] at hcycles
      have hu : u.bus.vdp.lineCycles = (z.bus.vdp.lineCycles + c) % cyclesPerLine := hcycles
      unfold sinceBlank
      dsimp only
      rw [← hu]
      exact ih hr (hu ▸ Nat.mod_lt _ (by decide)) _

end

/-! ### Faults -/

/-- A frame that a fault ends is a course, however long it is. -/
theorem course_of_fault : ∀ (n cycle : Nat) (z : Processor Mainboard),
    (runToBlank n cycle z).1.isSome = true →
    Course cycle z (beatsFrom n cycle z) (runToBlank n cycle z)
  | 0, _, _, h => by simp [runToBlank] at h
  | n + 1, cycle, z, h => by
      unfold beatsFrom runToBlank at *
      generalize hs : Processor.step { z with bus := { z.bus with cycle := cycle } } = o at *
      obtain ⟨w, x | c⟩ := o
      · exact .fault hs
      · dsimp only at *
        generalize hf : follow w c = p at *
        obtain ⟨_ | _, u⟩ := p
        · exact .next hs hf (course_of_fault n _ u h)
        · simp at h

/-- No access to the board moves the clock of the frame. -/
theorem cycle_bus (cycle : Nat) : Z80.Bus.Invariant fun b : Mainboard => b.cycle = cycle where
  write {b} h a v := by
    show (b.write a v).cycle = cycle
    unfold Mainboard.write
    dsimp only
    split <;> exact h
  input {b} h port := by
    show (b.input (Word.low port)).2.cycle = cycle
    unfold Mainboard.input Mainboard.readPort
    dsimp only
    repeat' split
    all_goals exact h
  output {b} h port v := by
    have hsound (m : Sound.Mixer) :
        ({ b with sound := m } : Mainboard).collectSound.cycle = cycle := by
      rw [Mainboard.collectSound_eq]
      exact h
    show (b.output (Word.low port) v).cycle = cycle
    unfold Mainboard.output
    split
    · split
      · exact hsound _
      · exact h
    · split
      · exact hsound _
      · unfold Mainboard.writePort
        dsimp only
        repeat' split
        · unfold Mainboard.writeMemoryControl
          dsimp only
          split <;> exact h
        · exact h
        · exact hsound _
        · exact h
        · rw [Mainboard.collectVideo_eq]
          exact h
        · exact h
  vector h := h

/-- The board still has the clock at which the step that failed began. -/
theorem Course.cycle_of_fault {cycle : Nat} {z : Processor Mainboard} {bs : List Beat}
    {r : Option Fault × Nat × Processor Mainboard} (h : Course cycle z bs r)
    (hr : r.1.isSome = true) : r.2.2.bus.cycle = r.2.1 := by
  induction h with
  | @fault cycle z w x hs =>
      have hstep := Processor.step_invariant (cycle_bus cycle)
        (z := { z with bus := { z.bus with cycle := cycle } }) rfl
      rw [hs] at hstep
      rw [collect_bus]
      exact hstep
  | last _ _ => simp at hr
  | next _ _ _ ih => exact ih hr

/-- The host's memory is no reason for a fault. -/
theorem writePicture_fault (m : Machine) (video : Option (Array UInt8)) (x : Fault) :
    video.mapM m.writePicture ≠ .error (.cpu x) := by
  intro h
  cases video with
  | none => cases h
  | some dst =>
      have hpicture : Except.map some (m.writePicture dst) = .error (.cpu x) := h
      unfold writePicture at hpicture
      dsimp only at hpicture
      split at hpicture <;> cases hpicture

/-- The processor and its board are as the steps left them, all else is as it was. -/
theorem run_fault {m : Machine} {video : Option (Array UInt8)} {audio : Option Nat} {x : Fault}
    (h : (m.run video audio).2 = .error (.cpu x)) :
    (runToBlank stepLimit m.frameCycle m.cpu).1 = some x ∧
      (m.run video audio).1 = { m with cpu := m.atBlank } := by
  unfold run runField at h ⊢
  unfold atBlank
  split at h
  · cases h
  · split at h
    · cases h
    · rename_i hcart hpaused
      rw [if_neg hcart, if_neg hpaused]
      generalize runToBlank stepLimit m.frameCycle m.cpu = o at h ⊢
      obtain ⟨y | y, cycle, z⟩ := o
      · dsimp only at h
        split at h
        · rename_i e hvideo
          obtain rfl := Except.error.inj h
          exact absurd hvideo (writePicture_fault _ video x)
        · cases h
      · obtain rfl := Error.cpu.inj (Except.error.inj h)
        exact ⟨rfl, rfl⟩

/-- What a fault leaves of the place in the frame, in the machine `m'` after a frame that was run on
a machine `m`. -/
structure Interrupted (m m' : Machine) : Prop where
  frameCycle : m'.frameCycle = m.frameCycle
  /-- The clock at which the step that failed began. -/
  cycle : m'.board.cycle = m.frameCycle + ticks m.beats
  /-- The beam has moved by the steps before. -/
  beam : m.board.vdp.lineCycles + ticks m.beats =
    cyclesPerLine * (lines m.beats).length + m'.board.vdp.lineCycles
  /-- If the machine agreed with the beam, this is where the beam is now. -/
  place : sinceBlank m.frameCycle m.board.vdp.lineCycles m.beats = m.frameCycle + ticks m.beats
  /-- They agree again only if it was the first step that failed. -/
  kept : m'.frameCycle = sinceBlank m.frameCycle m.board.vdp.lineCycles m.beats ↔ m.beats = []

theorem ticks_eq_zero {cycle : Nat} {z : Processor Mainboard} {bs : List Beat}
    {r : Option Fault × Nat × Processor Mainboard} (h : Course cycle z bs r) :
    ticks bs = 0 ↔ bs = [] := by
  cases h with
  | fault _ => exact ⟨fun _ => rfl, fun _ => rfl⟩
  | last hs _ =>
      have hcost := (Processor.step_cost hs).1
      simp only [ticks, reduceCtorEq, iff_false]
      omega
  | next hs _ _ =>
      have hcost := (Processor.step_cost hs).1
      simp only [ticks, reduceCtorEq, iff_false]
      omega

theorem interrupted {m : Machine} {video : Option (Array UInt8)} {audio : Option Nat} {x : Fault}
    (h : (m.run video audio).2 = .error (.cpu x)) : Interrupted m (m.run video audio).1 := by
  obtain ⟨hfault, hrun⟩ := run_fault h
  have hsome : (runToBlank stepLimit m.frameCycle m.cpu).1.isSome = true := by
    rw [hfault]
    rfl
  have hcourse := course_of_fault stepLimit m.frameCycle m.cpu hsome
  have hplace : sinceBlank m.frameCycle m.board.vdp.lineCycles m.beats =
      m.frameCycle + ticks m.beats := sinceBlank_of_none _ _ _ (hcourse.no_blank hsome)
  rw [hrun]
  refine ⟨rfl, (hcourse.cycle_of_fault hsome).trans hcourse.clock, hcourse.beam, hplace, ?_⟩
  rw [hplace, Nat.left_eq_add]
  exact ticks_eq_zero hcourse

end Machine

/-! ### A program that fails -/

/-- The next step of the processor is an instruction. -/
structure Z80.Processor.Awake {β : Type} (z : Processor β) : Prop where
  nmi : z.regs.nmiPending = false
  irq : z.regs.iff1 = false
  halted : z.regs.halted = false

namespace Z80.Processor

variable {β : Type} [Z80.Bus β] {z : Processor β}

theorem Awake.stepUnclocked (h : z.Awake) :
    z.stepUnclocked = (z.mapRegs fun s => { s with eiPending := false }).runInstruction := by
  have hirq : acceptsIRQ z.regs = false := by
    unfold acceptsIRQ
    rw [h.irq, Bool.and_false, Bool.false_and]
  have hhalted : (z.mapRegs fun s => { s with eiPending := false }).regs.halted = false := h.halted
  unfold Processor.stepUnclocked
  rw [h.nmi, hirq, if_neg (by decide), if_neg (by decide)]
  dsimp only
  rw [hhalted, if_neg (by decide)]

theorem execute_nop (z : Processor β) : execute 0x00 z = (z, .ok 4) := by
  unfold execute
  rw [lookUp_eq_decode, show decode 0x00 = .plain .nop by decide]
  rfl

/-- A byte of the extended page that has no meaning is a fault under strict decoding. -/
theorem execute_unassigned {z : Processor β} (hstrict : z.strict = true)
    (hop : z.peek z.regs.pc = 0xED) : ∃ w x, execute 0xED z = (w, .error x) := by
  unfold execute
  rw [lookUp_eq_decode, show decode 0xED = .extended by decide]
  dsimp only
  have hfetch : (fetch z).1 = 0xED := hop
  have hs : (fetch z).2.strict = true := hstrict
  unfold execExtended
  generalize fetch z = p at hfetch hs ⊢
  obtain ⟨op, w⟩ := p
  obtain rfl : op = 0xED := hfetch
  dsimp only at hs ⊢
  rw [show decodeExtended 0xED = none by decide]
  dsimp only
  rw [if_pos hs]
  exact ⟨_, _, rfl⟩

/-- The processor once it has fetched the first byte of an instruction. -/
def fetched (z : Processor β) : Processor β :=
  (fetch (z.mapRegs fun s => { s with eiPending := false })).2

theorem fetched_rest (z : Processor β) : z.fetched.bus = z.bus ∧ z.fetched.strict = z.strict ∧
    z.fetched.regs.pc = z.regs.pc + 1 := ⟨rfl, rfl, rfl⟩

theorem Awake.fetched (h : z.Awake) : z.fetched.Awake := ⟨h.nmi, h.irq, h.halted⟩

theorem Awake.step_ok (h : z.Awake) {op : UInt8} {n : Nat} {w : Processor β}
    (hop : z.peek z.regs.pc = op) (hexec : execute op z.fetched = (w, .ok n)) :
    z.step = (w.mapRegs fun s => { s with cycles := s.cycles + UInt64.ofNat n }, .ok n) := by
  have hfetch : (fetch (z.mapRegs fun s => { s with eiPending := false })).1 = op := hop
  unfold Processor.fetched at hexec
  unfold Processor.step
  rw [h.stepUnclocked]
  unfold runInstruction
  dsimp only
  rw [hfetch, hexec]

theorem Awake.step_error (h : z.Awake) {op : UInt8} {x : Fault} {w : Processor β}
    (hop : z.peek z.regs.pc = op) (hexec : execute op z.fetched = (w, .error x)) :
    ∃ u, z.step = (u, .error x) := by
  have hfetch : (fetch (z.mapRegs fun s => { s with eiPending := false })).1 = op := hop
  unfold Processor.fetched at hexec
  unfold Processor.step
  rw [h.stepUnclocked]
  unfold runInstruction
  dsimp only
  rw [hfetch, hexec]
  exact ⟨_, rfl⟩

/-- A step over a byte that means nothing to do. -/
theorem Awake.nop (h : z.Awake) (hop : z.peek z.regs.pc = 0x00) :
    ∃ w, z.step = (w, .ok 4) ∧ w.bus = z.bus ∧ w.strict = z.strict ∧
      w.regs.pc = z.regs.pc + 1 ∧ w.Awake := by
  obtain ⟨hbus, hstrict, hpc⟩ := z.fetched_rest
  have hawake := h.fetched
  have hstep := h.step_ok hop (execute_nop z.fetched)
  exact ⟨_, hstep, hbus, hstrict, hpc, hawake.nmi, hawake.irq, hawake.halted⟩

/-- A step onto bytes that mean nothing, under strict decoding. -/
theorem Awake.unassigned (h : z.Awake) (hstrict : z.strict = true)
    (hop : z.peek z.regs.pc = 0xED) (hnext : z.peek (z.regs.pc + 1) = 0xED) :
    ∃ w x, z.step = (w, .error x) := by
  have hstrict' : z.fetched.strict = true := hstrict
  have hnext' : z.fetched.peek z.fetched.regs.pc = 0xED := hnext
  obtain ⟨w, x, hexec⟩ := execute_unassigned hstrict' hnext'
  obtain ⟨u, hstep⟩ := h.step_error hop hexec
  exact ⟨u, x, hstep⟩

theorem Awake.follow {z : Processor Mainboard} (h : z.Awake) (ticks : Nat) :
    (Machine.follow z ticks).2.Awake := by
  constructor <;> rw [Machine.follow_regs]
  · exact h.nmi
  · exact h.irq
  · exact h.halted

end Z80.Processor

/-- A cartridge whose second instruction has no meaning. -/
def failingImage : Array UInt8 := (Array.replicate 0x2000 0xED).setIfInBounds 0 0x00

theorem failingImage_size : failingImage.size = 0x2000 := by
  unfold failingImage
  rw [Array.size_setIfInBounds, Array.size_replicate]

theorem failingImage_byte (address : UInt16) :
    Mapper.repeatedByte failingImage address =
      if 0 = address.toNat % 0x2000 then 0x00 else 0xED := by
  have hlt : address.toNat % 0x2000 < 0x2000 := Nat.mod_lt _ (by decide)
  unfold Mapper.repeatedByte
  rw [failingImage_size, Array.getD_eq_getD_getElem?]
  unfold failingImage
  rw [Array.getElem?_setIfInBounds, Array.size_replicate, Array.getElem?_replicate, if_pos hlt]
  split <;> rfl

namespace Machine

/-- The first step of its program succeeds, and the second fails. -/
theorem runField_failingImage {m : Machine} {c : Cartridge} (hrom : c.rom = failingImage)
    (hboard : c.info.board = .romOnly) (hbus : m.cpu.bus = .new (some c) none { strict := true })
    (hregs : m.cpu.regs = {}) (hstrict : m.cpu.strict = true) :
    ∃ x, m.runField.2 = .error (.cpu x) ∧ ticks m.beats = 4 := by
  have hread (address : UInt16) (ha : ¬ Memory.ramStart ≤ address) :
      m.cpu.bus.memory.read address = if 0 = address.toNat % 0x2000 then 0x00 else 0xED := by
    rw [hbus]
    exact (read_small hrom hboard _ _ ha).trans (failingImage_byte address)
  -- The first step.
  let z : Processor Mainboard := { m.cpu with bus := { m.cpu.bus with cycle := m.frameCycle } }
  have hz : z.regs = {} := hregs
  have hawake : z.Awake := by
    refine ⟨?_, ?_, ?_⟩ <;> rw [hz]
  have hnop : z.peek z.regs.pc = 0x00 := by
    rw [hz]
    exact hread 0 (by decide)
  obtain ⟨w, hw, hwbus, hwstrict, hwpc, hwawake⟩ := hawake.nop hnop
  rw [hz] at hwpc
  have hvdp : w.bus.vdp = m.cpu.bus.vdp := by rw [hwbus]
  have hstarts : w.bus.vdp.starts 4 = [] := by
    rw [← List.length_eq_zero_iff, Vdp.length_starts, hvdp, hbus]
    exact (by decide : (0 + 4) / cyclesPerLine = 0)
  have hblank : (follow w 4).1 = false := by
    rw [follow_starts, hstarts]
    rfl
  -- The second step.
  let u : Processor Mainboard :=
    { (follow w 4).2 with bus := { (follow w 4).2.bus with cycle := m.frameCycle + 4 } }
  have hupc : u.regs.pc = 1 := by
    show (follow w 4).2.regs.pc = 1
    rw [follow_regs]
    exact hwpc
  have hfollow : (follow w 4).2.Awake := hwawake.follow 4
  have huread (address : UInt16) : u.peek address = m.cpu.bus.memory.read address := by
    show (follow w 4).2.bus.memory.read address = _
    rw [follow_bus, hwbus]
  have huawake : u.Awake := ⟨hfollow.nmi, hfollow.irq, hfollow.halted⟩
  have hustrict : u.strict = true := by
    show (follow w 4).2.strict = true
    rw [follow_strict, hwstrict]
    exact hstrict
  obtain ⟨f, x, hf⟩ := huawake.unassigned hustrict
    (by rw [huread, hupc, hread 1 (by decide)]; rfl)
    (by rw [huread, hupc, hread (1 + 1) (by decide)]; rfl)
  have hpair : follow w 4 = (false, (follow w 4).2) := by rw [← hblank]
  have hlimit : stepLimit = 0x3FFFFFFE + 1 + 1 := rfl
  refine ⟨x, ?_, ?_⟩
  · unfold runField
    rw [hlimit]
    unfold runToBlank
    rw [hw]
    dsimp only
    rw [hpair]
    dsimp only
    unfold runToBlank
    rw [hf]
  · unfold beats
    rw [hlimit]
    unfold beatsFrom
    rw [hw]
    dsimp only
    rw [hpair]
    dsimp only
    unfold beatsFrom
    rw [hf]
    rfl

/-! ### The place after a frame -/

/-- **The place in the frame.**  After a frame that a fault ends, the machine's clock is the one
that the frame began with, although the beam has moved and the clock was counted on: the machine is
behind by all the steps before the fault.  A frame that ends with the vertical blank, on the other
hand, leaves the machine's clock in agreement with the beam. -/
theorem place_of_fault (m : Machine) :
    (∀ (video : Option (Array UInt8)) (audio : Option Nat) (x : Fault),
      (m.run video audio).2 = .error (.cpu x) → Interrupted m (m.run video audio).1) ∧
    (∀ (video : Option (Array UInt8)) (audio : Option Nat) (t : Nat),
      m.board.memory.cartridge.isSome = true → m.paused = false → m.runField.2 = .ok () →
      ticks m.beats < 0x100000000 → m.board.vdp.lineCycles < cyclesPerLine →
      (m.run video audio).1.frameCycle = sinceBlank t m.board.vdp.lineCycles m.beats) := by
  constructor
  · intro video audio x h
    exact interrupted h
  · intro video audio t hcart hpaused hsteps hticks hrest
    obtain ⟨sound, hrun⟩ := run_eq hcart hpaused hsteps video audio
    have hframe : m.runField.1.frameCycle = m.atBlank.bus.vdp.lineCycles := by
      rw [(runField_ok hsteps).2]
      exact (closeFrame_spec _ _).2.2.2.1
    rw [hrun]
    exact hframe.trans ((course_ok hsteps hticks).sinceBlank_of_end rfl hrest t).symm

/-- A program that fails in its second step leaves the machine four T-states behind the beam; one
that halts leaves it in agreement. -/
theorem place_of_fault_after_nop : ∃ m₀ m₁ : Machine,
    (new { strict := true }).insert failingImage
      { console := .master, zone := .exportNtsc, board := .romOnly } none = (m₀, .ok ()) ∧
    Interrupted m₀ (m₀.run none none).1 ∧ (m₀.run none none).1.frameCycle = 0 ∧
    sinceBlank 0 m₀.board.vdp.lineCycles m₀.beats = 4 ∧
    (new {}).insert haltingImage
      { console := .master, zone := .exportNtsc, board := .romOnly } none = (m₁, .ok ()) ∧
    (m₁.run none none).1.frameCycle = sinceBlank 0 m₁.board.vdp.lineCycles m₁.beats := by
  obtain ⟨c, m₀, hm₀, hrom, hboard, hbus, hregs, hstrict, -, -, hzero⟩ :=
    insert_small failingImage_size { strict := true } rfl
  obtain ⟨x, hfield, hticks⟩ := runField_failingImage hrom hboard hbus hregs hstrict
  have hsync := Synchronous.load hm₀
  have hrun : (m₀.run none none).2 = .error (.cpu x) := by
    unfold run
    rw [Option.isNone_eq_false_iff.2 hsync.cartridge, hsync.paused, if_neg (by decide),
      if_neg (by decide)]
    generalize m₀.runField = o at hfield ⊢
    obtain ⟨m, r⟩ := o
    obtain rfl : r = .error (.cpu x) := hfield
    rfl
  have hfault := (place_of_fault m₀).1 none none x hrun
  have hplace := hfault.place
  rw [hzero, hticks] at hplace
  obtain ⟨c₁, m₁, hm₁, hrom₁, hboard₁, hbus₁, hregs₁, -⟩ := insert_haltingImage
  have hwaits := haltingImage_waits hrom₁ hboard₁ hregs₁ {} hbus₁
  have hsync₁ := Synchronous.load hm₁
  have hrest₁ : m₁.board.vdp.lineCycles < cyclesPerLine := hsync₁.clock ▸ hsync₁.rest
  obtain ⟨hsteps, hshort, -⟩ := Waits.field hwaits hrest₁ hsync₁.line
  exact ⟨m₀, m₁, hm₀, hfault, hfault.frameCycle.trans hzero, hplace, hm₁,
    (place_of_fault m₁).2 none none 0 hsync₁.cartridge hsync₁.paused hsteps hshort hrest₁⟩

end Machine

end MasterSystem
