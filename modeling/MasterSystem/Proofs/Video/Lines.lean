import MasterSystem.Video.Beam

/-! # The lines that the beam enters

A record of every line that `advance` starts (`Vdp.starts`), and what that says about a field.

* **Steps.**  Each step of a line, and each write to a port, is the chip with some fields replaced
  (`senseLight_eq`, `countLine_eq`, `finishField_eq`, `writeData_eq`, `writeControl_eq`).
* **Frame.**  Starting a line leaves alone everything but the counters, the flags and the pictures
  (`bare_nextLine`): registers, memory, television standard and the beam's place in the line.
* **Beam.**  `advance` starts as many lines as whole lines fit into the T-states since the current
  one began (`length_starts`), one after the other (`lines_eq`).
* **Fields.**  Whatever a program does to the chip in between, as many lines as a field has are all
  the lines of a field (`lines_perm`).  The vertical blank is reported at those of the lines 192,
  224 and 240 that start while the picture has just that height (`blanks_of_field`). -/

namespace MasterSystem.Video

namespace Vdp

/-! ### What a line changes -/

/-- Light, position and notes after the phaser looked at a line being drawn. -/
def sensed (v : Vdp) (line : Nat) (row : Array Color) : Bool × UInt8 × Notes :=
  match v.phaserTarget with
  | none => (v.lightDetected, v.hLatch, v.notes)
  | some (x, y) =>
    match look row line x y with
    | none => (v.lightDetected, v.hLatch, v.notes.push .overflow)
    | some none => (v.lightDetected, v.hLatch, v.notes)
    | some (some position) => (true, position, v.notes)

theorem senseLight_eq (v : Vdp) (line : Nat) (row : Array Color) :
    v.senseLight line row = { v with
      lightDetected := (v.sensed line row).1
      hLatch := (v.sensed line row).2.1
      notes := (v.sensed line row).2.2 } := by
  cases v
  rename_i target _ _ _ _
  rcases target with _ | ⟨x, y⟩
  · rfl
  · unfold senseLight sensed
    dsimp only
    rcases look row line x y with _ | _ | position <;> rfl

theorem countLine_eq (v : Vdp) :
    v.countLine = { v with
      lineCounter := if v.lineCounter = 0 then v.register 10 else v.lineCounter - 1
      lineIrq := v.lineIrq || v.lineCounter == 0
      notes := if v.lineCounter = 0 then v.notes.push (.lineInterrupt v.line) else v.notes } := by
  unfold countLine
  by_cases h : v.lineCounter = 0
  · simp [h]
  · simp [h]

theorem finishField_eq (v : Vdp) (height : Nat) :
    v.finishField height = { v with
      display :=
        if v.fieldAccepted then
          ⟨screenWidth, height, v.scratch.pixels.extract 0 (screenWidth * height)⟩
        else v.display } := by
  unfold finishField
  split <;> rfl

/-! ### What a line leaves alone -/

/-- The chip without what starting a line may change. -/
def bare (v : Vdp) : Vdp :=
  { v with
    vscroll := 0, fieldAccepted := false, lightDetected := false, hLatch := 0, status := 0
    scratch := .new 0 0, display := .new 0 0, lineCounter := 0, lineIrq := false, notes := #[] }

theorem bare_senseLight (v : Vdp) (line : Nat) (row : Array Color) :
    (v.senseLight line row).bare = v.bare := by
  rw [senseLight_eq]
  rfl

theorem bare_drawLegacy (v : Vdp) (line : Nat) : (v.drawLegacy line).2.bare = v.bare := by
  unfold drawLegacy
  split <;> rfl

/-- The colours of a line, and the chip with the flags that drawing it raises. -/
def paint (v : Vdp) (line : Nat) : Array Color × Vdp :=
  if !v.displayEnabled then (Array.replicate screenWidth v.backdrop, v)
  else if v.mode4 then v.drawMode4 line
  else v.drawLegacy line

theorem renderLine_eq (v : Vdp) (line : Nat) :
    v.renderLine line =
      let w := (v.paint line).2.senseLight line (v.paint line).1
      { w with
        scratch := {
          w.scratch with
          pixels :=
            copyRow (v.paint line).1 screenWidth 0 (line * screenWidth) w.scratch.pixels } } :=
  rfl

theorem bare_paint (v : Vdp) (line : Nat) : (v.paint line).2.bare = v.bare := by
  unfold paint
  split
  · rfl
  · split
    · rfl
    · exact bare_drawLegacy v line

theorem bare_scratch (v : Vdp) (f : Frame) : ({ v with scratch := f } : Vdp).bare = v.bare := rfl

theorem bare_renderLine (v : Vdp) (line : Nat) : (v.renderLine line).bare = v.bare := by
  rw [renderLine_eq]
  dsimp only
  rw [bare_scratch, bare_senseLight, bare_paint]

theorem bare_countLine (v : Vdp) : v.countLine.bare = v.bare := by
  rw [countLine_eq]
  rfl

theorem bare_finishField (v : Vdp) (height : Nat) : (v.finishField height).bare = v.bare := by
  rw [finishField_eq]
  rfl

theorem bare_startField (v : Vdp) : v.startField.bare = v.bare := rfl

theorem bare_lightDetected (v : Vdp) (b : Bool) :
    ({ v with lightDetected := b } : Vdp).bare = v.bare := rfl

theorem bare_lineCounter (v : Vdp) (n : UInt8) :
    ({ v with lineCounter := n } : Vdp).bare = v.bare := rfl

theorem bare_status (v : Vdp) (s : UInt8) : ({ v with status := s } : Vdp).bare = v.bare := rfl

/-- The chip after its line was drawn and counted, before the vertical blank may begin. -/
def traced (v : Vdp) : Vdp :=
  let w := if v.line = 0 then v.startField else v
  let w := { w with lightDetected := false }
  let w := if v.line < v.activeHeight then w.renderLine v.line else w
  if v.line ≤ v.activeHeight then w.countLine else { w with lineCounter := w.register 10 }

theorem startLine_eq (v : Vdp) :
    v.startLine =
      if v.line = v.activeHeight then
        (true, ({ v.traced with status := v.traced.status ||| Status.vblank } : Vdp).finishField
          v.activeHeight)
      else (false, v.traced) := rfl

theorem bare_traced (v : Vdp) : v.traced.bare = v.bare := by
  have hfield : (if v.line = 0 then v.startField else v).bare = v.bare := by
    split
    · exact bare_startField v
    · rfl
  unfold traced
  dsimp only
  generalize (if v.line = 0 then v.startField else v) = w at hfield ⊢
  have hdraw : (if v.line < v.activeHeight then
      ({ w with lightDetected := false } : Vdp).renderLine v.line
      else { w with lightDetected := false }).bare = v.bare := by
    split
    · rw [bare_renderLine, bare_lightDetected, hfield]
    · rw [bare_lightDetected, hfield]
  generalize (if v.line < v.activeHeight then
    ({ w with lightDetected := false } : Vdp).renderLine v.line
    else { w with lightDetected := false }) = u at hdraw ⊢
  split
  · rw [bare_countLine, hdraw]
  · rw [bare_lineCounter, hdraw]

theorem bare_startLine (v : Vdp) : v.startLine.2.bare = v.bare := by
  rw [startLine_eq]
  split
  · dsimp only
    rw [bare_finishField, bare_status, bare_traced]
  · exact bare_traced v

theorem startLine_blank (v : Vdp) : v.startLine.1 = decide (v.line = v.activeHeight) := by
  rw [startLine_eq]
  split
  · rename_i h
    rw [decide_eq_true h]
  · rename_i h
    rw [decide_eq_false h]

/-- **Starting a line changes nothing but counters, flags and pictures**, besides the line. -/
theorem bare_nextLine (v : Vdp) :
    v.nextLine.2.bare =
      ({ v with line := (v.line + 1) % v.timing.linesPerFrame } : Vdp).bare :=
  bare_startLine _

theorem nextLine_line (v : Vdp) :
    v.nextLine.2.line = (v.line + 1) % v.timing.linesPerFrame := by
  have h := congrArg Vdp.line (bare_nextLine v)
  exact h

theorem nextLine_lineCycles (v : Vdp) : v.nextLine.2.lineCycles = v.lineCycles := by
  have h := congrArg Vdp.lineCycles (bare_nextLine v)
  exact h

theorem nextLine_timing (v : Vdp) : v.nextLine.2.timing = v.timing := by
  have h := congrArg Vdp.timing (bare_nextLine v)
  exact h

theorem nextLine_activeHeight (v : Vdp) : v.nextLine.2.activeHeight = v.activeHeight := by
  have h := congrArg Vdp.activeHeight (bare_nextLine v)
  exact h

/-! ### The record -/

/-- What happened when the beam entered a line. -/
structure LineStart where
  line : Nat
  /-- Lines of the picture at that time. -/
  height : Nat
  /-- The vertical blank was reported. -/
  blank : Bool
  /-- The field was to be shown. -/
  accepted : Bool
deriving DecidableEq, Repr

/-- The record of the next line. -/
def enter (v : Vdp) : LineStart where
  line := (v.line + 1) % v.timing.linesPerFrame
  height := v.activeHeight
  blank := v.nextLine.1
  accepted := v.fieldAccepted

theorem enter_blank (v : Vdp) : v.enter.blank = decide (v.enter.line = v.enter.height) :=
  startLine_blank _

/-- The records of the next `n` lines. -/
def enters : Nat → Vdp → List LineStart
  | 0, _ => []
  | n + 1, v => v.enter :: enters n v.nextLine.2

/-- The records of the lines that start within some T-states. -/
def starts (v : Vdp) (cycles : Nat) : List LineStart :=
  enters ((v.lineCycles + cycles) / cyclesPerLine)
    { v with lineCycles := (v.lineCycles + cycles) % cyclesPerLine }

theorem length_enters : ∀ (n : Nat) (v : Vdp), (enters n v).length = n
  | 0, _ => rfl
  | n + 1, v => by rw [enters, List.length_cons, length_enters n]

theorem nextLines_blank : ∀ (n : Nat) (v : Vdp),
    (nextLines n v).1 = (enters n v).any LineStart.blank
  | 0, _ => rfl
  | n + 1, v => by
      rw [enters, List.any_cons, ← nextLines_blank n]
      rfl

theorem nextLines_timing : ∀ (n : Nat) (v : Vdp), (nextLines n v).2.timing = v.timing
  | 0, _ => rfl
  | n + 1, v => (nextLines_timing n v.nextLine.2).trans (nextLine_timing v)

theorem nextLines_lineCycles : ∀ (n : Nat) (v : Vdp),
    (nextLines n v).2.lineCycles = v.lineCycles
  | 0, _ => rfl
  | n + 1, v => (nextLines_lineCycles n v.nextLine.2).trans (nextLine_lineCycles v)

theorem nextLines_activeHeight : ∀ (n : Nat) (v : Vdp),
    (nextLines n v).2.activeHeight = v.activeHeight
  | 0, _ => rfl
  | n + 1, v => (nextLines_activeHeight n v.nextLine.2).trans (nextLine_activeHeight v)

theorem nextLines_line : ∀ (n : Nat) (v : Vdp),
    (nextLines n v).2.line = if n = 0 then v.line else (v.line + n) % v.timing.linesPerFrame
  | 0, _ => rfl
  | n + 1, v => by
      have h := nextLines_line n v.nextLine.2
      rw [nextLine_timing, nextLine_line] at h
      rw [if_neg (by omega), show v.line + (n + 1) = v.line + 1 + n by omega, ← Nat.mod_add_mod]
      refine h.trans ?_
      split
      · rename_i hn
        rw [hn]
        exact (Nat.mod_mod ..).symm
      · rfl

theorem enters_line : ∀ (n : Nat) (v : Vdp),
    (enters n v).map LineStart.line =
      (List.range n).map fun k => (v.line + 1 + k) % v.timing.linesPerFrame
  | 0, _ => rfl
  | n + 1, v => by
      rw [enters, List.map_cons, enters_line n, List.range_succ_eq_map, List.map_cons, List.map_map,
        nextLine_timing, nextLine_line]
      congr 1
      apply List.map_congr_left
      intro k _
      show ((v.line + 1) % _ + 1 + k) % _ = (v.line + 1 + (k + 1)) % _
      rw [Nat.add_assoc, Nat.mod_add_mod]
      congr 1
      omega

theorem enters_spec : ∀ (n : Nat) (v : Vdp), ∀ s ∈ enters n v,
    s.height ∈ [192, 224, 240] ∧ s.blank = decide (s.line = s.height)
  | 0, _ => by simp [enters]
  | n + 1, v => by
      intro s hs
      rcases List.mem_cons.1 hs with rfl | hs
      · refine ⟨?_, enter_blank v⟩
        have h := activeHeight_cases v
        simp only [List.mem_cons, List.not_mem_nil, or_false]
        exact h
      · exact enters_spec n _ s hs

theorem enters_height : ∀ (n : Nat) (v : Vdp), ∀ s ∈ enters n v, s.height = v.activeHeight
  | 0, _ => by simp [enters]
  | n + 1, v => by
      intro s hs
      rcases List.mem_cons.1 hs with rfl | hs
      · rfl
      · rw [enters_height n _ s hs, nextLine_activeHeight]

/-! ### Letting time pass -/

/-- `advance` reports the vertical blank if it begins at one of the lines started. -/
theorem advance_blank (v : Vdp) (cycles : Nat) :
    (v.advance cycles).1 = (v.starts cycles).any LineStart.blank := nextLines_blank ..

theorem length_starts (v : Vdp) (cycles : Nat) :
    (v.starts cycles).length = (v.lineCycles + cycles) / cyclesPerLine := length_enters ..

/-- Besides the lines that are due already, no more than one starts in a time shorter than a
line. -/
theorem length_starts_le (v : Vdp) {cycles : Nat} (h : cycles < cyclesPerLine) :
    (v.starts cycles).length ≤ (v.starts 0).length + 1 := by
  rw [length_starts, length_starts]
  simp only [cyclesPerLine] at h ⊢
  omega

/-- No line is due while the beam is within one. -/
theorem starts_zero {v : Vdp} (h : v.lineCycles < cyclesPerLine) : v.starts 0 = [] := by
  rw [← List.length_eq_zero_iff, length_starts]
  exact Nat.div_eq_of_lt h

theorem length_starts_le_one {v : Vdp} {cycles : Nat} (hbeam : v.lineCycles < cyclesPerLine)
    (h : cycles < cyclesPerLine) : (v.starts cycles).length ≤ 1 := by
  have hle := v.length_starts_le h
  rw [starts_zero hbeam] at hle
  exact hle

theorem advance_lineCycles (v : Vdp) (cycles : Nat) :
    (v.advance cycles).2.lineCycles = (v.lineCycles + cycles) % cyclesPerLine :=
  nextLines_lineCycles ..

theorem advance_timing (v : Vdp) (cycles : Nat) : (v.advance cycles).2.timing = v.timing :=
  nextLines_timing ..

theorem advance_activeHeight (v : Vdp) (cycles : Nat) :
    (v.advance cycles).2.activeHeight = v.activeHeight := nextLines_activeHeight ..

theorem advance_line (v : Vdp) (cycles : Nat) :
    (v.advance cycles).2.line =
      if (v.starts cycles).length = 0 then v.line
      else (v.line + (v.starts cycles).length) % v.timing.linesPerFrame := by
  rw [length_starts]
  exact nextLines_line ..

theorem advance_line_mod (v : Vdp) (cycles : Nat) :
    (v.advance cycles).2.line % v.timing.linesPerFrame =
      (v.line + (v.starts cycles).length) % v.timing.linesPerFrame := by
  rw [advance_line]
  split
  · rename_i h
    rw [h, Nat.add_zero]
  · rw [Nat.mod_mod]

theorem bare_nextLines : ∀ (n : Nat) (v : Vdp),
    (nextLines n v).2.bare = { v.bare with line := (nextLines n v).2.line }
  | 0, _ => rfl
  | n + 1, v => by
      have h := bare_nextLines n v.nextLine.2
      rw [bare_nextLine] at h
      exact h

/-- Letting time pass moves the beam, and changes counters, flags and pictures. -/
theorem bare_advance (v : Vdp) (cycles : Nat) :
    (v.advance cycles).2.bare =
      { v.bare with
        line := (v.advance cycles).2.line
        lineCycles := (v.lineCycles + cycles) % cyclesPerLine } :=
  bare_nextLines ..

theorem advance_model (v : Vdp) (cycles : Nat) : (v.advance cycles).2.model = v.model := by
  have h := congrArg Vdp.model (bare_advance v cycles)
  exact h

theorem advance_regs (v : Vdp) (cycles : Nat) : (v.advance cycles).2.regs = v.regs := by
  have h := congrArg Vdp.regs (bare_advance v cycles)
  exact h

theorem advance_vram (v : Vdp) (cycles : Nat) : (v.advance cycles).2.vram = v.vram := by
  have h := congrArg Vdp.vram (bare_advance v cycles)
  exact h

theorem advance_cram (v : Vdp) (cycles : Nat) : (v.advance cycles).2.cram = v.cram := by
  have h := congrArg Vdp.cram (bare_advance v cycles)
  exact h

theorem advance_address (v : Vdp) (cycles : Nat) :
    (v.advance cycles).2.address = v.address := by
  have h := congrArg Vdp.address (bare_advance v cycles)
  exact h

theorem advance_controlLow (v : Vdp) (cycles : Nat) :
    (v.advance cycles).2.controlLow = v.controlLow := by
  have h := congrArg Vdp.controlLow (bare_advance v cycles)
  exact h

/-- The height of the picture does not change while time passes. -/
theorem starts_height (v : Vdp) (cycles : Nat) :
    ∀ s ∈ v.starts cycles, s.height = v.activeHeight := by
  intro s hs
  have h := enters_height _ _ s hs
  exact h

theorem starts_line (v : Vdp) (cycles : Nat) :
    (v.starts cycles).map LineStart.line =
      (List.range (v.starts cycles).length).map
        fun k => (v.line + 1 + k) % v.timing.linesPerFrame := by
  rw [length_starts]
  exact enters_line ..

theorem starts_spec (v : Vdp) (cycles : Nat) : ∀ s ∈ v.starts cycles,
    s.height ∈ [192, 224, 240] ∧ s.blank = decide (s.line = s.height) := by
  intro s hs
  have h := enters_spec _ _ s hs
  exact h

/-- A line started while time passes: its number, and whether the vertical blank begins there. -/
theorem mem_starts {v : Vdp} {cycles : Nat} {s : LineStart} (h : s ∈ v.starts cycles) :
    (∃ k < (v.starts cycles).length, s.line = (v.line + 1 + k) % v.timing.linesPerFrame) ∧
      s.blank = decide (s.line = v.activeHeight) := by
  have hline : s.line ∈ (v.starts cycles).map LineStart.line := List.mem_map_of_mem h
  rw [starts_line] at hline
  obtain ⟨k, hk, he⟩ := List.mem_map.1 hline
  have hblank := (starts_spec v cycles s h).2
  rw [starts_height v cycles s h] at hblank
  exact ⟨⟨k, List.mem_range.1 hk, he.symm⟩, hblank⟩

/-! ### Accesses -/

/-- What can be done to the chip from outside, and letting some T-states pass. -/
inductive Access where
  | readData
  | writeData (b : UInt8)
  | readStatus
  | writeControl (b : UInt8)
  | latchHCounter
  | setShutter (b : UInt8)
  | setPhaserTarget (target : Option (Int × Int))
  | advance (cycles : Nat)

/-- The chip after an access. -/
def access (v : Vdp) : Access → Vdp
  | .readData => v.readData.2
  | .writeData b => v.writeData b
  | .readStatus => v.readStatus.2
  | .writeControl b => v.writeControl b
  | .latchHCounter => v.latchHCounter
  | .setShutter b => v.setShutter b
  | .setPhaserTarget target => v.setPhaserTarget target
  | .advance cycles => (v.advance cycles).2

/-- The lines that start during an access. -/
def startsOf (v : Vdp) : Access → List LineStart
  | .advance cycles => v.starts cycles
  | _ => []

/-- The lines that start during some accesses. -/
def log : Vdp → List Access → List LineStart
  | _, [] => []
  | v, a :: as => v.startsOf a ++ log (v.access a) as

/-- Where the beam is. -/
def beam (v : Vdp) : Standard × Nat × Nat := (v.timing, v.line, v.lineCycles)

/-- What a write to a register changes. -/
theorem writeRegister_eq (v : Vdp) (i b : UInt8) :
    ∃ regs notes, v.writeRegister i b = { v with regs := regs, notes := notes } := by
  unfold writeRegister
  dsimp only
  split
  · exact ⟨_, _, rfl⟩
  · split <;> exact ⟨_, _, rfl⟩

/-- What a write to the data port changes. -/
theorem writeData_eq (v : Vdp) (b : UInt8) :
    ∃ vram cram latch palette, v.writeData b = { v with
      vram := vram, cram := cram, cramLatch := latch, palette := palette, controlLow := none
      readBuffer := b, address := nextAddress v.address } := by
  unfold writeData
  dsimp only
  split
  · unfold writeCram
    split
    · dsimp only
      split <;> exact ⟨_, _, _, _, rfl⟩
    · exact ⟨_, _, _, _, rfl⟩
  · exact ⟨_, _, _, _, rfl⟩

/-- What a write to the control port changes. -/
theorem writeControl_eq (v : Vdp) (b : UInt8) :
    ∃ regs notes low code address buffer, v.writeControl b = { v with
      regs := regs, notes := notes, controlLow := low, code := code, address := address
      readBuffer := buffer } := by
  unfold writeControl
  split
  · exact ⟨_, _, _, _, _, _, rfl⟩
  · dsimp only
    split
    · exact ⟨_, _, _, _, _, _, rfl⟩
    · split
      · obtain ⟨regs, notes, h⟩ := writeRegister_eq _ (b &&& 0x0F) _
        exact ⟨regs, notes, _, _, _, _, h⟩
      · exact ⟨_, _, _, _, _, _, rfl⟩

theorem writeData_beam (v : Vdp) (b : UInt8) : (v.writeData b).beam = v.beam := by
  obtain ⟨vram, cram, latch, palette, h⟩ := writeData_eq v b
  rw [h]
  rfl

theorem writeControl_beam (v : Vdp) (b : UInt8) : (v.writeControl b).beam = v.beam := by
  obtain ⟨regs, notes, low, code, address, buffer, h⟩ := writeControl_eq v b
  rw [h]
  rfl

/-- What the host chooses of the chip: the model, the glasses and the aim of the phaser. -/
def host (v : Vdp) : Model × Glasses × Option (Int × Int) := (v.model, v.glasses, v.phaserTarget)

theorem host_bare (v : Vdp) : v.bare.host = v.host := rfl

theorem advance_host (v : Vdp) (cycles : Nat) : (v.advance cycles).2.host = v.host := by
  rw [← host_bare, bare_advance]
  rfl

theorem writeData_host (v : Vdp) (b : UInt8) : (v.writeData b).host = v.host := by
  obtain ⟨vram, cram, latch, palette, h⟩ := writeData_eq v b
  rw [h]
  rfl

theorem writeControl_host (v : Vdp) (b : UInt8) : (v.writeControl b).host = v.host := by
  obtain ⟨regs, notes, low, code, address, buffer, h⟩ := writeControl_eq v b
  rw [h]
  rfl

theorem writeRegister_regs (v : Vdp) {i : UInt8} (hi : ¬ 10 < i) (b : UInt8) :
    (v.writeRegister i b).regs = v.regs.setIfInBounds i.toNat b ∧
      (v.writeRegister i b).controlLow = v.controlLow ∧ (v.writeRegister i b).model = v.model := by
  unfold writeRegister
  dsimp only
  rw [if_neg hi]
  split <;> exact ⟨rfl, rfl, rfl⟩

/-- Two bytes at the control port write a register. -/
theorem writeControl_pair (v : Vdp) (h : v.controlLow = none) (low b : UInt8)
    (hcode : b >>> 6 = 2) (hi : ¬ 10 < b &&& 0x0F) :
    ((v.writeControl low).writeControl b).regs = v.regs.setIfInBounds (b &&& 0x0F).toNat low ∧
      ((v.writeControl low).writeControl b).controlLow = none ∧
      ((v.writeControl low).writeControl b).model = v.model := by
  have heq : (v.writeControl low).writeControl b =
      ({ v with controlLow := none, code := 2, address := Word.ofBytes (b &&& 0x3F) low } :
        Vdp).writeRegister (b &&& 0x0F) low := by
    unfold writeControl
    rw [h]
    dsimp only
    rw [hcode]
    rfl
  rw [heq]
  exact writeRegister_regs _ hi low

theorem activeHeight_congr {v w : Vdp} (hm : v.model = w.model) (hr : v.regs = w.regs) :
    v.activeHeight = w.activeHeight := by
  unfold activeHeight mode4 regBit register
  rw [hm, hr]

theorem activeHeight_new (model : Model) (timing : Standard) :
    (new model timing).activeHeight = 192 := by
  cases model <;> cases timing <;> decide

theorem access_timing (v : Vdp) (a : Access) : (v.access a).timing = v.timing := by
  cases a with
  | writeData b => exact congrArg Prod.fst (writeData_beam v b)
  | writeControl b => exact congrArg Prod.fst (writeControl_beam v b)
  | advance cycles => exact advance_timing v cycles
  | _ => rfl

theorem access_line (v : Vdp) (a : Access) :
    (v.access a).line % v.timing.linesPerFrame =
      (v.line + (v.startsOf a).length) % v.timing.linesPerFrame := by
  cases a with
  | writeData b => exact congrArg (·.2.1 % v.timing.linesPerFrame) (writeData_beam v b)
  | writeControl b => exact congrArg (·.2.1 % v.timing.linesPerFrame) (writeControl_beam v b)
  | advance cycles => exact advance_line_mod v cycles
  | _ => rfl

theorem startsOf_line (v : Vdp) (a : Access) :
    (v.startsOf a).map LineStart.line =
      (List.range (v.startsOf a).length).map fun k =>
        (v.line + 1 + k) % v.timing.linesPerFrame := by
  cases a with
  | advance cycles => exact starts_line v cycles
  | _ => rfl

/-- The lines start one after the other, and after the last of a field the first. -/
theorem lines_eq : ∀ (v : Vdp) (as : List Access),
    (v.log as).map LineStart.line =
      (List.range (v.log as).length).map fun k => (v.line + 1 + k) % v.timing.linesPerFrame
  | _, [] => rfl
  | v, a :: as => by
      rw [log, List.map_append, List.length_append, List.range_add, List.map_append, startsOf_line,
        lines_eq (v.access a) as, List.map_map, access_timing]
      congr 1
      apply List.map_congr_left
      intro k _
      show _ = (v.line + 1 + (_ + k)) % _
      rw [Nat.add_assoc, ← Nat.mod_add_mod, access_line, Nat.mod_add_mod]
      congr 1
      omega

theorem log_spec : ∀ (v : Vdp) (as : List Access), ∀ s ∈ v.log as,
    s.height ∈ [192, 224, 240] ∧ s.blank = decide (s.line = s.height)
  | _, [] => by simp [log]
  | v, a :: as => by
      intro s hs
      rcases List.mem_append.1 hs with hs | hs
      · cases a with
        | advance cycles => exact starts_spec v cycles s hs
        | _ => simp [startsOf] at hs
      · exact log_spec _ as s hs

/-! ### Fields -/

/-- As many consecutive lines as a field has are the lines of a field. -/
theorem rotation_perm (t : Standard) (a : Nat) :
    ((List.range t.linesPerFrame).map fun k => (a + k) % t.linesPerFrame).Perm
      (List.range t.linesPerFrame) := by
  refine (List.perm_ext_iff_of_nodup ?_ List.nodup_range).2 ?_
  · refine List.pairwise_map.2 (List.pairwise_lt_range.imp_of_mem ?_)
    intro i j _ hj hij
    have hj := List.mem_range.1 hj
    cases t <;> simp only [Standard.linesPerFrame] at hj ⊢ <;> omega
  · intro y
    simp only [List.mem_map, List.mem_range]
    constructor
    · rintro ⟨k, _, rfl⟩
      cases t <;> simp only [Standard.linesPerFrame] <;> omega
    · intro hy
      refine ⟨(y + t.linesPerFrame - a % t.linesPerFrame) % t.linesPerFrame, ?_, ?_⟩ <;>
        cases t <;> simp only [Standard.linesPerFrame] at hy ⊢ <;> omega

/-- As many lines as a field has are started once each, whatever happens in between. -/
theorem lines_perm (v : Vdp) (as : List Access)
    (h : (v.log as).length = v.timing.linesPerFrame) :
    ((v.log as).map LineStart.line).Perm (List.range v.timing.linesPerFrame) := by
  rw [lines_eq, h]
  exact rotation_perm v.timing (v.line + 1)

/-- Whether line `h` started while the picture had `h` lines. -/
def startedAt (log : List LineStart) (h : Nat) : Bool :=
  log.any fun s => s.line == h && s.height == h

theorem startedAt_iff (log : List LineStart) (h : Nat) :
    startedAt log h = true ↔ ∃ s ∈ log, s.line = h ∧ s.height = h := by
  simp [startedAt]

theorem countP_blank {log : List LineStart} (hlines : (log.map LineStart.line).Nodup)
    (hspec : ∀ s ∈ log, s.height ∈ [192, 224, 240] ∧ s.blank = decide (s.line = s.height)) :
    log.countP LineStart.blank = [192, 224, 240].countP (startedAt log) := by
  have hmem (h : Nat) : h ∈ (log.filter LineStart.blank).map LineStart.line ↔
      h ∈ [192, 224, 240].filter (startedAt log) := by
    rw [List.mem_filter, startedAt_iff, List.mem_map]
    constructor
    · rintro ⟨s, hs, rfl⟩
      obtain ⟨hs, hb⟩ := List.mem_filter.1 hs
      obtain ⟨hheight, hblank⟩ := hspec s hs
      rw [hblank] at hb
      have he : s.line = s.height := of_decide_eq_true hb
      exact ⟨by rw [he]; exact hheight, s, hs, rfl, he.symm⟩
    · rintro ⟨_, s, hs, hl, hh⟩
      refine ⟨s, List.mem_filter.2 ⟨hs, ?_⟩, hl⟩
      rw [(hspec s hs).2]
      exact decide_eq_true (hl.trans hh.symm)
  have hnodup : ((log.filter LineStart.blank).map LineStart.line).Nodup :=
    hlines.sublist (List.Sublist.map _ List.filter_sublist)
  have hperm := (List.perm_ext_iff_of_nodup hnodup
    (List.Nodup.sublist List.filter_sublist (by decide))).2 hmem
  rw [List.countP_eq_length_filter, List.countP_eq_length_filter, ← hperm.length_eq,
    List.length_map]

/-- **The vertical blanks of a field.**  Whatever a program does to the chip and however time passes
in the meantime, as many lines as a field has are each line of the field once.  The vertical blank
is reported at those of the lines 192, 224 and 240 that start while the picture has as many lines;
hence exactly once if the height of the picture is the same whenever a line starts.  What `advance`
returns is whether it is reported at one of the lines that start meanwhile. -/
theorem blanks_of_field (v : Vdp) (as : List Access)
    (h : (v.log as).length = v.timing.linesPerFrame) :
    ((v.log as).map LineStart.line).Perm (List.range v.timing.linesPerFrame) ∧
      (∀ s ∈ v.log as, s.blank = decide (s.line = s.height)) ∧
      (v.log as).countP LineStart.blank = [192, 224, 240].countP (startedAt (v.log as)) ∧
      (∀ k, (∀ s ∈ v.log as, s.height = k) → (v.log as).countP LineStart.blank = 1) ∧
      ∀ (u : Vdp) (cycles : Nat), (u.advance cycles).1 = (u.starts cycles).any LineStart.blank := by
  have hperm := lines_perm v as h
  have hspec := log_spec v as
  have hcount := countP_blank (hperm.nodup_iff.2 List.nodup_range) hspec
  refine ⟨hperm, fun s hs => (hspec s hs).2, hcount, ?_, advance_blank⟩
  intro k hk
  have hone : (v.log as).countP LineStart.blank = ((v.log as).map LineStart.line).count k := by
    rw [List.count, List.countP_map]
    apply List.countP_congr
    intro s hs
    rw [(hspec s hs).2, hk s hs]
    simp
  have hlt : k < v.timing.linesPerFrame := by
    obtain ⟨s, hs⟩ : ∃ s, s ∈ v.log as := by
      refine List.exists_mem_of_length_pos ?_
      rw [h]
      cases v.timing <;> decide
    have hheight := (hspec s hs).1
    rw [hk s hs] at hheight
    have : ∀ j ∈ [192, 224, 240], j < v.timing.linesPerFrame := by
      cases v.timing <;> decide
    exact this k hheight
  rw [hone, hperm.count_eq, List.nodup_range.count, if_pos (List.mem_range.2 hlt)]

/-- A field of a new chip of which all lines start in one go: the vertical blank is reported
once. -/
theorem blanks_of_first_field :
    ((new .master .ntsc).log [.advance Standard.ntsc.cyclesPerFrame]).length =
        Standard.ntsc.linesPerFrame ∧
      ((new .master .ntsc).log [.advance Standard.ntsc.cyclesPerFrame]).countP LineStart.blank =
        1 := by
  have hlog : (new .master .ntsc).log [.advance Standard.ntsc.cyclesPerFrame] =
      (new .master .ntsc).starts Standard.ntsc.cyclesPerFrame := List.append_nil _
  have hlength : ((new .master .ntsc).log [.advance Standard.ntsc.cyclesPerFrame]).length =
      Standard.ntsc.linesPerFrame := by
    rw [hlog, length_starts]
    rfl
  refine ⟨hlength, (blanks_of_field _ _ hlength).2.2.2.1 192 ?_⟩
  rw [hlog]
  intro s hs
  rw [starts_height _ _ s hs]
  decide

/-- Nothing is reported as long as no line is the one below the picture. -/
theorem countP_starts_eq_zero {v : Vdp} {cycles : Nat} (h : ∀ k < (v.starts cycles).length,
    (v.line + 1 + k) % v.timing.linesPerFrame ≠ v.activeHeight) :
    (v.starts cycles).countP LineStart.blank = 0 := by
  rw [List.countP_eq_zero]
  intro s hs
  obtain ⟨⟨k, hk, hline⟩, hblank⟩ := mem_starts hs
  rw [hblank, decide_eq_true_eq, hline]
  exact h k hk

/-- Nothing is reported in a whole field whose picture is made taller just before the vertical blank
would begin. -/
theorem field_without_blank :
    ((new .master .ntsc).log [.advance 59508, .writeControl 0x06, .writeControl 0x80,
        .writeControl 0x08, .writeControl 0x81, .advance 228]).length =
      Standard.ntsc.linesPerFrame ∧
    ((new .master .ntsc).log [.advance 59508, .writeControl 0x06, .writeControl 0x80,
        .writeControl 0x08, .writeControl 0x81, .advance 228]).countP LineStart.blank = 0 := by
  have hnone := advance_controlLow (new .master .ntsc) 59508
  have hmodel := advance_model (new .master .ntsc) 59508
  have hregs := advance_regs (new .master .ntsc) 59508
  have htiming := advance_timing (new .master .ntsc) 59508
  have hcycles := advance_lineCycles (new .master .ntsc) 59508
  have hline := advance_line_mod (new .master .ntsc) 59508
  have hlength := length_starts (new .master .ntsc) 59508
  rw [hlength] at hline
  simp only [log, access, startsOf, List.nil_append, List.append_nil, List.length_append,
    List.countP_append]
  generalize ((new .master .ntsc).advance 59508).2 = w at *
  obtain ⟨hregs₁, hnone₁, hmodel₁⟩ := writeControl_pair w hnone 0x06 0x80 (by decide) (by decide)
  obtain ⟨hregs₂, -, hmodel₂⟩ := writeControl_pair _ hnone₁ 0x08 0x81 (by decide) (by decide)
  have hbeam : ((((w.writeControl 0x06).writeControl 0x80).writeControl 0x08).writeControl
      0x81).beam = w.beam := by
    simp only [writeControl_beam]
  generalize (((w.writeControl 0x06).writeControl 0x80).writeControl 0x08).writeControl 0x81 = u
    at *
  have hheight : u.activeHeight = 240 := by
    have h := activeHeight_congr (v := u)
      (w := { new .master .ntsc with regs := #v[6, 8, 0, 0, 0, 0, 0, 0, 0, 0, 0, 0, 0, 0, 0, 0] })
    rw [h (by rw [hmodel₂, hmodel₁, hmodel]) (by rw [hregs₂, hregs₁, hregs]; rfl)]
    decide
  have hlines : u.lineCycles = 0 := by
    have h := congrArg (·.2.2) hbeam
    simp only [beam] at h
    rw [h, hcycles]
    rfl
  have hlast : (u.starts 228).length = 1 := by
    rw [length_starts, hlines]
    rfl
  refine ⟨by rw [hlength, hlast]; rfl, ?_⟩
  have hearly : ((new .master .ntsc).starts 59508).countP LineStart.blank = 0 := by
    refine countP_starts_eq_zero fun k hk => ?_
    rw [hlength] at hk
    have hk : k < 261 := hk
    have hheight : (new .master .ntsc).activeHeight = 192 := by decide
    rw [hheight]
    show (193 + k) % 262 ≠ 192
    omega
  have hlate : (u.starts 228).countP LineStart.blank = 0 := by
    refine countP_starts_eq_zero fun k hk => ?_
    have htime : u.timing = .ntsc := by
      have h := congrArg (·.1) hbeam
      exact h.trans htiming
    have hplace : u.line = w.line := congrArg (·.2.1) hbeam
    have hline : w.line % 262 = (192 + 261) % 262 := hline
    rw [hheight, htime]
    show (u.line + 1 + k) % 262 ≠ 240
    omega
  rw [hearly, hlate]

end Vdp

end MasterSystem.Video
