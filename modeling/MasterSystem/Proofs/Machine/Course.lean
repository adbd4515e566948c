import MasterSystem.Proofs.Machine.Wiring
import MasterSystem.Proofs.Video.Lines
import MasterSystem.Proofs.Z80.Timing

/-! # The course of a frame

A frame is a sequence of processor steps (`beats`), each with its T-states and the lines that start
meanwhile.

* **Course.**  `Course` is the loop as a relation; a frame shorter than `2 ^ 32` T-states follows
  one up to the vertical blank or to a fault (`course`).
* **Clocks.**  Along a course the processor and the frame count the same T-states (`Course.clock`,
  `Course.cycles`), and the beam counts them in lines of 228 (`Course.beam`).
* **End.**  The vertical blank begins at the last line that starts (`Course.closes`); from one to
  the next there is a whole field if the height of the picture is constant
  (`Course.length_lines`). -/

namespace MasterSystem

open Video (Vdp)
open Video.Vdp (LineStart)
open Z80 (Processor Fault)

namespace Machine

/-! ### The steps of a frame -/

/-- A step of the processor within a frame. -/
structure Beat where
  /-- T-states. -/
  ticks : Nat
  /-- Lines that start meanwhile. -/
  starts : List LineStart

/-- T-states of some steps. -/
def ticks : List Beat → Nat
  | [] => 0
  | b :: bs => b.ticks + ticks bs

/-- Lines that start during some steps. -/
def lines (bs : List Beat) : List LineStart := bs.flatMap Beat.starts

/-- The steps that `runToBlank` makes. -/
def beatsFrom : Nat → Nat → Processor Mainboard → List Beat
  | 0, _, _ => []
  | n + 1, cycle, z =>
    match Processor.step { z with bus := { z.bus with cycle := cycle } } with
    | (_, .error _) => []
    | (w, .ok c) =>
      ⟨c, w.bus.vdp.starts c⟩ ::
        match follow w c with
        | (true, _) => []
        | (false, u) => beatsFrom n (cycle + c) u

/-- The steps of the machine's next frame. -/
def beats (m : Machine) : List Beat := beatsFrom stepLimit m.frameCycle m.cpu

theorem ticks_cons (b : Beat) (bs : List Beat) : ticks (b :: bs) = b.ticks + ticks bs := rfl

theorem lines_cons (b : Beat) (bs : List Beat) : lines (b :: bs) = b.starts ++ lines bs := rfl

/-- Steps from a clock of the frame on, up to the vertical blank or to a fault, with the fault, the
clock and the processor at the end. -/
inductive Course : Nat → Processor Mainboard → List Beat →
    Option Fault × Nat × Processor Mainboard → Prop where
  | fault {cycle : Nat} {z w : Processor Mainboard} {x : Fault} :
      Processor.step { z with bus := { z.bus with cycle := cycle } } = (w, .error x) →
      Course cycle z [] (some x, cycle, collect w)
  | last {cycle c : Nat} {z w u : Processor Mainboard} :
      Processor.step { z with bus := { z.bus with cycle := cycle } } = (w, .ok c) →
      follow w c = (true, u) →
      Course cycle z [⟨c, w.bus.vdp.starts c⟩] (none, cycle + c, u)
  | next {cycle c : Nat} {z w u : Processor Mainboard} {bs : List Beat}
      {r : Option Fault × Nat × Processor Mainboard} :
      Processor.step { z with bus := { z.bus with cycle := cycle } } = (w, .ok c) →
      follow w c = (false, u) → Course (cycle + c) u bs r →
      Course cycle z (⟨c, w.bus.vdp.starts c⟩ :: bs) r

/-- A frame that does not use up the steps allowed is a course. -/
theorem course_of_ticks : ∀ (n cycle : Nat) (z : Processor Mainboard),
    ticks (beatsFrom n cycle z) < 4 * n →
    Course cycle z (beatsFrom n cycle z) (runToBlank n cycle z)
  | 0, _, _, h => absurd h (by simp)
  | n + 1, cycle, z, h => by
      unfold beatsFrom runToBlank at *
      generalize hs : Processor.step { z with bus := { z.bus with cycle := cycle } } = o at *
      obtain ⟨w, x | c⟩ := o
      · exact .fault hs
      · dsimp only at *
        generalize hf : follow w c = p at *
        obtain ⟨_ | _, u⟩ := p
        · dsimp only at *
          have hc := (Processor.step_cost hs).1
          rw [ticks_cons] at h
          dsimp only at h
          exact .next hs hf (course_of_ticks n _ u (by omega))
        · exact .last hs hf

/-! ### What a step does to the clocks -/

theorem stable_beam (p : Standard × Nat × Nat) : Vdp.Stable fun v => v.beam = p where
  readData h := h
  writeData h b := (Vdp.writeData_beam _ b).trans h
  readStatus h := h
  writeControl h b := (Vdp.writeControl_beam _ b).trans h
  latchHCounter h := h
  setShutter h _ := h
  quiet h := h

/-- No instruction moves the beam. -/
theorem step_beam (z : Processor Mainboard) : z.step.1.bus.vdp.beam = z.bus.vdp.beam :=
  Processor.step_invariant (stable_beam z.bus.vdp.beam).bus rfl

section

variable {cycle c : Nat} {z w u : Processor Mainboard} {r : Except Fault Nat}
  (h : Processor.step { z with bus := { z.bus with cycle := cycle } } = (w, r))
include h

theorem step_timing : w.bus.vdp.timing = z.bus.vdp.timing := by
  have hb := step_beam { z with bus := { z.bus with cycle := cycle } }
  rw [h] at hb
  exact congrArg Prod.fst hb

theorem step_line : w.bus.vdp.line = z.bus.vdp.line := by
  have hb := step_beam { z with bus := { z.bus with cycle := cycle } }
  rw [h] at hb
  exact congrArg (·.2.1) hb

theorem step_lineCycles : w.bus.vdp.lineCycles = z.bus.vdp.lineCycles := by
  have hb := step_beam { z with bus := { z.bus with cycle := cycle } }
  rw [h] at hb
  exact congrArg (·.2.2) hb

end

theorem follow_lineCycles (w : Processor Mainboard) (c : Nat) :
    (follow w c).2.bus.vdp.lineCycles = (w.bus.vdp.lineCycles + c) % cyclesPerLine := by
  rw [follow_bus]
  exact Vdp.advance_lineCycles ..

theorem follow_timing (w : Processor Mainboard) (c : Nat) :
    (follow w c).2.bus.vdp.timing = w.bus.vdp.timing := by
  rw [follow_bus]
  exact Vdp.advance_timing ..

theorem follow_line (w : Processor Mainboard) (c : Nat) :
    (follow w c).2.bus.vdp.line =
      if (w.bus.vdp.starts c).length = 0 then w.bus.vdp.line
      else (w.bus.vdp.line + (w.bus.vdp.starts c).length) % w.bus.vdp.timing.linesPerFrame := by
  rw [follow_bus]
  exact Vdp.advance_line ..

theorem follow_activeHeight (w : Processor Mainboard) (c : Nat) :
    (follow w c).2.bus.vdp.activeHeight = w.bus.vdp.activeHeight := by
  rw [follow_bus]
  exact Vdp.advance_activeHeight ..

theorem follow_starts (w : Processor Mainboard) (c : Nat) :
    (follow w c).1 = (w.bus.vdp.starts c).any LineStart.blank := by
  rw [follow_blank]
  exact Vdp.advance_blank ..

theorem follow_cycles (w : Processor Mainboard) (c : Nat) :
    (follow w c).2.regs.cycles = w.regs.cycles := by
  rw [follow_regs]

/-- A step counts its T-states in whole lines and a rest. -/
theorem follow_beam (w : Processor Mainboard) (c : Nat) :
    w.bus.vdp.lineCycles + c =
      cyclesPerLine * (w.bus.vdp.starts c).length + (follow w c).2.bus.vdp.lineCycles := by
  rw [follow_lineCycles, Vdp.length_starts, Nat.div_add_mod]

/-! ### Accounts of a course -/

section

variable {cycle : Nat} {z : Processor Mainboard} {bs : List Beat}
  {r : Option Fault × Nat × Processor Mainboard}

/-- The clock of the frame counts the T-states of the steps. -/
theorem Course.clock (h : Course cycle z bs r) : r.2.1 = cycle + ticks bs := by
  induction h with
  | fault _ => rfl
  | last _ _ => rfl
  | next _ _ _ ih =>
      rw [ih, ticks_cons, Nat.add_assoc]

/-- The processor's clock counts the T-states of the steps. -/
theorem Course.cycles (h : Course cycle z bs r) (hr : r.1 = none) :
    r.2.2.regs.cycles = z.regs.cycles + UInt64.ofNat (ticks bs) := by
  induction h with
  | fault _ => simp at hr
  | @last cycle c z w u hs hf =>
      have hu := follow_cycles w c
      rw [hf] at hu
      rw [hu, Processor.step_cycles hs]
      simp [ticks]
  | @next cycle c z w u bs r hs hf _ ih =>
      have hu := follow_cycles w c
      rw [hf] at hu
      rw [ih hr, hu, Processor.step_cycles hs, ticks_cons, UInt64.ofNat_add, UInt64.add_assoc]

/-- The beam counts the T-states of the steps in lines. -/
theorem Course.beam (h : Course cycle z bs r) :
    z.bus.vdp.lineCycles + ticks bs =
      cyclesPerLine * (lines bs).length + r.2.2.bus.vdp.lineCycles := by
  induction h with
  | fault hs =>
      rw [collect_bus]
      simp only [ticks, lines, List.flatMap_nil, List.length_nil]
      rw [step_lineCycles hs]
      omega
  | @last cycle c z w u hs hf =>
      have hb := follow_beam w c
      rw [hf, step_lineCycles hs] at hb
      simpa [ticks, lines] using hb
  | @next cycle c z w u bs r hs hf _ ih =>
      have hb := follow_beam w c
      rw [hf, step_lineCycles hs] at hb
      rw [ticks_cons, lines_cons, List.length_append, Nat.mul_add]
      dsimp only at hb ⊢
      omega

/-- The steps end within a line. -/
theorem Course.rest (h : Course cycle z bs r) (hr : r.1 = none) :
    r.2.2.bus.vdp.lineCycles < cyclesPerLine := by
  have hpos : 0 < cyclesPerLine := by decide
  induction h with
  | fault _ => simp at hr
  | @last cycle c z w u hs hf =>
      have hu := follow_lineCycles w c
      rw [hf] at hu
      exact (show u.bus.vdp.lineCycles = _ from hu) ▸ Nat.mod_lt _ hpos
  | next _ _ _ ih => exact ih hr

/-- The television standard stays. -/
theorem Course.timing (h : Course cycle z bs r) :
    r.2.2.bus.vdp.timing = z.bus.vdp.timing := by
  induction h with
  | fault hs =>
      rw [collect_bus]
      exact step_timing hs
  | @last cycle c z w u hs hf =>
      have hu := follow_timing w c
      rw [hf] at hu
      exact hu.trans (step_timing hs)
  | @next cycle c z w u bs r hs hf _ ih =>
      have hu := follow_timing w c
      rw [hf] at hu
      exact ih.trans (hu.trans (step_timing hs))

/-- The lines of a course start one after the other. -/
theorem Course.lines_line (h : Course cycle z bs r) :
    (lines bs).map LineStart.line = (List.range (lines bs).length).map
      fun k => (z.bus.vdp.line + 1 + k) % z.bus.vdp.timing.linesPerFrame := by
  induction h with
  | fault _ => rfl
  | @last cycle c z w u hs hf =>
      have hl := Vdp.starts_line w.bus.vdp c
      rw [step_line hs, step_timing hs] at hl
      simpa [lines] using hl
  | @next cycle c z w u bs r hs hf _ ih =>
      have hl := Vdp.starts_line w.bus.vdp c
      have hu := follow_line w c
      have ht := follow_timing w c
      rw [hf] at hu ht
      dsimp only at hu ht
      rw [step_line hs, step_timing hs] at hl hu
      rw [ht, step_timing hs] at ih
      rw [lines_cons, List.map_append, List.length_append, List.range_add, List.map_append, hl, ih,
        List.map_map]
      congr 1
      apply List.map_congr_left
      intro k _
      show (u.bus.vdp.line + 1 + k) % _ =
        (z.bus.vdp.line + 1 + ((w.bus.vdp.starts c).length + k)) % _
      rw [hu]
      by_cases h0 : (w.bus.vdp.starts c).length = 0
      · rw [if_pos h0, h0, Nat.zero_add]
      · rw [if_neg h0, Nat.add_assoc, Nat.mod_add_mod]
        congr 1
        omega

end

/-! ### The end of a frame -/

/-- The beam is within its line when the steps begin, or will be when the last one begins.  Only a
state made by hand can put it past the end. -/
def WithinLine (z : Processor Mainboard) (bs : List Beat) : Prop :=
  z.bus.vdp.lineCycles < cyclesPerLine ∨ 2 ≤ bs.length

section

variable {cycle : Nat} {z : Processor Mainboard} {bs : List Beat}
  {r : Option Fault × Nat × Processor Mainboard}

/-- How a course ends at the vertical blank. -/
structure Closes (bs : List Beat) (z : Processor Mainboard) (early : List LineStart)
    (last : LineStart) : Prop where
  /-- The vertical blank begins at the last line that started, and at no line before. -/
  lines : lines bs = early ++ [last]
  early : ∀ s ∈ early, s.blank = false
  blank : last.blank = true
  /-- The beam is on that line. -/
  line : z.bus.vdp.line = last.line
  height : z.bus.vdp.activeHeight = last.height
  /-- The last step runs into the line by less than it takes. -/
  overrun : ∀ b, bs.getLast? = some b → z.bus.vdp.lineCycles < b.ticks

/-- A step is shorter than a line, so that no more than one starts. -/
theorem starts_le_one {cycle c : Nat} {z w : Processor Mainboard}
    (hs : Processor.step { z with bus := { z.bus with cycle := cycle } } = (w, .ok c))
    (hrest : z.bus.vdp.lineCycles < cyclesPerLine) : (w.bus.vdp.starts c).length ≤ 1 := by
  have hc := (Processor.step_cost hs).2
  rw [← step_lineCycles hs] at hrest
  exact Vdp.length_starts_le_one hrest (Nat.lt_of_le_of_lt hc (by decide))

/-- If the vertical blank begins, it begins at the only line that starts. -/
theorem starts_one {cycle c : Nat} {z w : Processor Mainboard}
    (hs : Processor.step { z with bus := { z.bus with cycle := cycle } } = (w, .ok c))
    (hrest : z.bus.vdp.lineCycles < cyclesPerLine)
    (hblank : (w.bus.vdp.starts c).any LineStart.blank = true) :
    ∃ s, w.bus.vdp.starts c = [s] := by
  have hne : w.bus.vdp.starts c ≠ [] := by
    intro h0
    simp [h0] at hblank
  have hpos := List.length_pos_iff.2 hne
  rw [← List.length_eq_one_iff]
  exact Nat.le_antisymm (starts_le_one hs hrest) hpos

/-- A step that begins within a line and reports the vertical blank. -/
theorem closes_step {cycle c : Nat} {z w u : Processor Mainboard}
    (hs : Processor.step { z with bus := { z.bus with cycle := cycle } } = (w, .ok c))
    (hf : follow w c = (true, u)) (hrest : z.bus.vdp.lineCycles < cyclesPerLine) :
    ∃ s, Closes [⟨c, w.bus.vdp.starts c⟩] u [] s := by
  have hblank := follow_starts w c
  have hline := follow_line w c
  have hheight := follow_activeHeight w c
  have hcycles := follow_lineCycles w c
  have hlines := Vdp.starts_line w.bus.vdp c
  have hheights := Vdp.starts_height w.bus.vdp c
  have hlength := Vdp.length_starts w.bus.vdp c
  rw [hf] at hblank hline hheight hcycles
  obtain ⟨s, hstarts⟩ := starts_one hs hrest hblank.symm
  rw [← step_lineCycles hs] at hrest
  rw [hstarts] at hblank hline hlength hlines hheights
  simp only [List.any_cons, List.any_nil, Bool.or_false, List.length_singleton, List.map_cons,
    List.map_nil, List.range_one, List.cons.injEq, Nat.add_zero, and_true]
    at hblank hline hlength hlines
  refine ⟨s, ?_, by simp, hblank.symm, ?_, ?_, ?_⟩
  · simp [lines, hstarts]
  · rw [hline, hlines, if_neg (by decide)]
  · rw [hheight, hheights s (by simp)]
  · intro b hb
    simp only [List.getLast?_singleton, Option.some.injEq] at hb
    subst hb
    simp only [cyclesPerLine] at hrest hcycles hlength
    show u.bus.vdp.lineCycles < c
    omega

theorem Course.closes (h : Course cycle z bs r) (hr : r.1 = none) (hw : WithinLine z bs) :
    ∃ early last, Closes bs r.2.2 early last := by
  induction h with
  | fault _ => simp at hr
  | last hs hf => exact ⟨[], closes_step hs hf (hw.resolve_right (by simp))⟩
  | @next cycle c z w u bs r hs hf hcourse ih =>
      have hblank := follow_starts w c
      have hcycles := follow_lineCycles w c
      rw [hf] at hblank hcycles
      have hu : u.bus.vdp.lineCycles < cyclesPerLine := by
        have h0 : 0 < cyclesPerLine := by decide
        rw [show u.bus.vdp.lineCycles = _ from hcycles]
        exact Nat.mod_lt _ h0
      obtain ⟨early, last, he⟩ := ih hr (.inl hu)
      refine ⟨w.bus.vdp.starts c ++ early, last, ?_, ?_, he.blank, he.line, he.height, ?_⟩
      · rw [lines_cons, he.lines, List.append_assoc]
      · intro s hm
        rcases List.mem_append.1 hm with hm | hm
        · have := List.any_eq_false.1 hblank.symm s hm
          simpa using this
        · exact he.early s hm
      · intro b hb
        refine he.overrun b ?_
        rw [← hb]
        cases bs with
        | nil =>
            have := he.lines
            simp [lines] at this
        | cons b' bs => rfl

/-- A frame that begins past the end of a line and has no second step has one. -/
theorem Course.single (h : Course cycle z bs r) (hr : r.1 = none) (hw : ¬ WithinLine z bs) :
    ∃ b, bs = [b] := by
  have hlength : bs.length < 2 := by
    have := not_or.1 hw
    omega
  cases h with
  | fault _ => simp at hr
  | last _ _ => exact ⟨_, rfl⟩
  | @next _ c _ w _ bs' _ _ _ hcourse =>
      cases hcourse with
      | fault _ => simp at hr
      | last _ _ => simp at hlength
      | next _ _ _ =>
          simp only [List.length_cons] at hlength
          omega

/-- A course ends within its last step, unless it began past the end of a line. -/
theorem Course.overrun_iff (h : Course cycle z bs r) (hr : r.1 = none) :
    (∀ b, bs.getLast? = some b → r.2.2.bus.vdp.lineCycles < b.ticks) ↔
      WithinLine z bs ∨ r.2.2.bus.vdp.lineCycles < ticks bs := by
  by_cases hw : WithinLine z bs
  · obtain ⟨early, last, hends⟩ := h.closes hr hw
    exact ⟨fun _ => .inl hw, fun _ => hends.overrun⟩
  · obtain ⟨b, rfl⟩ := h.single hr hw
    have hone : ticks [b] = b.ticks := rfl
    rw [hone]
    constructor
    · intro hlast
      exact .inr (hlast b rfl)
    · intro hover c hc
      rw [List.getLast?_singleton, Option.some.injEq] at hc
      exact hc ▸ hover.resolve_left hw

theorem Course.lines_spec (h : Course cycle z bs r) : ∀ s ∈ lines bs,
    s.height ∈ [192, 224, 240] ∧ s.blank = decide (s.line = s.height) := by
  induction h with
  | fault _ => simp [lines]
  | last _ _ =>
      intro s hs
      rw [lines_cons, show lines [] = [] from rfl, List.append_nil] at hs
      exact Vdp.starts_spec _ _ s hs
  | next _ _ _ ih =>
      intro s hs
      rcases List.mem_append.1 hs with hs | hs
      · exact Vdp.starts_spec _ _ s hs
      · exact ih s hs

/-- A frame that starts where the vertical blank begins, with a picture of constant height, is a
whole field. -/
theorem Course.length_lines (h : Course cycle z bs r) (hr : r.1 = none) (hw : WithinLine z bs)
    {k : Nat} (hline : z.bus.vdp.line = k) (hk : ∀ s ∈ lines bs, s.height = k) :
    (lines bs).length = z.bus.vdp.timing.linesPerFrame := by
  obtain ⟨early, last, he⟩ := h.closes hr hw
  have hlines := h.lines_line
  have hspec := h.lines_spec
  rw [he.lines] at hlines hspec hk ⊢
  have hget (i : Nat) (hi : i < (early ++ [last]).length) :
      (early ++ [last])[i].line = (k + 1 + i) % z.bus.vdp.timing.linesPerFrame := by
    have := List.getElem_of_eq hlines (by simpa using hi)
    simpa only [List.getElem_map, List.getElem_range, hline] using this
  have hblank (s : LineStart) (hs : s ∈ early ++ [last]) : s.blank = decide (s.line = k) := by
    rw [(hspec s hs).2, hk s hs]
  have hend : (k + 1 + early.length) % z.bus.vdp.timing.linesPerFrame = k := by
    have hb := hblank last (by simp)
    have hl := hget early.length (by simp)
    rw [he.blank, List.getElem_concat_length rfl] at *
    rw [← hl]
    exact (of_decide_eq_true hb.symm)
  have hbefore (i : Nat) (hi : i < early.length) :
      (k + 1 + i) % z.bus.vdp.timing.linesPerFrame ≠ k := by
    have hi' : i < (early ++ [last]).length := by
      rw [List.length_append]
      omega
    have hb := hblank _ (List.getElem_mem hi')
    rw [hget i hi', List.getElem_append_left hi, he.early _ (List.getElem_mem hi)] at hb
    exact of_decide_eq_false hb.symm
  have hkmem : k = 192 ∨ k = 224 ∨ k = 240 := by
    have := (hspec last (by simp)).1
    rw [hk last (by simp)] at this
    simpa using this
  have hturn := hbefore (z.bus.vdp.timing.linesPerFrame - 1)
  rw [List.length_append, List.length_singleton]
  clear hget hbefore hlines
  generalize z.bus.vdp.timing = t at *
  cases t <;> simp only [Standard.linesPerFrame] at hend hturn ⊢ <;> omega

end

theorem course (m : Machine) (h : ticks m.beats < 0x100000000) :
    Course m.frameCycle m.cpu m.beats (runToBlank stepLimit m.frameCycle m.cpu) :=
  course_of_ticks _ _ _ h

end Machine

end MasterSystem
