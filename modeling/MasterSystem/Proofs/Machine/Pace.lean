import MasterSystem.Proofs.Machine.Clock
import MasterSystem.Proofs.Z80.Blocks
import MasterSystem.Z80.Bench

/-! # The pace of a machine

No step is as long as a line of the screen, so that the processor meets every line that starts.

* **The longest steps.**  `LDIR` that repeats, behind a lead byte, is the longest instruction
  (`execute_longest`), and two T-states longer if a device gives the lead byte.
* **Steps.**  `step_length` bounds what a step takes by what those take.
* **Frames.**  No device drives the data lines of a board, so that every step of a frame takes 25
  T-states at most, and the frame runs into the next one by less (`Account.pace`). -/

namespace MasterSystem

open Video (Vdp)
open Z80

/-! ### The longest steps -/

namespace Z80.Processor

variable {β : Type} [Bus β]

/-- A block transfer that goes on takes 21 T-states. -/
theorem execExtended_again {z : Processor β} (hop : z.peek z.regs.pc = 0xB0)
    (hbc : z.regs.bc - 1 ≠ 0) : (execExtended z).2 = .ok 21 := by
  have hcode : decodeExtended z.fetch.1 = some (.block .transfer false true) := by
    rw [show z.fetch.1 = 0xB0 from hop]
    decide
  have halias : isAlias z.fetch.1 = false := by
    unfold isAlias
    rw [hcode]
  have hagain : (blockRound .transfer false z.fetch.2).2 = true := bne_iff_ne.2 hbc
  unfold execExtended
  dsimp only
  rw [hcode]
  dsimp only
  rw [halias, if_neg Bool.false_ne_true]
  unfold execAssigned Timed.done
  dsimp only
  rw [execBlock_eq, hagain]
  rfl

/-- Behind a lead byte it takes 25, as long as an instruction can be. -/
theorem execute_longest {x : IndexLead} {z : Processor β} (hed : z.peek z.regs.pc = 0xED)
    (hop : z.peek (z.regs.pc + 1) = 0xB0) (hbc : z.regs.bc - 1 ≠ 0) :
    (execute x.byte z).2 = .ok 25 := by
  have hlead : lookUp x.byte = .indexed x := lookUp_indexed.2 rfl
  have hextended : lookUp (z.peek z.regs.pc) = .extended := lookUp_extended.2 hed
  have hagain := execExtended_again
    (z := (z.flagUndocumented x.byte (z.peek z.regs.pc) (z.regs.pc - 1)).fetch.2) hop hbc
  unfold execute
  rw [hlead]
  dsimp only
  unfold execIndexed
  dsimp only
  rw [hextended]
  dsimp only
  unfold Outcome.plus
  dsimp only
  rw [hagain]
  rfl

theorem step_of_unclocked {z : Processor β} {n : Nat} (h : z.stepUnclocked.2 = .ok n) :
    ∃ w, z.step = (w, .ok n) := by
  unfold step
  generalize z.stepUnclocked = o at h
  obtain ⟨v, r⟩ := o
  obtain rfl : r = .ok n := h
  exact ⟨_, rfl⟩

/-- The longest step of all: in mode 0, a device gives the lead byte. -/
theorem step_longest {x : IndexLead} {z : Processor β} (haccepts : z.accepts = true)
    (him : z.regs.im = 0) (hlead : z.acknowledge.1 = x.byte)
    (hed : z.acknowledged.peek z.regs.pc = 0xED)
    (hop : z.acknowledged.peek (z.regs.pc + 1) = 0xB0) (hbc : z.regs.bc - 1 ≠ 0) :
    ∃ w, z.step = (w, .ok 27) := by
  have hirq : z.acceptIRQ = (execute x.byte z.acknowledged).plus 2 := by
    rw [← hlead]
    exact (acceptIRQ_decoding z.strict z).trans (if_pos (beq_iff_eq.2 him))
  apply step_of_unclocked
  rw [stepUnclocked_of_accepts haccepts, hirq]
  unfold Outcome.plus
  dsimp only
  rw [execute_longest hed hop hbc]
  rfl

theorem runInstruction_of_ok {z : Processor β} {n : Nat}
    (h : (execute z.fetch.1 z.fetch.2).2 = .ok n) : z.runInstruction.2 = .ok n := by
  unfold runInstruction
  dsimp only
  generalize execute z.fetch.1 z.fetch.2 = o at h ⊢
  obtain ⟨w, r⟩ := o
  obtain rfl : r = .ok n := h
  rfl

/-- The longest step that needs no device. -/
theorem step_longest_floating {x : IndexLead} {z : Processor β} (hruns : z.runs = true)
    (hlead : z.peek z.regs.pc = x.byte) (hed : z.peek (z.regs.pc + 1) = 0xED)
    (hop : z.peek (z.regs.pc + 1 + 1) = 0xB0) (hbc : z.regs.bc - 1 ≠ 0) :
    ∃ w, z.step = (w, .ok 25) := by
  apply step_of_unclocked
  rw [stepUnclocked_of_runs hruns]
  apply runInstruction_of_ok
  rw [show (z.mapRegs fun s => { s with eiPending := false }).fetch.1 = x.byte from hlead]
  exact execute_longest hed hop hbc

end Z80.Processor

/-! ### Steps -/

namespace Machine

/-- **The length of a step.**  Whatever a processor is wired to, a step that succeeds takes 4 to 27
T-states, at most 25 if the data lines read `FF`, and the processor's clock counts just these.  A
line of the screen is longer: wherever the beam is, the step starts no more than one line besides
those that were due before it, and it leaves the beam within a line, where none is due. -/
theorem step_length {β : Type} [Bus β] {z w : Processor β} {n : Nat} (h : z.step = (w, .ok n)) :
    4 ≤ n ∧ n ≤ 27 ∧ ((Bus.vector z.bus).1 = 0xFF → n ≤ 25) ∧
      w.regs.cycles = z.regs.cycles + UInt64.ofNat n ∧
      ∀ v : Vdp, (v.starts n).length ≤ (v.starts 0).length + 1 ∧
        (v.lineCycles < cyclesPerLine → (v.starts n).length ≤ 1) ∧
        (v.advance n).2.lineCycles < cyclesPerLine := by
  obtain ⟨hleast, hmost⟩ := Processor.step_cost h
  have hline : n < cyclesPerLine := Nat.lt_of_le_of_lt hmost (by decide)
  refine ⟨hleast, hmost, Processor.step_cost_floating h, Processor.step_cycles h, fun v => ?_⟩
  refine ⟨v.length_starts_le hline, fun hbeam => Vdp.length_starts_le_one hbeam hline, ?_⟩
  rw [Vdp.advance_lineCycles]
  exact Nat.mod_lt _ (by decide)

/-- Both bounds are met by `LDIR` behind the lead byte `DD`. -/
theorem step_length_of_ldir :
    (∃ z w : Processor Bench, (Bus.vector z.bus).1 = 0xDD ∧ z.step = (w, .ok 27) ∧
      w.regs.cycles = z.regs.cycles + 27 ∧
      ∀ v : Vdp, v.lineCycles < cyclesPerLine → (v.starts 27).length ≤ 1) ∧
    ∃ z w : Processor Bench, (Bus.vector z.bus).1 = 0xFF ∧ z.step = (w, .ok 25) ∧ 25 ≤ 25 := by
  constructor
  · obtain ⟨m, hed, hop⟩ : ∃ m : Z80.Memory, m.byteAt 0x100 = 0xED ∧ m.byteAt 0x101 = 0xB0 := by
      refine ⟨Z80.Memory.blank.storeAll 0x100 [0xED, 0xB0], ?_⟩
      simp [Z80.Memory.storeAll, Z80.Memory.byteAt_store_ne, Z80.Memory.byteAt_store_same]
    let z : Processor Bench :=
      { bus := { memory := m, floating := 0xDD }
        regs := { pc := 0x100, bc := 2, iff1 := true, irqLine := true } }
    obtain ⟨w, hstep⟩ := Processor.step_longest (x := .ix) (z := z) rfl rfl rfl hed hop
      (by decide : (2 : UInt16) - 1 ≠ 0)
    obtain ⟨-, -, -, hcycles, hlines⟩ := step_length hstep
    exact ⟨z, w, rfl, hstep, hcycles, fun v => (hlines v).2.1⟩
  · obtain ⟨m, hlead, hed, hop⟩ : ∃ m : Z80.Memory,
        m.byteAt 0x100 = 0xDD ∧ m.byteAt 0x101 = 0xED ∧ m.byteAt 0x102 = 0xB0 := by
      refine ⟨Z80.Memory.blank.storeAll 0x100 [0xDD, 0xED, 0xB0], ?_⟩
      simp [Z80.Memory.storeAll, Z80.Memory.byteAt_store_ne, Z80.Memory.byteAt_store_same]
    let z : Processor Bench := { bus := { memory := m }, regs := { pc := 0x100, bc := 2 } }
    obtain ⟨w, hstep⟩ := Processor.step_longest_floating (x := .ix) (z := z) rfl hlead hed hop
      (by decide : (2 : UInt16) - 1 ≠ 0)
    exact ⟨z, w, rfl, hstep, (step_length hstep).2.2.1 rfl⟩

/-! ### Frames -/

section

variable {cycle : Nat} {z : Processor Mainboard} {bs : List Beat}
  {r : Option Fault × Nat × Processor Mainboard}

/-- No device drives the data lines of a board. -/
theorem Course.pace (h : Course cycle z bs r) : ∀ b ∈ bs, 4 ≤ b.ticks ∧ b.ticks ≤ 25 := by
  induction h with
  | fault _ => simp
  | last hs _ =>
      intro b hb
      obtain rfl := List.mem_singleton.1 hb
      exact ⟨(Processor.step_cost hs).1, Processor.step_cost_floating hs rfl⟩
  | next hs _ _ ih =>
      intro b hb
      rcases List.mem_cons.1 hb with rfl | hb
      · exact ⟨(Processor.step_cost hs).1, Processor.step_cost_floating hs rfl⟩
      · exact ih b hb

/-- Every step leaves the beam within a line, so that no later one starts two. -/
theorem Course.one_line (h : Course cycle z bs r) (hbeam : z.bus.vdp.lineCycles < cyclesPerLine) :
    ∀ b ∈ bs, b.starts.length ≤ 1 := by
  induction h with
  | fault _ => simp
  | last hs _ =>
      intro b hb
      obtain rfl := List.mem_singleton.1 hb
      exact starts_le_one hs hbeam
  | @next cycle c z w u bs r hs hf _ ih =>
      have hu := follow_lineCycles w c
      rw [hf] at hu
      intro b hb
      rcases List.mem_cons.1 hb with rfl | hb
      · exact starts_le_one hs hbeam
      · exact ih (lt_of_eq_of_lt hu (Nat.mod_lt _ (by decide : 0 < cyclesPerLine))) b hb

/-- The time of some steps, each of which is bounded. -/
theorem ticks_bounds {low high : Nat} : ∀ {bs : List Beat},
    (∀ b ∈ bs, low ≤ b.ticks ∧ b.ticks ≤ high) →
      low * bs.length ≤ ticks bs ∧ ticks bs ≤ high * bs.length
  | [], _ => ⟨Nat.le_refl 0, Nat.le_refl 0⟩
  | b :: bs, h => by
      have hb := h b List.mem_cons_self
      have hbs := ticks_bounds fun b hb => h b (List.mem_cons_of_mem _ hb)
      rw [ticks_cons, List.length_cons, Nat.mul_add_one, Nat.mul_add_one]
      omega

end

/-- **The pace of a frame.**  A frame that begins within a line is made of steps of 4 to 25
T-states, in none of which two lines start, and it runs into the next frame by less than 25. -/
theorem Account.pace {m closed m' : Machine} (h : Account m closed m')
    (hbeam : m.board.vdp.lineCycles < cyclesPerLine) :
    (∀ b ∈ m.beats, 4 ≤ b.ticks ∧ b.ticks ≤ 25 ∧ b.starts.length ≤ 1) ∧
      4 * m.beats.length ≤ ticks m.beats ∧ ticks m.beats ≤ 25 * m.beats.length ∧
      m'.frameCycle < 25 := by
  have hpace := h.course.pace
  have hlines := h.course.one_line hbeam
  obtain ⟨hleast, hmost⟩ := ticks_bounds hpace
  refine ⟨fun b hb => ⟨(hpace b hb).1, (hpace b hb).2, hlines b hb⟩, hleast, hmost, ?_⟩
  have hw : WithinLine m.cpu m.beats := .inl hbeam
  obtain ⟨early, last, hends⟩ := h.course.closes rfl hw
  have hne : m.beats ≠ [] := by
    intro hnil
    have hlast := hends.lines
    simp [hnil, lines] at hlast
  have hover := h.overrun.2 (.inl hw) _ (List.getLast?_eq_some_getLast hne)
  exact Nat.lt_of_lt_of_le hover (hpace _ (List.getLast_mem hne)).2

end Machine

end MasterSystem
