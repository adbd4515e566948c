import MasterSystem.Z80.Step

/-! # How long a step takes

A step that succeeds takes at least 4 T-states, and at most 27 (`step_cost`).  The longest steps are
those of a repeating block instruction behind a lead byte, 25 T-states (`runInstruction_cost`); only
a device that gives the lead byte itself, in an acknowledge of mode 0, adds two more.  On data lines
that float, 25 are never exceeded (`step_cost_floating`).

The bounds go along the routes by which an opcode byte is reached, one lemma for each page. -/

namespace MasterSystem.Z80

/-! ### Costs of instructions -/

/-- T-states that an instruction adds to its cost if its branch is taken. -/
def Instruction.branchCost : Instruction → Nat
  | djnz | jrIf _ => jumpTaken
  | callIf _ => callTaken
  | retIf _ => returnTaken
  | _ => 0

/-- No branch, taken, is as long as `EX (SP),HL` or an operation on `(IX+d)`. -/
theorem Instruction.cost_bounds (i : Instruction) (x : Index) :
    4 ≤ i.cost x ∧ i.cost x + i.branchCost ≤ 19 := by
  cases i with
  | load t s =>
      cases t <;> cases s <;> cases x <;>
        simp [cost, baseCost, displacementCost, usesMemory, Operand.inMemory, branchCost]
  | inc o | dec o | loadImmediate o | operate _ o =>
      cases o <;> cases x <;>
        simp [cost, baseCost, displacementCost, usesMemory, Operand.inMemory, branchCost]
  | _ =>
      cases x <;>
        simp [cost, baseCost, displacementCost, usesMemory, branchCost, jumpTaken, callTaken,
          returnTaken]

theorem BitInstruction.cost_bounds (i : BitInstruction) (o : Operand) :
    8 ≤ i.cost o ∧ i.cost o ≤ 15 := by
  unfold cost
  split
  · split <;> omega
  · omega

theorem BitInstruction.indexedCost_bounds (i : BitInstruction) :
    20 ≤ i.indexedCost ∧ i.indexedCost ≤ 23 := by
  unfold indexedCost
  split <;> omega

theorem Extended.cost_bounds (i : Extended) : 8 ≤ i.cost ∧ i.cost ≤ 20 := by
  cases i <;> simp [cost]

/-! ### Costs of outcomes -/

/-- A result that is no fault is a number of T-states between two bounds. -/
def Within (low high : Nat) (r : Except Fault Nat) : Prop := ∀ n, r = .ok n → low ≤ n ∧ n ≤ high

theorem within_ok {low high n : Nat} (h : low ≤ n ∧ n ≤ high) : Within low high (.ok n) := by
  intro k hk
  cases hk
  exact h

theorem within_error {low high : Nat} (x : Fault) : Within low high (.error x) := by
  intro k hk
  cases hk

theorem Within.mono {low high low' high' : Nat} {r : Except Fault Nat} (h : Within low high r)
    (hl : low' ≤ low) (hh : high ≤ high') : Within low' high' r := by
  intro n hn
  have := h n hn
  omega

theorem Within.plus {β : Type} {low high : Nat} {o : Outcome β} (h : Within low high o.2)
    (n : Nat) :
    Within (low + n) (high + n) (o.plus n).2 := by
  obtain ⟨z, r⟩ := o
  cases r with
  | error x => exact within_error x
  | ok k =>
      have hk := h k rfl
      exact within_ok ⟨Nat.add_le_add_right hk.1 n, Nat.add_le_add_right hk.2 n⟩

namespace Processor

variable {β : Type} [Bus β]

/-! ### Costs of execution -/

theorem exec_cost (i : Instruction) (x : Index) (z : Processor β) :
    i.cost x ≤ (exec i x z).2 ∧ (exec i x z).2 ≤ i.cost x + i.branchCost := by
  cases i with
  | djnz | jrIf _ | retIf _ | jumpIf _ | callIf _ =>
      simp only [exec]
      split <;> simp [Instruction.branchCost]
  | loadImmediate o => cases o <;> simp [exec]
  | load t s => cases t <;> cases s <;> simp [exec]
  | _ => simp [exec]

theorem execBit_cost (z : Processor β) : 8 ≤ (execBit z).2 ∧ (execBit z).2 ≤ 15 := by
  have h (i : BitInstruction) (o : Operand) := i.cost_bounds o
  unfold execBit
  dsimp only
  split <;> exact h _ _

theorem execIndexedBit_cost (x : IndexLead) (z : Processor β) :
    20 ≤ (execIndexedBit x z).2 ∧ (execIndexedBit x z).2 ≤ 23 := by
  have h (i : BitInstruction) := i.indexedCost_bounds
  unfold execIndexedBit
  dsimp only
  split
  · exact h _
  · split <;> exact h _

theorem execBlock_cost (op : BlockOperation) (down repeats : Bool) (z : Processor β) :
    8 ≤ (execBlock op down repeats z).2 ∧ (execBlock op down repeats z).2 ≤ 21 := by
  unfold execBlock
  generalize blockRound op down z = p
  obtain ⟨z, again⟩ := p
  dsimp only [Extended.cost, repeatTaken]
  split <;> omega

theorem execAssigned_cost (i : Extended) (z : Processor β) :
    8 ≤ (execAssigned i z).2 ∧ (execAssigned i z).2 ≤ 21 := by
  have h := i.cost_bounds
  cases i with
  | inPort r => cases r <;> simp [execAssigned, Extended.cost]
  | block op down repeats => exact execBlock_cost op down repeats z
  | _ =>
      simp only [execAssigned]
      omega

theorem execExtended_cost (z : Processor β) : Within 8 21 (execExtended z).2 := by
  unfold execExtended
  generalize z.fetch = p
  obtain ⟨op, w⟩ := p
  dsimp only
  generalize decodeExtended op = i
  cases i with
  | none =>
      dsimp only
      split
      · exact within_error _
      · exact within_ok (by decide)
  | some i => exact within_ok (execAssigned_cost i _)

theorem execIndexed_cost (x : IndexLead) (z : Processor β) : Within 4 25 (execIndexed x z).2 := by
  unfold execIndexed
  dsimp only
  generalize lookUp (z.peek z.regs.pc) = o
  cases o with
  | plain i =>
      have hc := i.cost_bounds (if i.usesIndex then x.index else .hl)
      have he := exec_cost i (if i.usesIndex then x.index else .hl)
        (if !i.usesIndex || i.usesHalf then
          z.fetch.2.flagUndocumented x.byte (z.peek z.regs.pc) (z.regs.pc - 1) else z.fetch.2)
      refine within_ok ?_
      simp only [Timed.plus, leadCost]
      omega
  | bits =>
      have h := execIndexedBit_cost x z.fetch.2
      exact within_ok (by omega)
  | extended => exact ((execExtended_cost _).plus leadCost).mono (by decide) (by decide)
  | indexed _ => exact within_ok (by decide)

/-- No lead byte is ever left without a cost: each hands on to its page, or costs 4 alone. -/
theorem execute_cost (op : UInt8) (z : Processor β) : Within 4 25 (execute op z).2 := by
  unfold execute
  generalize lookUp op = o
  cases o with
  | plain i =>
      have hc := i.cost_bounds .hl
      have he := exec_cost i .hl z
      exact within_ok (by omega)
  | bits =>
      have h := execBit_cost z
      exact within_ok (by omega)
  | extended => exact (execExtended_cost z).mono (by decide) (by decide)
  | indexed x => exact execIndexed_cost x z

/-! ### Costs of steps -/

theorem acceptIRQ_cost (z : Processor β) : Within 4 27 (acceptIRQ z).2 := by
  unfold acceptIRQ
  dsimp only
  split
  · exact ((execute_cost _ _).plus 2).mono (by decide) (by decide)
  · split <;> exact within_ok (by decide)

/-- Data lines that float read `FF`, which is `RST 38`. -/
theorem execute_cost_floating (z : Processor β) : Within 11 11 (execute 0xFF z).2 := by
  have h : lookUp 0xFF = .plain (.restart 0x38) := (lookUp_eq_decode 0xFF).trans (by decide)
  unfold execute
  rw [h]
  exact within_ok ⟨Nat.le_refl 11, Nat.le_refl 11⟩

theorem acceptIRQ_cost_floating {z : Processor β} (h : z.acknowledge.1 = 0xFF) :
    Within 4 25 (acceptIRQ z).2 := by
  unfold acceptIRQ
  dsimp only
  split
  · rw [show ((z.note _).mapRegs _).acknowledge.1 = 0xFF from h]
    exact ((execute_cost_floating _).plus 2).mono (by decide) (by decide)
  · split <;> exact within_ok (by decide)

theorem runInstruction_cost (z : Processor β) : Within 4 25 (runInstruction z).2 := by
  unfold runInstruction
  dsimp only
  have h := execute_cost z.fetch.1 z.fetch.2
  generalize execute z.fetch.1 z.fetch.2 = o at h
  obtain ⟨w, r⟩ := o
  cases r with
  | error x => exact within_error x
  | ok n => exact h

/-- Nothing but a maskable interrupt makes a step longer than 25 T-states. -/
theorem stepUnclocked_cost {z : Processor β} {high : Nat} (h : Within 4 high (acceptIRQ z).2)
    (hhigh : 25 ≤ high) : Within 4 high (stepUnclocked z).2 := by
  unfold stepUnclocked
  split
  · exact within_ok (n := 11) (by omega)
  · split
    · exact h
    · dsimp only
      split
      · exact within_ok (by omega)
      · exact (runInstruction_cost _).mono (Nat.le_refl 4) hhigh

/-- What bounds a step before its T-states are added to the clock bounds the step. -/
theorem within_step {z w : Processor β} {low high n : Nat}
    (hc : Within low high z.stepUnclocked.2) (h : z.step = (w, .ok n)) : low ≤ n ∧ n ≤ high := by
  unfold step at h
  generalize z.stepUnclocked = o at h hc
  obtain ⟨v, r⟩ := o
  cases r with
  | error x => simp at h
  | ok k =>
      simp only [Prod.mk.injEq, Except.ok.injEq] at h
      rw [← h.2]
      exact hc k rfl

/-- **A step that succeeds takes between 4 and 27 T-states.** -/
theorem step_cost {z w : Processor β} {n : Nat} (h : z.step = (w, .ok n)) : 4 ≤ n ∧ n ≤ 27 :=
  within_step (stepUnclocked_cost (acceptIRQ_cost z) (by decide)) h

/-- If no device drives the data lines, it takes 25 at most. -/
theorem step_cost_floating {z w : Processor β} {n : Nat} (h : z.step = (w, .ok n))
    (hfloat : z.acknowledge.1 = 0xFF) : n ≤ 25 :=
  (within_step (stepUnclocked_cost (acceptIRQ_cost_floating hfloat) (by decide)) h).2

end Processor

end MasterSystem.Z80
