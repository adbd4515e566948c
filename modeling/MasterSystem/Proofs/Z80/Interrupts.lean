import MasterSystem.Z80.Bench
import MasterSystem.Z80.Step

/-! # When interrupts are let through

Two flip-flops and the shadow of `EI` decide whether a maskable interrupt is accepted.

* **Instructions.**  `DI`, `EI` and `RETN` are the only instructions that reach them; any other
  leaves them as they are (`exec_latches`, `execAssigned_latches`).  None makes a note of an
  interrupt, which tells the steps that accept one from the others (`accepts_iff`).
* **Steps.**  `instruction?` is the instruction of the main page that a step runs, and
  `step_handled` what a step does to the flip-flops.
* **Runs.**  A `Run` is a sequence of steps with interrupts raised, and the outside world changed,
  at any points in between.  Along it `iff2` stays behind `iff1`, and masked interrupts stay
  masked until an `EI` and one step more (`interrupts_masked`). -/

namespace MasterSystem.Z80

/-- The flip-flops of interrupts and the shadow of `EI`. -/
def Registers.latches (r : Registers) : Bool × Bool × Bool := (r.iff1, r.iff2, r.eiPending)

namespace Processor

variable {β : Type}

/-- The notes of interrupts that were accepted. -/
def interruptNotes (z : Processor β) : Notes := z.notes.filter fun n => n.category == .interrupts

theorem interruptNotes_note (z : Processor β) {n : Note}
    (h : (n.category == .interrupts) = false) : (z.note n).interruptNotes = z.interruptNotes := by
  simp [interruptNotes, note, h]

/-- What interrupts and a few instructions reach alone. -/
def latches (z : Processor β) : (Bool × Bool × Bool) × Notes := (z.regs.latches, z.interruptNotes)

/-! ### Operands -/

section

variable (z : Processor β)

@[simp] theorem setByte_latches (r : Reg8) (x : Index) (v : UInt8) :
    (z.setByte r x v).latches = z.latches := by cases r <;> cases x <;> rfl

@[simp] theorem setPair_latches (p : Pair) (x : Index) (w : UInt16) :
    (z.setPair p x w).latches = z.latches := by cases p <;> cases x <;> rfl

@[simp] theorem setStackPair_latches (p : StackPair) (x : Index) (w : UInt16) :
    (z.setStackPair p x w).latches = z.latches := by cases p <;> cases x <;> rfl

theorem flagged_latches (p : Prop) [Decidable p] (lead opcode : UInt8) (pc : UInt16) :
    (if p then z.flagUndocumented lead opcode pc else z).latches = z.latches := by
  split
  · exact Prod.ext rfl (z.interruptNotes_note rfl)
  · rfl

variable [Bus β]

@[simp] theorem operandAddress_latches (x : Index) :
    (z.operandAddress x).2.latches = z.latches := by cases x <;> rfl

theorem update_latches (o : Operand) (x : Index) (g : UInt8 → UInt8 → Flagged UInt8) :
    (z.update o x g).latches = z.latches := by
  cases o with
  | reg r => exact z.setByte_latches r x _
  | mem => exact z.operandAddress_latches x

end

variable [Bus β]

/-! ### Instructions -/

/-- Every instruction of the main page but `DI` and `EI` leaves the flip-flops alone. -/
theorem exec_latches {i : Instruction} (hdi : i ≠ .di) (hei : i ≠ .ei) (x : Index)
    (z : Processor β) : (exec i x z).1.latches = z.latches := by
  cases i with
  | di => exact absurd rfl hdi
  | ei => exact absurd rfl hei
  | halt => exact Prod.ext rfl (z.interruptNotes_note rfl)
  | djnz | jrIf _ | retIf _ | jumpIf _ | callIf _ =>
      simp only [exec]
      split <;> rfl
  | loadPair p => exact setPair_latches _ p x _
  | incPair p | decPair p => exact z.setPair_latches p x _
  | pop p => exact setStackPair_latches _ p x _
  | addPair _ | loadIndexAt | exchangeStack => cases x <;> rfl
  | inc o | dec o => exact z.update_latches o x _
  | loadImmediate o =>
      cases o with
      | reg r => exact setByte_latches _ r x _
      | mem => exact z.operandAddress_latches x
  | load t s =>
      cases t with
      | reg r =>
          cases s with
          | reg s => exact z.setByte_latches r x _
          | mem => exact (setByte_latches _ r .hl _).trans (z.operandAddress_latches x)
      | mem =>
          cases s with
          | reg s => exact z.operandAddress_latches x
          | mem => rfl
  | operate op o =>
      cases o with
      | reg r => rfl
      | mem => exact z.operandAddress_latches x
  | _ => rfl

theorem execBit_latches (z : Processor β) : (execBit z).1.latches = z.latches := by
  unfold execBit
  dsimp only
  split
  · exact (setByte_latches _ _ .hl _).trans (flagged_latches z.fetch.2 _ _ _ _)
  · split <;> exact flagged_latches z.fetch.2 _ _ _ _

theorem execIndexedBit_latches (x : IndexLead) (z : Processor β) :
    (execIndexedBit x z).1.latches = z.latches := by
  have haddress := z.operandAddress_latches x.index
  unfold execIndexedBit
  dsimp only
  generalize z.operandAddress x.index = p at haddress ⊢
  split
  · exact (flagged_latches p.2.nextByte.2 _ _ _ _).trans haddress
  · split
    · refine (setByte_latches _ _ .hl _).trans ?_
      exact (flagged_latches p.2.nextByte.2 _ _ _ _).trans haddress
    · exact (flagged_latches p.2.nextByte.2 _ _ _ _).trans haddress

theorem execBlock_latches (op : BlockOperation) (down repeats : Bool) (z : Processor β) :
    (execBlock op down repeats z).1.latches = z.latches := by
  have hround : (blockRound op down z).1.latches = z.latches := by cases op <;> rfl
  unfold execBlock
  dsimp only
  split <;> exact hround

/-- Every instruction of the extended page but `RETN` leaves the flip-flops alone. -/
theorem execAssigned_latches {i : Extended} (h : i ≠ .retn) (z : Processor β) :
    (execAssigned i z).1.latches = z.latches := by
  cases i with
  | retn => exact absurd rfl h
  | inPort r =>
      cases r with
      | none => rfl
      | some r => exact setByte_latches _ r .hl _
  | loadPairAt p => exact setPair_latches _ p .hl _
  | block op down repeats => exact execBlock_latches op down repeats z
  | _ => rfl

/-! ### Opcodes -/

/-- The instruction of the main page that an opcode byte runs, also after a lead byte of an index
register. -/
def mainInstruction? (op : UInt8) (z : Processor β) : Option Instruction :=
  match lookUp op with
  | .plain i => some i
  | .indexed _ =>
    match lookUp (z.peek z.regs.pc) with
    | .plain i => some i
    | _ => none
  | _ => none

/-- What an instruction of the main page, or another one, does to the flip-flops. -/
structure Handled (i : Option Instruction) (r s : Registers) : Prop where
  di : i = some .di → s.iff1 = false ∧ s.iff2 = false
  ei : i = some .ei → s.iff1 = true ∧ s.iff2 = true ∧ s.eiPending = true
  other : i ≠ some .di → i ≠ some .ei → (s.iff1 = r.iff1 ∨ s.iff1 = r.iff2) ∧ s.iff2 = r.iff2

theorem handled_none {r s : Registers} (h1 : s.iff1 = r.iff1 ∨ s.iff1 = r.iff2)
    (h2 : s.iff2 = r.iff2) : Handled none r s :=
  ⟨by simp, by simp, fun _ _ => ⟨h1, h2⟩⟩

theorem handled_of_latches {r s : Registers} (h : s.latches = r.latches) : Handled none r s :=
  handled_none (.inl (congrArg Prod.fst h)) (congrArg (fun p => p.2.1) h)

theorem Handled.congr {i j : Option Instruction} {r q s : Registers} (h : Handled i r s)
    (hi : i = j) (hr : r.latches = q.latches) : Handled j q s := by
  have h1 : r.iff1 = q.iff1 := congrArg Prod.fst hr
  have h2 : r.iff2 = q.iff2 := congrArg (fun p => p.2.1) hr
  subst hi
  refine ⟨h.di, h.ei, ?_⟩
  rw [← h1, ← h2]
  exact h.other

theorem exec_handled (i : Instruction) (x : Index) (z : Processor β) :
    Handled (some i) z.regs (exec i x z).1.regs where
  di h := by
    obtain rfl := Option.some.inj h
    exact ⟨rfl, rfl⟩
  ei h := by
    obtain rfl := Option.some.inj h
    exact ⟨rfl, rfl, rfl⟩
  other hdi hei := by
    have h := exec_latches (fun h => hdi (h ▸ rfl)) (fun h => hei (h ▸ rfl)) x z
    exact ⟨.inl (congrArg (fun p => p.1.1) h), congrArg (fun p => p.1.2.1) h⟩

theorem execAssigned_handled (i : Extended) (z : Processor β) :
    Handled none z.regs (execAssigned i z).1.regs := by
  by_cases hi : i = .retn
  · subst hi
    exact handled_none (.inr rfl) rfl
  · exact handled_of_latches (congrArg Prod.fst (execAssigned_latches hi z))

theorem execExtended_handled (z : Processor β) :
    Handled none z.regs (execExtended z).1.regs := by
  unfold execExtended
  dsimp only
  generalize decodeExtended z.fetch.1 = d
  cases d with
  | none =>
      dsimp only
      split <;> exact handled_none (.inl rfl) rfl
  | some i =>
      have hflag := z.fetch.2.flagged_latches (isAlias z.fetch.1 = true) 0xED z.fetch.1
        (z.regs.pc - 1)
      exact (execAssigned_handled i _).congr rfl (congrArg Prod.fst hflag)

/-- What running an opcode byte does to the flip-flops. -/
theorem execute_handled (op : UInt8) (z : Processor β) :
    Handled (mainInstruction? op z) z.regs (execute op z).1.regs := by
  unfold execute mainInstruction?
  generalize lookUp op = o
  cases o with
  | plain i => exact exec_handled i .hl z
  | bits => exact handled_of_latches (congrArg Prod.fst (execBit_latches z))
  | extended => exact execExtended_handled z
  | indexed x =>
      unfold execIndexed
      dsimp only
      generalize lookUp (z.peek z.regs.pc) = o
      cases o with
      | indexed _ => exact handled_none (.inl rfl) rfl
      | extended =>
          exact (execExtended_handled (z.flagUndocumented _ _ _).fetch.2).congr rfl rfl
      | bits =>
          exact handled_of_latches (congrArg Prod.fst (execIndexedBit_latches x z.fetch.2))
      | plain i =>
          have hflag := z.fetch.2.flagged_latches ((!i.usesIndex || i.usesHalf) = true) x.byte
            (z.peek z.regs.pc) (z.regs.pc - 1)
          exact (exec_handled i _ _).congr rfl (congrArg Prod.fst hflag)

/-! ### Steps -/

/-- Whether a step accepts a maskable interrupt. -/
def accepts (z : Processor β) : Bool := !z.regs.nmiPending && acceptsIRQ z.regs

/-- The instruction of the main page that a step runs, if it runs one: the one at the program
counter, or in interrupt mode 0 the one that the interrupting device gives. -/
def instruction? (z : Processor β) : Option Instruction :=
  if z.regs.nmiPending then none
  else if acceptsIRQ z.regs then
    if z.regs.im == 0 then mainInstruction? z.acknowledge.1 z.acknowledge.2 else none
  else if z.regs.halted then none
  else mainInstruction? z.fetch.1 z.fetch.2

/-- The registers when a step has seen which interrupts wait, before its instruction. -/
def sampled (r : Registers) : Registers :=
  if r.nmiPending then { r with iff1 := false }
  else if acceptsIRQ r then { r with iff1 := false, iff2 := false }
  else { r with eiPending := false }

theorem mainInstruction?_congr (op : UInt8) {z w : Processor β} (hpc : z.regs.pc = w.regs.pc)
    (hbus : z.bus = w.bus) : mainInstruction? op z = mainInstruction? op w := by
  have hpeek : z.peek z.regs.pc = w.peek w.regs.pc := by
    unfold peek
    rw [hpc, hbus]
  unfold mainInstruction?
  rw [hpeek]

theorem acceptNMI_latches (z : Processor β) :
    (acceptNMI z).1.regs.iff1 = false ∧ (acceptNMI z).1.regs.iff2 = z.regs.iff2 := by
  constructor
  · simp [acceptNMI, push, poke, jumpTo, mapRegs, note]
  · simp [acceptNMI, push, poke, jumpTo, mapRegs, note, Registers.refresh]

/-- The data lines do not depend on what was noted and done to the registers before. -/
theorem acknowledge_ready (z : Processor β) (n : Note) (g : Registers → Registers) :
    ((z.note n).mapRegs g).acknowledge = (z.acknowledge.1,
      { z.acknowledge.2 with regs := g z.regs, notes := z.notes.push n }) := rfl

theorem acceptIRQ_handled (z : Processor β) :
    Handled (if z.regs.im == 0 then mainInstruction? z.acknowledge.1 z.acknowledge.2 else none)
      { z.regs with iff1 := false, iff2 := false } z.acceptIRQ.1.regs := by
  unfold acceptIRQ
  dsimp only
  rw [acknowledge_ready]
  dsimp only
  by_cases him : (z.regs.im == 0) = true
  · rw [if_pos him, if_pos (show (z.regs.refresh.im == 0) = true from him)]
    unfold Outcome.plus
    dsimp only
    refine (execute_handled _ _).congr ?_ ?_
    · exact mainInstruction?_congr _ rfl rfl
    · rfl
  · rw [if_neg him, if_neg (show ¬ (z.regs.refresh.im == 0) = true from him)]
    split <;> exact handled_none (.inl rfl) rfl

theorem runInstruction_handled (z : Processor β) :
    Handled (mainInstruction? z.fetch.1 z.fetch.2) z.regs z.runInstruction.1.regs := by
  have hlatches : z.fetch.2.regs.latches = z.regs.latches := rfl
  have h := (execute_handled z.fetch.1 z.fetch.2).congr rfl hlatches
  unfold runInstruction
  dsimp only
  generalize execute z.fetch.1 z.fetch.2 = o at h ⊢
  obtain ⟨w, x | n⟩ := o
  · exact ⟨h.di, h.ei, h.other⟩
  · exact h

/-- What a step does to the flip-flops. -/
theorem stepUnclocked_handled (z : Processor β) :
    Handled z.instruction? (sampled z.regs) z.stepUnclocked.1.regs := by
  unfold stepUnclocked instruction? sampled
  by_cases hn : z.regs.nmiPending = true
  · rw [if_pos hn, if_pos hn, if_pos hn]
    obtain ⟨h1, h2⟩ := acceptNMI_latches (z.mapRegs fun s => { s with nmiPending := false })
    exact handled_none (.inl h1) h2
  · rw [if_neg hn, if_neg hn, if_neg hn]
    by_cases hi : acceptsIRQ z.regs = true
    · rw [if_pos hi, if_pos hi, if_pos hi]
      exact acceptIRQ_handled z
    · rw [if_neg hi, if_neg hi, if_neg hi]
      have hmain : mainInstruction? (z.mapRegs fun s => { s with eiPending := false }).fetch.1
          (z.mapRegs fun s => { s with eiPending := false }).fetch.2 =
          mainInstruction? z.fetch.1 z.fetch.2 := mainInstruction?_congr _ rfl rfl
      generalize hw : z.mapRegs (fun s => { s with eiPending := false }) = w at hmain ⊢
      have hregs : w.regs = { z.regs with eiPending := false } := by
        rw [← hw]
        rfl
      rw [← hregs]
      dsimp only
      by_cases hh : z.regs.halted = true
      · rw [if_pos hh, if_pos (hregs ▸ hh)]
        exact handled_none (.inl rfl) rfl
      · rw [if_neg hh, if_neg (hregs ▸ hh), ← hmain]
        exact runInstruction_handled w

/-- A step that runs an instruction of the main page. -/
theorem step_plain {z : Processor β} {op : UInt8} {i : Instruction}
    (hn : z.regs.nmiPending = false) (hi : acceptsIRQ z.regs = false)
    (hh : z.regs.halted = false) (hpeek : z.peek z.regs.pc = op) (hdecode : decode op = .plain i)
    {t : Timed β}
    (ht : exec i .hl (z.mapRegs fun s => { s with eiPending := false }).fetch.2 = t) :
    z.instruction? = some i ∧
      z.step =
        (t.1.mapRegs fun s => { s with cycles := s.cycles + UInt64.ofNat t.2 }, .ok t.2) := by
  subst ht
  have hop : lookUp (z.peek z.regs.pc) = .plain i := by rw [hpeek, lookUp_eq_decode, hdecode]
  have hmain : mainInstruction? z.fetch.1 z.fetch.2 = some i := by
    have hop : lookUp z.fetch.1 = .plain i := hop
    unfold mainInstruction?
    rw [hop]
  have hop : lookUp (z.mapRegs fun s => { s with eiPending := false }).fetch.1 = .plain i := hop
  have hh' : (z.mapRegs fun s => { s with eiPending := false }).regs.halted = false := hh
  refine ⟨?_, ?_⟩
  · unfold instruction?
    simp only [hn, hi, hh, hmain, Bool.false_eq_true, if_false]
  · unfold step stepUnclocked
    rw [hn, hi, if_neg (by decide), if_neg (by decide)]
    dsimp only
    rw [hh', if_neg (by decide)]
    unfold runInstruction execute
    dsimp only
    rw [hop]
    rfl

theorem step_handled {z w : Processor β} {n : Nat} (h : z.step = (w, .ok n)) :
    Handled z.instruction? (sampled z.regs) w.regs := by
  have hz := stepUnclocked_handled z
  unfold step at h
  generalize z.stepUnclocked = o at h hz
  obtain ⟨v, x | k⟩ := o
  · simp at h
  · obtain rfl : _ = w := congrArg Prod.fst h
    exact ⟨hz.di, hz.ei, hz.other⟩

/-! ### The record -/

theorem exec_interruptNotes (i : Instruction) (x : Index) (z : Processor β) :
    (exec i x z).1.interruptNotes = z.interruptNotes := by
  by_cases hdi : i = .di
  · subst hdi
    rfl
  · by_cases hei : i = .ei
    · subst hei
      rfl
    · exact congrArg Prod.snd (exec_latches hdi hei x z)

theorem execAssigned_interruptNotes (i : Extended) (z : Processor β) :
    (execAssigned i z).1.interruptNotes = z.interruptNotes := by
  by_cases hi : i = .retn
  · subst hi
    rfl
  · exact congrArg Prod.snd (execAssigned_latches hi z)

theorem execExtended_interruptNotes (z : Processor β) :
    (execExtended z).1.interruptNotes = z.interruptNotes := by
  unfold execExtended
  dsimp only
  generalize decodeExtended z.fetch.1 = d
  cases d with
  | none =>
      dsimp only
      split
      · rfl
      · exact z.interruptNotes_note rfl
  | some i =>
      have hflag := congrArg Prod.snd (z.fetch.2.flagged_latches (isAlias z.fetch.1 = true) 0xED
        z.fetch.1 (z.regs.pc - 1))
      exact (execAssigned_interruptNotes i _).trans hflag

/-- No instruction makes a note of an interrupt. -/
theorem execute_interruptNotes (op : UInt8) (z : Processor β) :
    (execute op z).1.interruptNotes = z.interruptNotes := by
  unfold execute
  generalize lookUp op = o
  cases o with
  | plain i => exact exec_interruptNotes i .hl z
  | bits => exact congrArg Prod.snd (execBit_latches z)
  | extended => exact execExtended_interruptNotes z
  | indexed x =>
      unfold execIndexed
      dsimp only
      generalize lookUp (z.peek z.regs.pc) = o
      cases o with
      | indexed _ => exact z.interruptNotes_note rfl
      | extended => exact (execExtended_interruptNotes _).trans (z.interruptNotes_note rfl)
      | bits => exact congrArg Prod.snd (execIndexedBit_latches x z.fetch.2)
      | plain i =>
          exact (exec_interruptNotes i _ _).trans
            (congrArg Prod.snd (z.fetch.2.flagged_latches _ _ _ _))

theorem acceptIRQ_interruptNotes (z : Processor β) : z.acceptIRQ.1.interruptNotes =
    z.interruptNotes.push (.irq z.regs.im z.regs.pc) := by
  have hnote : (z.note (.irq z.regs.im z.regs.pc)).interruptNotes =
      z.interruptNotes.push (.irq z.regs.im z.regs.pc) := by
    simp [interruptNotes, note, Note.category]
  rw [← hnote]
  unfold acceptIRQ
  dsimp only
  rw [acknowledge_ready]
  dsimp only
  split
  · unfold Outcome.plus
    dsimp only
    rw [execute_interruptNotes]
    rfl
  · split
    · simp [interruptNotes, note, push, poke, jumpTo, mapRegs]
    · simp [interruptNotes, note, push, poke, jumpTo, mapRegs]

theorem runInstruction_interruptNotes (z : Processor β) :
    z.runInstruction.1.interruptNotes = z.interruptNotes := by
  have h := execute_interruptNotes z.fetch.1 z.fetch.2
  unfold runInstruction
  dsimp only
  generalize execute z.fetch.1 z.fetch.2 = o at h ⊢
  obtain ⟨w, x | n⟩ := o
  · exact h
  · exact h

theorem step_interruptNotes (z : Processor β) : z.step.1.interruptNotes =
    if z.regs.nmiPending then z.interruptNotes.push (.nmi z.regs.pc)
    else if acceptsIRQ z.regs then z.interruptNotes.push (.irq z.regs.im z.regs.pc)
    else z.interruptNotes := by
  have hstep : z.step.1.interruptNotes = z.stepUnclocked.1.interruptNotes := by
    unfold step
    generalize z.stepUnclocked = o
    obtain ⟨w, x | n⟩ := o <;> rfl
  rw [hstep]
  unfold stepUnclocked
  dsimp only
  split
  · simp [acceptNMI, Timed.done, interruptNotes, note, push, poke, jumpTo, mapRegs, Note.category]
  · split
    · exact z.acceptIRQ_interruptNotes
    · split
      · rfl
      · exact runInstruction_interruptNotes _

/-- A step accepts a maskable interrupt exactly if it makes a note of it. -/
theorem accepts_iff (z : Processor β) : z.accepts = true ↔
    ∃ mode pc, z.step.1.interruptNotes = z.interruptNotes.push (.irq mode pc) := by
  rw [step_interruptNotes]
  unfold accepts
  by_cases hn : z.regs.nmiPending = true
  · simp [hn, Array.push_eq_push]
  · by_cases hi : acceptsIRQ z.regs = true
    · simp [hn, hi, Array.push_eq_push]
    · simp [hn, hi]

/-! ### Runs -/

/-- A run from one processor to another, with the processors before each of its steps.  Between
steps the interrupt lines take any level, and the outside world does as it likes. -/
inductive Run (z : Processor β) : List (Processor β) → Processor β → Prop where
  | start : Run z [] z
  | irqLine {w : Processor β} {zs} (level : Bool) : Run z zs w → Run z zs (w.setIrqLine level)
  | nmi {w : Processor β} {zs} : Run z zs w → Run z zs w.requestNMI
  | world {w : Processor β} {zs} (b : β) : Run z zs w → Run z zs { w with bus := b }
  | step {w w' : Processor β} {zs n} : Run z zs w → w.step = (w', .ok n) → Run z (zs ++ [w]) w'

/-- `iff2` stays behind `iff1`. -/
theorem Handled.ordered {i : Option Instruction} {r s : Registers} (h : Handled i (sampled r) s)
    (hr : r.iff1 = true → r.iff2 = true) : s.iff1 = true → s.iff2 = true := by
  have hsampled : (sampled r).iff1 = true → (sampled r).iff2 = true := by
    unfold sampled
    split
    · simp
    · split
      · simp
      · exact hr
  by_cases hdi : i = some .di
  · simp [(h.di hdi).1]
  · by_cases hei : i = some .ei
    · simp [(h.ei hei).2.1]
    · obtain ⟨h1, h2⟩ := h.other hdi hei
      intro hs
      rw [h2]
      rcases h1 with h1 | h1
      · exact hsampled (h1 ▸ hs)
      · exact h1 ▸ hs

/-- Both flip-flops are off. -/
def Masked (r : Registers) : Prop := r.iff1 = false ∧ r.iff2 = false

theorem Masked.sampled {r : Registers} (h : Masked r) : Masked (sampled r) := by
  unfold Processor.sampled
  split
  · exact ⟨rfl, h.2⟩
  · split
    · exact ⟨rfl, rfl⟩
    · exact h

/-- Only `EI` turns them on. -/
theorem Handled.masked {i : Option Instruction} {r s : Registers} (h : Handled i r s)
    (hei : i ≠ some .ei) (hr : Masked r) : Masked s := by
  by_cases hdi : i = some .di
  · exact h.di hdi
  · obtain ⟨h1, h2⟩ := h.other hdi hei
    refine ⟨?_, h2.trans hr.2⟩
    rcases h1 with h1 | h1
    · exact h1.trans hr.1
    · exact h1.trans hr.2

/-- After `DI`, and after an interrupt that was accepted in a mode without an instruction of its
own, both flip-flops are off. -/
theorem masked_of_step {z w : Processor β} {n : Nat} (h : z.step = (w, .ok n))
    (hz : z.instruction? = some .di ∨ z.accepts = true ∧ z.regs.im ≠ 0) : Masked w.regs := by
  have hw := step_handled h
  rcases hz with hdi | ⟨haccepts, him⟩
  · exact hw.di hdi
  · unfold accepts at haccepts
    rw [Bool.and_eq_true, Bool.not_eq_true'] at haccepts
    obtain ⟨hn, hi⟩ := haccepts
    have hinstruction : z.instruction? = none := by
      unfold instruction?
      simp [hn, hi, him]
    refine hw.masked (by simp [hinstruction]) ?_
    unfold sampled
    simp [hn, hi, Masked]

/-- What a run that starts masked has come to: it is still masked, or has just run an `EI`, or has
made a step since. -/
def Unmasking (zs : List (Processor β)) (r : Registers) : Prop :=
  Masked r ∨
  (∃ ys y, zs = ys ++ [y] ∧ y.instruction? = some .ei ∧ r.eiPending = true) ∨
  ∃ xs y y' ys, zs = xs ++ y :: y' :: ys ∧ y.instruction? = some .ei

theorem Unmasking.step {zs : List (Processor β)} {z w : Processor β} {n : Nat}
    (h : Unmasking zs z.regs) (hstep : z.step = (w, .ok n)) : Unmasking (zs ++ [z]) w.regs := by
  have hw := step_handled hstep
  rcases h with hmasked | ⟨ys, y, rfl, hy, -⟩ | ⟨xs, y, y', ys, rfl, hy⟩
  · by_cases hei : z.instruction? = some .ei
    · exact .inr (.inl ⟨zs, z, rfl, hei, (hw.ei hei).2.2⟩)
    · exact .inl (hw.masked hei hmasked.sampled)
  · exact .inr (.inr ⟨ys, y, z, [], by simp, hy⟩)
  · exact .inr (.inr ⟨xs, y, y', ys ++ [z], by simp, hy⟩)

theorem Run.unmasking {z w : Processor β} {zs : List (Processor β)} (h : Run z zs w)
    (hz : Masked z.regs) : Unmasking zs w.regs := by
  induction h with
  | start => exact .inl hz
  | irqLine level _ ih => exact ih
  | nmi _ ih => exact ih
  | world b _ ih => exact ih
  | step _ hstep ih => exact ih.step hstep

/-- **Interrupts stay masked.**  From a reset on `iff1` is never set without `iff2`.  Once a step
has run `DI`, or accepted a maskable interrupt in mode 1 or 2, no step accepts one before another
step has run `EI` and a further one has been made, whatever comes in between.  The steps that accept
one are those that make a note of it. -/
theorem interrupts_masked (z : Processor β) :
    (∀ zs w, Run z.reset zs w → w.regs.iff1 = true → w.regs.iff2 = true) ∧
    (∀ us u v n, Run z.reset us u → u.step = (v, .ok n) →
      u.instruction? = some .di ∨ u.accepts = true ∧ u.regs.im ≠ 0 →
      ∀ zs w, Run v zs w → w.accepts = true →
        ∃ xs y y' ys, zs = xs ++ y :: y' :: ys ∧ y.instruction? = some .ei) ∧
    ∀ v : Processor β, v.accepts = true ↔
      ∃ mode pc, v.step.1.interruptNotes = v.interruptNotes.push (.irq mode pc) := by
  refine ⟨?_, ?_, accepts_iff⟩
  · intro zs w h
    induction h with
    | start => simp [reset, Registers.afterReset]
    | irqLine level _ ih => exact ih
    | nmi _ ih => exact ih
    | world b _ ih => exact ih
    | step _ hstep ih => exact (step_handled hstep).ordered ih
  · intro us u v n _ hstep hu zs w h haccepts
    have hw := h.unmasking (masked_of_step hstep hu)
    unfold accepts acceptsIRQ at haccepts
    rw [Bool.and_eq_true, Bool.and_eq_true, Bool.and_eq_true, Bool.not_eq_true',
      Bool.not_eq_true'] at haccepts
    obtain ⟨-, ⟨-, hiff⟩, hpending⟩ := haccepts
    rcases hw with ⟨hmasked, -⟩ | ⟨_, _, -, -, hei⟩ | hrest
    · simp [hiff] at hmasked
    · simp [hpending] at hei
    · exact hrest

/-- A program that masks interrupts, lets them through again and makes a step while the line is
active. -/
theorem interrupts_masked_of_di : ∃ (z u v w : Processor Bench) (zs : List (Processor Bench)),
    Run z.reset [] u ∧ u.step = (v, .ok 4) ∧ u.instruction? = some .di ∧ Run v zs w ∧
      w.accepts = true ∧ ∃ xs y y' ys, zs = xs ++ y :: y' :: ys ∧ y.instruction? = some .ei := by
  obtain ⟨b, h0, h1, h2⟩ : ∃ b : Bench, Bus.read b 0 = 0xF3 ∧ Bus.read b 1 = 0xFB ∧
      Bus.read b 2 = 0x00 := by
    refine ⟨{ memory := Memory.blank.storeAll 0 [0xF3, 0xFB, 0x00] }, ?_⟩
    simp [Bus.read, Memory.storeAll, Memory.byteAt_store_ne, Memory.byteAt_store_same]
  let z : Processor Bench := { bus := b }
  have hu : Run z.reset [] (z.reset.setIrqLine true) := .irqLine true .start
  obtain ⟨hdi, hstep⟩ := step_plain (z := z.reset.setIrqLine true) (i := .di) rfl rfl rfl h0
    (by decide) rfl
  obtain ⟨v, hv, hbus, hpc, hline, hn, hh, hiff⟩ : ∃ v : Processor Bench,
      (z.reset.setIrqLine true).step = (v, .ok 4) ∧ v.bus = b ∧ v.regs.pc = 1 ∧
        v.regs.irqLine = true ∧ v.regs.nmiPending = false ∧ v.regs.halted = false ∧
        v.regs.iff1 = false := ⟨_, hstep, rfl, rfl, rfl, rfl, rfl, rfl⟩
  have hirq : acceptsIRQ v.regs = false := by simp [acceptsIRQ, hiff]
  have hpeek : v.peek v.regs.pc = 0xFB := by
    unfold peek
    rw [hpc, hbus, h1]
  obtain ⟨hei, hstep₁⟩ := step_plain hn hirq hh hpeek (i := .ei) (by decide) rfl
  obtain ⟨v₁, hv₁, hbus₁, hpc₁, hline₁, hn₁, hh₁, hiff₁, hpending⟩ : ∃ v₁ : Processor Bench,
      v.step = (v₁, .ok 4) ∧ v₁.bus = b ∧ v₁.regs.pc = 2 ∧ v₁.regs.irqLine = true ∧
        v₁.regs.nmiPending = false ∧ v₁.regs.halted = false ∧ v₁.regs.iff1 = true ∧
        v₁.regs.eiPending = true := by
    refine ⟨_, hstep₁, ?_⟩
    simp [exec, fetch, mapRegs, Registers.refresh, hbus, hpc, hline, hn, hh]
  have hirq₁ : acceptsIRQ v₁.regs = false := by simp [acceptsIRQ, hpending]
  have hpeek₁ : v₁.peek v₁.regs.pc = 0x00 := by
    unfold peek
    rw [hpc₁, hbus₁, h2]
  obtain ⟨-, hstep₂⟩ := step_plain hn₁ hirq₁ hh₁ hpeek₁ (i := .nop) (by decide) rfl
  obtain ⟨w, hw, haccepts⟩ : ∃ w : Processor Bench, v₁.step = (w, .ok 4) ∧ w.accepts = true := by
    refine ⟨_, hstep₂, ?_⟩
    simp [accepts, acceptsIRQ, exec, fetch, mapRegs, Registers.refresh, hline₁, hn₁, hiff₁]
  have hrun : Run v [v, v₁] w := .step (.step .start hv₁) hw
  have hmasked := (interrupts_masked z).2.1 _ _ v _ hu hv (.inl hdi) _ w hrun haccepts
  exact ⟨z, _, v, w, _, hu, hv, hdi, hrun, haccepts, hmasked⟩

end Processor

end MasterSystem.Z80
