import MasterSystem.Z80.Step

/-! # Processors on related buses

A processor knows its bus only through the five operations of `Bus`.  A map between buses that
commutes with them (`Bus.Hom`) therefore commutes with every instruction and every step.

* **Settings.**  `Processor.onto` maps a processor to another bus, and puts it into a life of its
  own: its clock reads a given number, and its audit and its notes follow those of a given past.
  That no instruction looks at any of them is part of the same law (`exec_onto`,
  `stepUnclocked_onto`).
* **Simulation.**  For a relation between two buses that every operation preserves
  (`Bus.Simulation`), the pairs that stand in it are a bus as well, with a map to either side.
  Hence processors that agree keep agreeing (`Agree.step`), whatever the relation is.
* **Invariants.**  A property that every operation preserves is a relation of a bus with itself
  (`Bus.Invariant`, `step_invariant`). -/

namespace MasterSystem.Z80

variable {β γ : Type} [Bus β] [Bus γ]

/-- A map between buses that commutes with all operations. -/
structure Bus.Hom (β γ : Type) [Bus β] [Bus γ] where
  map : β → γ
  read : ∀ b a, Bus.read (map b) a = Bus.read b a
  write : ∀ b a v, Bus.write (map b) a v = map (Bus.write b a v)
  input : ∀ b p, Bus.input (map b) p = ((Bus.input b p).1, map (Bus.input b p).2)
  output : ∀ b p v, Bus.output (map b) p v = map (Bus.output b p v)
  vector : ∀ b, Bus.vector (map b) = ((Bus.vector b).1, map (Bus.vector b).2)

/-- What a processor is put into: another bus, a reading of the clock and a past. -/
structure Setting (β γ : Type) [Bus β] [Bus γ] where
  hom : Bus.Hom β γ
  strict : Bool
  clock : UInt64
  audit : Audit
  notes : Notes

namespace Processor

/-- The processor in a setting. -/
def onto (s : Setting β γ) (z : Processor β) : Processor γ where
  regs := { z.regs with cycles := s.clock }
  strict := s.strict
  audit := ⟨s.audit.undocumented + z.audit.undocumented, s.audit.unassigned + z.audit.unassigned,
    z.audit.last.or s.audit.last⟩
  notes := s.notes ++ z.notes
  bus := s.hom.map z.bus

section

variable (s : Setting β γ) (z : Processor β)

/-! ### Registers -/

theorem mapRegs_onto (g : Registers → Registers)
    (h : ∀ r n, g { r with cycles := n } = { g r with cycles := n }) :
    (z.onto s).mapRegs g = (z.mapRegs g).onto s := by
  unfold mapRegs onto
  rw [h]

@[simp] theorem ite_onto (p : Prop) [Decidable p] (w : Processor β) :
    (if p then z.onto s else w.onto s) = (if p then z else w).onto s := by
  split <;> rfl

@[simp] theorem regs_onto : (z.onto s).regs = { z.regs with cycles := s.clock } := rfl

@[simp] theorem strict_onto : (z.onto s).strict = s.strict := rfl

@[simp] theorem index_cycles (r : Registers) (x : Index) (n : UInt64) :
    ({ r with cycles := n } : Registers).index x = r.index x := by cases x <;> rfl

@[simp] theorem byte_onto (r : Reg8) (x : Index) : (z.onto s).byte r x = z.byte r x := by
  cases r <;> cases x <;> rfl

@[simp] theorem pair_onto (p : Pair) (x : Index) : (z.onto s).pair p x = z.pair p x := by
  cases p <;> cases x <;> rfl

@[simp] theorem stackPair_onto (p : StackPair) (x : Index) :
    (z.onto s).stackPair p x = z.stackPair p x := by
  cases p <;> cases x <;> rfl

@[simp] theorem setByte_onto (r : Reg8) (x : Index) (v : UInt8) :
    (z.onto s).setByte r x v = (z.setByte r x v).onto s := by
  cases r <;> cases x <;> rfl

@[simp] theorem setPair_onto (p : Pair) (x : Index) (w : UInt16) :
    (z.onto s).setPair p x w = (z.setPair p x w).onto s := by
  cases p <;> cases x <;> rfl

@[simp] theorem setStackPair_onto (p : StackPair) (x : Index) (w : UInt16) :
    (z.onto s).setStackPair p x w = (z.setStackPair p x w).onto s := by
  cases p <;> cases x <;> rfl

@[simp] theorem setFlags_onto (f : UInt8) : (z.onto s).setFlags f = (z.setFlags f).onto s := rfl

@[simp] theorem setResult_onto (r : Flagged UInt8) :
    (z.onto s).setResult r = (z.setResult r).onto s := rfl

@[simp] theorem jumpTo_onto (pc : UInt16) : (z.onto s).jumpTo pc = (z.jumpTo pc).onto s := rfl

@[simp] theorem latch_onto (wz : UInt16) : (z.onto s).latch wz = (z.latch wz).onto s := rfl

@[simp] theorem skipByte_onto : (z.onto s).skipByte = z.skipByte.onto s := rfl

/-! ### Notes -/

@[simp] theorem note_onto (n : Note) : (z.onto s).note n = (z.note n).onto s := by
  simp [note, onto]

@[simp] theorem flagUndocumented_onto (lead opcode : UInt8) (pc : UInt16) :
    (z.onto s).flagUndocumented lead opcode pc = (z.flagUndocumented lead opcode pc).onto s := by
  simp [flagUndocumented, onto, Nat.add_assoc]

@[simp] theorem flagUnassigned_onto (opcode : UInt8) (pc : UInt16) :
    (z.onto s).flagUnassigned opcode pc = (z.flagUnassigned opcode pc).onto s := by
  simp [flagUnassigned, onto, Nat.add_assoc]

/-! ### Memory and ports -/

@[simp] theorem peek_onto (a : UInt16) : (z.onto s).peek a = z.peek a := s.hom.read ..

@[simp] theorem peekWord_onto (a : UInt16) : (z.onto s).peekWord a = z.peekWord a := by
  simp only [peekWord, peek_onto]

@[simp] theorem poke_onto (a : UInt16) (v : UInt8) : (z.onto s).poke a v = (z.poke a v).onto s := by
  simp only [poke, onto, s.hom.write]

@[simp] theorem pokeWord_onto (a w : UInt16) :
    (z.onto s).pokeWord a w = (z.pokeWord a w).onto s := by
  simp only [pokeWord, poke_onto]

@[simp] theorem input_onto (p : UInt16) :
    (z.onto s).input p = ((z.input p).1, (z.input p).2.onto s) := by
  simp only [input, onto, s.hom.input]

@[simp] theorem output_onto (p : UInt16) (v : UInt8) :
    (z.onto s).output p v = (z.output p v).onto s := by
  simp only [output, onto, s.hom.output]

@[simp] theorem acknowledge_onto :
    (z.onto s).acknowledge = (z.acknowledge.1, z.acknowledge.2.onto s) := by
  simp only [acknowledge, onto, s.hom.vector]

@[simp] theorem push_onto (w : UInt16) : (z.onto s).push w = (z.push w).onto s := by
  simp only [push, poke_onto, regs_onto]
  rfl

@[simp] theorem popWord_onto : (z.onto s).popWord = (z.popWord.1, z.popWord.2.onto s) := by
  simp only [popWord, peekWord_onto, regs_onto]
  rfl

@[simp] theorem nextByte_onto : (z.onto s).nextByte = (z.nextByte.1, z.nextByte.2.onto s) := by
  simp only [nextByte, peek_onto, regs_onto]
  rfl

@[simp] theorem nextWord_onto : (z.onto s).nextWord = (z.nextWord.1, z.nextWord.2.onto s) := by
  simp only [nextWord, peekWord_onto, regs_onto]
  rfl

@[simp] theorem fetch_onto : (z.onto s).fetch = (z.fetch.1, z.fetch.2.onto s) := by
  simp only [fetch, peek_onto, regs_onto]
  rfl

/-! ### Operands -/

@[simp] theorem operandAddress_onto (x : Index) :
    (z.onto s).operandAddress x = ((z.operandAddress x).1, (z.operandAddress x).2.onto s) := by
  cases x <;> simp only [operandAddress, nextByte_onto, latch_onto, regs_onto, index_cycles]

@[simp] theorem operand_onto (o : Operand) (x : Index) :
    (z.onto s).operand o x = ((z.operand o x).1, (z.operand o x).2.onto s) := by
  cases o <;> simp only [operand, byte_onto, operandAddress_onto, peek_onto]

@[simp] theorem update_onto (o : Operand) (x : Index) (g : UInt8 → UInt8 → Flagged UInt8) :
    (z.onto s).update o x g = (z.update o x g).onto s := by
  cases o <;>
    simp only [update, byte_onto, operandAddress_onto, peek_onto, regs_onto, setByte_onto,
      setFlags_onto, poke_onto]

@[simp] theorem relativeJump_onto : (z.onto s).relativeJump = z.relativeJump.onto s := by
  simp only [relativeJump, nextByte_onto, jumpTo_onto, regs_onto]

@[simp] theorem storeAccumulator_onto (a : UInt16) :
    (z.onto s).storeAccumulator a = (z.storeAccumulator a).onto s := by
  simp only [storeAccumulator, latchAfterStore, poke_onto, latch_onto, regs_onto]

@[simp] theorem loadAccumulator_onto (a : UInt16) :
    (z.onto s).loadAccumulator a = (z.loadAccumulator a).onto s := by
  simp only [loadAccumulator, peek_onto]
  rfl

@[simp] theorem loadControl_onto (v : UInt8) :
    (z.onto s).loadControl v = (z.loadControl v).onto s := rfl

@[simp] theorem rotateDigits_onto (stored digit : UInt8) :
    (z.onto s).rotateDigits stored digit = (z.rotateDigits stored digit).onto s := by
  simp only [rotateDigits, poke_onto, regs_onto]
  rfl

end

section

variable (s : Setting β γ) (z : Processor β)

/-! ### Instructions -/

/-- Running an instruction commutes with putting the processor into a setting. -/
theorem exec_onto (i : Instruction) (x : Index) :
    exec i x (z.onto s) = ((exec i x z).1.onto s, (exec i x z).2) := by
  cases i with
  | addPair p => cases x <;> simp [exec] <;> rfl
  | loadIndexAt => cases x <;> simp [exec] <;> rfl
  | exchangeStack => cases x <;> simp [exec] <;> rfl
  | loadImmediate o => cases o <;> simp [exec]
  | load t r => cases t <;> cases r <;> simp [exec]
  | djnz | jrIf _ | retIf _ | jumpIf _ | callIf _ =>
      simp only [exec, regs_onto, setByte_onto, relativeJump_onto, skipByte_onto, popWord_onto,
        nextWord_onto, jumpTo_onto, latch_onto, push_onto]
      split <;> rfl
  | exchangeAF | halt | exchangePairs | jumpIndex | loadStackPointer | exchangeDEHL | di | ei
  | inImmediate =>
      simp [exec]
      rfl
  | _ => simp [exec]

theorem execBit_onto : execBit (z.onto s) = ((execBit z).1.onto s, (execBit z).2) := by
  simp only [execBit, fetch_onto, regs_onto]
  split <;> split <;> simp

theorem execIndexedBit_onto (x : IndexLead) :
    execIndexedBit x (z.onto s) = ((execIndexedBit x z).1.onto s, (execIndexedBit x z).2) := by
  simp only [execIndexedBit, operandAddress_onto, nextByte_onto, regs_onto]
  split <;> split <;> simp

theorem blockRound_onto (op : BlockOperation) (down : Bool) :
    blockRound op down (z.onto s) =
      ((blockRound op down z).1.onto s, (blockRound op down z).2) := by
  cases op <;> simp [blockRound] <;> rfl

theorem execBlock_onto (op : BlockOperation) (down repeats : Bool) :
    execBlock op down repeats (z.onto s) =
      ((execBlock op down repeats z).1.onto s, (execBlock op down repeats z).2) := by
  simp only [execBlock, blockRound_onto]
  split <;> rfl

theorem execAssigned_onto (i : Extended) :
    execAssigned i (z.onto s) = ((execAssigned i z).1.onto s, (execAssigned i z).2) := by
  cases i with
  | inPort r =>
      simp only [execAssigned, regs_onto, input_onto]
      rcases r with _ | r
      · rfl
      · cases r <;> rfl
  | outPort r => cases r <;> simp [execAssigned]
  | block op down repeats => exact execBlock_onto s z op down repeats
  | subPair _ | addPair _ | retn | mode _ | loadIA | loadRA =>
      simp [execAssigned]
      rfl
  | _ => simp [execAssigned]

variable {s z}

theorem execExtended_onto (h : z.strict = s.strict) :
    execExtended (z.onto s) = ((execExtended z).1.onto s, (execExtended z).2) := by
  unfold execExtended
  have hs : z.fetch.2.strict = s.strict := h
  simp only [fetch_onto, regs_onto, strict_onto, hs]
  generalize decodeExtended z.fetch.1 = i
  cases i with
  | none =>
      dsimp only
      split <;> simp
  | some i => simp [execAssigned_onto, Timed.done]

theorem execIndexed_onto (x : IndexLead) (h : z.strict = s.strict) :
    execIndexed x (z.onto s) = ((execIndexed x z).1.onto s, (execIndexed x z).2) := by
  unfold execIndexed
  simp only [peek_onto, regs_onto]
  generalize lookUp (z.peek z.regs.pc) = o
  cases o with
  | plain i => simp [exec_onto, Timed.done, Timed.plus]
  | bits => simp [execIndexedBit_onto, Timed.done]
  | extended =>
      simp only [flagUndocumented_onto, fetch_onto]
      have hs : (z.flagUndocumented x.byte (z.peek z.regs.pc) (z.regs.pc - 1)).fetch.2.strict =
          s.strict := h
      rw [Outcome.plus, execExtended_onto hs]
      rfl
  | indexed _ => simp

theorem execute_onto (op : UInt8) (h : z.strict = s.strict) :
    execute op (z.onto s) = ((execute op z).1.onto s, (execute op z).2) := by
  unfold execute
  generalize lookUp op = o
  cases o with
  | plain i => simp [exec_onto, Timed.done]
  | bits => simp [execBit_onto, Timed.done]
  | extended => exact execExtended_onto h
  | indexed x => exact execIndexed_onto x h

/-! ### Steps -/

theorem acceptNMI_onto : acceptNMI (z.onto s) = ((acceptNMI z).1.onto s, (acceptNMI z).2) := by
  unfold acceptNMI
  simp only [note_onto, regs_onto]
  rw [mapRegs_onto _ _ _ fun _ _ => rfl]
  simp

theorem acceptIRQ_onto (h : z.strict = s.strict) :
    acceptIRQ (z.onto s) = ((acceptIRQ z).1.onto s, (acceptIRQ z).2) := by
  unfold acceptIRQ
  simp only [note_onto, regs_onto]
  rw [mapRegs_onto _ _ _ fun _ _ => rfl]
  generalize hw : Processor.mapRegs (z.note _) _ = w
  have hs : w.acknowledge.2.strict = s.strict := by
    rw [← hw]
    exact h
  simp only [acknowledge_onto, regs_onto, push_onto, jumpTo_onto, peekWord_onto]
  rw [execute_onto _ hs]
  generalize execute w.acknowledge.1 w.acknowledge.2 = o
  split
  · rfl
  · split <;> rfl

theorem runInstruction_onto (h : z.strict = s.strict) :
    runInstruction (z.onto s) = ((runInstruction z).1.onto s, (runInstruction z).2) := by
  unfold runInstruction
  have hs : z.fetch.2.strict = s.strict := h
  simp only [fetch_onto, regs_onto]
  rw [execute_onto _ hs]
  generalize execute z.fetch.1 z.fetch.2 = o
  rcases o with ⟨w, _ | _⟩ <;> rfl

/-- **A step commutes with putting the processor into a setting**, as long as the decoding is
equally strict. -/
theorem stepUnclocked_onto (h : z.strict = s.strict) :
    stepUnclocked (z.onto s) = ((stepUnclocked z).1.onto s, (stepUnclocked z).2) := by
  unfold stepUnclocked
  rw [mapRegs_onto _ _ _ fun _ _ => rfl, mapRegs_onto _ _ _ fun _ _ => rfl]
  generalize hw : z.mapRegs (fun r => { r with eiPending := false }) = w
  have hs : w.strict = s.strict := by
    rw [← hw]
    exact h
  dsimp only
  rw [acceptNMI_onto, acceptIRQ_onto h, runInstruction_onto hs]
  by_cases hn : z.regs.nmiPending = true
  · have hn' : (z.onto s).regs.nmiPending = true := hn
    rw [if_pos hn, if_pos hn']
    rfl
  · have hn' : ¬ (z.onto s).regs.nmiPending = true := hn
    rw [if_neg hn, if_neg hn']
    by_cases hi : acceptsIRQ z.regs = true
    · have hi' : acceptsIRQ (z.onto s).regs = true := hi
      rw [if_pos hi, if_pos hi']
    · have hi' : ¬ acceptsIRQ (z.onto s).regs = true := hi
      rw [if_neg hi, if_neg hi']
      by_cases hh : w.regs.halted = true
      · have hh' : (w.onto s).regs.halted = true := hh
        rw [if_pos hh, if_pos hh']
        rfl
      · have hh' : ¬ (w.onto s).regs.halted = true := hh
        rw [if_neg hh, if_neg hh']

end

/-! ### What a step leaves alone -/

/-- The bus as it is. -/
def Bus.Hom.id (β : Type) [Bus β] : Bus.Hom β β :=
  ⟨fun b => b, by simp, by simp, by simp, by simp, by simp⟩

/-- The setting that a processor is in. -/
def setting (z : Processor β) : Setting β β :=
  ⟨Bus.Hom.id β, z.strict, z.regs.cycles, {}, #[]⟩

theorem onto_setting (z : Processor β) : z.onto z.setting = z := by
  simp [onto, setting, Bus.Hom.id]

theorem stepUnclocked_onto_setting (z : Processor β) :
    z.stepUnclocked.1 = z.stepUnclocked.1.onto z.setting := by
  have h := stepUnclocked_onto (s := z.setting) (z := z) rfl
  rw [onto_setting] at h
  exact congrArg Prod.fst h

theorem stepUnclocked_cycles (z : Processor β) : z.stepUnclocked.1.regs.cycles = z.regs.cycles := by
  rw [stepUnclocked_onto_setting]
  rfl

theorem stepUnclocked_strict (z : Processor β) : z.stepUnclocked.1.strict = z.strict := by
  rw [stepUnclocked_onto_setting]
  rfl

/-- The clock of the processor advances by the T-states of the step. -/
theorem step_cycles {z w : Processor β} {n : Nat} (h : z.step = (w, .ok n)) :
    w.regs.cycles = z.regs.cycles + UInt64.ofNat n := by
  have hc := stepUnclocked_cycles z
  unfold step at h
  generalize z.stepUnclocked = o at h hc
  rcases o with ⟨v, _ | k⟩
  · simp at h
  · simp only [Prod.mk.injEq, Except.ok.injEq] at h
    rw [← h.1, ← h.2, ← hc]
    rfl

theorem step_strict (z : Processor β) : z.step.1.strict = z.strict := by
  have hs := stepUnclocked_strict z
  unfold step
  generalize z.stepUnclocked = o at hs
  rcases o with ⟨v, _ | k⟩ <;> exact hs

end Processor

/-! ### Simulations -/

/-- A relation between two buses that every operation preserves. -/
structure Bus.Simulation (R : β → γ → Prop) : Prop where
  read : ∀ {b c}, R b c → ∀ a, Bus.read b a = Bus.read c a
  write : ∀ {b c}, R b c → ∀ a v, R (Bus.write b a v) (Bus.write c a v)
  input : ∀ {b c}, R b c → ∀ p,
    (Bus.input b p).1 = (Bus.input c p).1 ∧ R (Bus.input b p).2 (Bus.input c p).2
  output : ∀ {b c}, R b c → ∀ p v, R (Bus.output b p v) (Bus.output c p v)
  vector : ∀ {b c}, R b c →
    (Bus.vector b).1 = (Bus.vector c).1 ∧ R (Bus.vector b).2 (Bus.vector c).2

namespace Bus.Simulation

variable {R : β → γ → Prop} (hR : Bus.Simulation R)

/-- The pairs of a simulation. -/
abbrev Pairs (R : β → γ → Prop) := { p : β × γ // R p.1 p.2 }

/-- The pairs of a simulation as a bus. -/
abbrev pairs : Bus (Pairs R) where
  read p a := Bus.read p.1.1 a
  write p a v := ⟨(Bus.write p.1.1 a v, Bus.write p.1.2 a v), hR.write p.2 a v⟩
  input p a := ((Bus.input p.1.1 a).1,
    ⟨((Bus.input p.1.1 a).2, (Bus.input p.1.2 a).2), (hR.input p.2 a).2⟩)
  output p a v := ⟨(Bus.output p.1.1 a v, Bus.output p.1.2 a v), hR.output p.2 a v⟩
  vector p := ((Bus.vector p.1.1).1,
    ⟨((Bus.vector p.1.1).2, (Bus.vector p.1.2).2), (hR.vector p.2).2⟩)

/-- The left bus of a pair. -/
def left : letI := hR.pairs; Bus.Hom (Pairs R) β :=
  let _ := hR.pairs
  ⟨fun p => p.1.1, fun _ _ => rfl, fun _ _ _ => rfl, fun _ _ => rfl, fun _ _ _ => rfl, fun _ => rfl⟩

/-- The right bus of a pair. -/
def right : letI := hR.pairs; Bus.Hom (Pairs R) γ :=
  let _ := hR.pairs
  ⟨fun p => p.1.2, fun p a => (hR.read p.2 a).symm, fun _ _ _ => rfl,
    fun p a => Prod.ext (hR.input p.2 a).1.symm rfl, fun _ _ _ => rfl,
    fun p => Prod.ext (hR.vector p.2).1.symm rfl⟩

end Bus.Simulation

namespace Processor

/-- Two processors that differ in their audit, their notes and related buses only. -/
structure Agree (R : β → γ → Prop) (z : Processor β) (w : Processor γ) : Prop where
  regs : z.regs = w.regs
  strict : z.strict = w.strict
  bus : R z.bus w.bus

variable {R : β → γ → Prop}

theorem Agree.stepUnclocked (hR : Bus.Simulation R) {z : Processor β} {w : Processor γ}
    (h : Agree R z w) : z.stepUnclocked.2 = w.stepUnclocked.2 ∧
      Agree R z.stepUnclocked.1 w.stepUnclocked.1 := by
  let _ := hR.pairs
  let q : Processor (Bus.Simulation.Pairs R) :=
    { regs := z.regs, strict := z.strict, bus := ⟨(z.bus, w.bus), h.bus⟩ }
  let s : Setting (Bus.Simulation.Pairs R) β :=
    ⟨hR.left, z.strict, z.regs.cycles, z.audit, z.notes⟩
  let t : Setting (Bus.Simulation.Pairs R) γ :=
    ⟨hR.right, w.strict, w.regs.cycles, w.audit, w.notes⟩
  have hz : q.onto s = z := by simp [onto, q, s, Bus.Simulation.left]
  have hw : q.onto t = w := by simp [onto, q, t, Bus.Simulation.right, h.regs]
  have hs := stepUnclocked_onto (s := s) (z := q) rfl
  have ht := stepUnclocked_onto (s := t) (z := q) h.strict
  rw [hz] at hs
  rw [hw] at ht
  rw [hs, ht]
  refine ⟨rfl, ?_, h.strict, q.stepUnclocked.1.bus.2⟩
  simp only [regs_onto, s, t, h.regs]

/-- **Processors that agree keep agreeing**: their steps have the same result. -/
theorem Agree.step (hR : Bus.Simulation R) {z : Processor β} {w : Processor γ}
    (h : Agree R z w) : z.step.2 = w.step.2 ∧ Agree R z.step.1 w.step.1 := by
  obtain ⟨hresult, hregs, hstrict, hbus⟩ := h.stepUnclocked hR
  unfold Processor.step
  generalize z.stepUnclocked = o at hresult hregs hstrict hbus
  generalize w.stepUnclocked = u at hresult hregs hstrict hbus
  obtain ⟨z', r⟩ := o
  obtain ⟨w', _⟩ := u
  simp only at hresult hregs
  subst hresult
  cases r with
  | error x => exact ⟨rfl, hregs, hstrict, hbus⟩
  | ok n => exact ⟨rfl, by simp only [mapRegs, hregs], hstrict, hbus⟩

end Processor

/-! ### Invariants -/

/-- A property of a bus that every operation preserves. -/
structure Bus.Invariant (I : β → Prop) : Prop where
  write : ∀ {b}, I b → ∀ a v, I (Bus.write b a v)
  input : ∀ {b}, I b → ∀ p, I (Bus.input b p).2
  output : ∀ {b}, I b → ∀ p v, I (Bus.output b p v)
  vector : ∀ {b}, I b → I (Bus.vector b).2

theorem Bus.Invariant.simulation {I : β → Prop} (hI : Bus.Invariant I) :
    Bus.Simulation fun b c : β => b = c ∧ I b where
  read h _ := by rw [h.1]
  write h a v := ⟨by rw [h.1], hI.write h.2 a v⟩
  input h p := ⟨by rw [h.1], by rw [h.1], hI.input h.2 p⟩
  output h p v := ⟨by rw [h.1], hI.output h.2 p v⟩
  vector h := ⟨by rw [h.1], by rw [h.1], hI.vector h.2⟩

/-- A step preserves every invariant of the bus. -/
theorem Processor.step_invariant {I : β → Prop} (hI : Bus.Invariant I) {z : Processor β}
    (h : I z.bus) : I z.step.1.bus :=
  (Processor.Agree.step hI.simulation (z := z) (w := z) ⟨rfl, rfl, rfl, h⟩).2.bus.2

end MasterSystem.Z80
