import Mathlib.Logic.Equiv.Basic
import MasterSystem.Proofs.Z80.Simulation
import MasterSystem.Z80.Bench

/-! # Index registers in the place of `HL`

A lead byte `DD` or `FD` makes the next instruction mean `IX` or `IY` where it says `HL`.  Whether
it does so everywhere, and nowhere else, is a question of names: which register an instruction
reaches must depend on nothing but the name that it is given.

* **Names.**  `Processor.rename` moves the contents of `HL`, `IX` and `IY` by a permutation of the
  three.  An instruction run afterwards on one name does what it would have done before on the
  other (`exec_rename`), unless it always means `HL`.
* **Audit.**  `Processor.unaudited` forgets which odd opcodes have been met.  Nothing else depends
  on them (`unaudited_congr`).
* **Lead bytes.**  `lead_byte_law` puts the two together. -/

namespace MasterSystem.Z80

/-! ### The file under other names -/

namespace Registers

/-- The file in which each of the three index registers holds what `σ` of it held. -/
def rename (σ : Equiv.Perm Index) (r : Registers) : Registers :=
  { r with hl := r.index (σ .hl), ix := r.index (σ .ix), iy := r.index (σ .iy) }

@[simp] theorem index_hl (r : Registers) : r.index .hl = r.hl := rfl

theorem index_setIndex_ne (r : Registers) {x y : Index} (h : y ≠ x) (w : UInt16) :
    (r.setIndex x w).index y = r.index y := by
  cases x <;> cases y <;> first | rfl | exact absurd rfl h

section

variable (σ : Equiv.Perm Index) (r : Registers)

@[simp] theorem index_rename (x : Index) : (r.rename σ).index x = r.index (σ x) := by
  cases x <;> rfl

@[simp] theorem setIndex_rename (x : Index) (w : UInt16) :
    (r.rename σ).setIndex x w = (r.setIndex (σ x) w).rename σ := by
  have hne (y : Index) (h : y ≠ x) : (r.setIndex (σ x) w).index (σ y) = r.index (σ y) :=
    r.index_setIndex_ne (fun e => h (σ.injective e)) w
  have hsame := r.index_setIndex (σ x) w
  unfold rename
  cases x with
  | hl =>
      rw [hsame, hne .ix (by decide), hne .iy (by decide)]
      cases σ .hl <;> rfl
  | ix =>
      rw [hsame, hne .hl (by decide), hne .iy (by decide)]
      cases σ .ix <;> rfl
  | iy =>
      rw [hsame, hne .hl (by decide), hne .ix (by decide)]
      cases σ .iy <;> rfl

theorem rename_rename (τ : Equiv.Perm Index) :
    (r.rename σ).rename τ = r.rename (τ.trans σ) := by
  have hindex (x : Index) : (r.rename σ).index (τ x) = r.index (τ.trans σ x) := r.index_rename σ _
  unfold rename at hindex ⊢
  simp only [hindex]

@[simp] theorem rename_a : (r.rename σ).a = r.a := rfl
@[simp] theorem rename_f : (r.rename σ).f = r.f := rfl
@[simp] theorem rename_bc : (r.rename σ).bc = r.bc := rfl
@[simp] theorem rename_de : (r.rename σ).de = r.de := rfl
@[simp] theorem rename_sp : (r.rename σ).sp = r.sp := rfl
@[simp] theorem rename_pc : (r.rename σ).pc = r.pc := rfl
@[simp] theorem rename_i : (r.rename σ).i = r.i := rfl
@[simp] theorem rename_r : (r.rename σ).r = r.r := rfl
@[simp] theorem rename_af : (r.rename σ).af = r.af := rfl
@[simp] theorem rename_hl : (r.rename σ).hl = r.index (σ .hl) := rfl

end

end Registers

theorem apply_eq_hl {σ : Equiv.Perm Index} (hσ : σ .hl = .hl) (x : Index) :
    σ x = .hl ↔ x = .hl := by
  constructor
  · exact fun h => σ.injective (h.trans hσ.symm)
  · rintro rfl
    exact hσ

namespace Instruction

theorem cost_eq (i : Instruction) (x : Index) :
    i.cost x = if x = .hl then i.baseCost else i.baseCost + i.displacementCost := by
  cases x <;> rfl

theorem displacementCost_eq_zero {i : Instruction} (h : i.usesMemory = false) :
    i.displacementCost = 0 := by
  unfold displacementCost
  split
  · simp [usesMemory, Operand.inMemory] at h
  · simp [h]

theorem cost_rename {σ : Equiv.Perm Index} {i : Instruction}
    (h : i.usesMemory = true → σ .hl = .hl) (x : Index) : i.cost x = i.cost (σ x) := by
  rw [cost_eq, cost_eq]
  by_cases hi : i.usesMemory = true
  · simp only [apply_eq_hl (h hi)]
  · simp [displacementCost_eq_zero (Bool.eq_false_iff.2 hi)]

end Instruction

namespace Processor

variable {β : Type}

/-- The processor whose index registers have been renamed. -/
def rename (σ : Equiv.Perm Index) (z : Processor β) : Processor β := z.mapRegs (·.rename σ)

/-- The processor with two index registers exchanged. -/
def exchange (x y : Index) (z : Processor β) : Processor β := z.rename (Equiv.swap x y)

theorem exchange_exchange (x y : Index) (z : Processor β) :
    (z.exchange x y).exchange x y = z := by
  have hregs : (z.regs.rename (Equiv.swap x y)).rename (Equiv.swap x y) = z.regs := by
    rw [Registers.rename_rename, Equiv.swap_swap]
    rfl
  exact congrArg (fun r => { z with regs := r }) hregs

section

variable (σ : Equiv.Perm Index) (z : Processor β)

@[simp] theorem regs_rename : (z.rename σ).regs = z.regs.rename σ := rfl

@[simp] theorem strict_rename : (z.rename σ).strict = z.strict := rfl

@[simp] theorem ite_rename (p : Prop) [Decidable p] (w : Processor β) :
    (if p then z.rename σ else w.rename σ) = (if p then z else w).rename σ := by
  split <;> rfl

theorem mapRegs_rename {g g' : Registers → Registers}
    (h : ∀ r, g (r.rename σ) = (g' r).rename σ) :
    (z.rename σ).mapRegs g = (z.mapRegs g').rename σ := by
  unfold rename mapRegs
  rw [h]

@[simp] theorem byte_rename (r : Reg8) (x : Index) :
    (z.rename σ).byte r x = z.byte r (σ x) := by
  cases r <;> simp [byte]

@[simp] theorem pair_rename (p : Pair) (x : Index) : (z.rename σ).pair p x = z.pair p (σ x) := by
  cases p <;> simp [pair]

@[simp] theorem stackPair_rename (p : StackPair) (x : Index) :
    (z.rename σ).stackPair p x = z.stackPair p (σ x) := by
  cases p <;> simp [stackPair]

@[simp] theorem setByte_rename (r : Reg8) (x : Index) (v : UInt8) :
    (z.rename σ).setByte r x v = (z.setByte r (σ x) v).rename σ := by
  refine z.mapRegs_rename σ fun s => ?_
  cases r <;> first | rfl | simp

@[simp] theorem setPair_rename (p : Pair) (x : Index) (w : UInt16) :
    (z.rename σ).setPair p x w = (z.setPair p (σ x) w).rename σ := by
  cases p with
  | index => exact z.mapRegs_rename σ fun r => r.setIndex_rename σ x w
  | _ => rfl

@[simp] theorem setStackPair_rename (p : StackPair) (x : Index) (w : UInt16) :
    (z.rename σ).setStackPair p x w = (z.setStackPair p (σ x) w).rename σ := by
  cases p with
  | index => exact z.mapRegs_rename σ fun r => r.setIndex_rename σ x w
  | _ => rfl

@[simp] theorem setFlags_rename (f : UInt8) :
    (z.rename σ).setFlags f = (z.setFlags f).rename σ := rfl

@[simp] theorem setResult_rename (r : Flagged UInt8) :
    (z.rename σ).setResult r = (z.setResult r).rename σ := rfl

@[simp] theorem jumpTo_rename (pc : UInt16) :
    (z.rename σ).jumpTo pc = (z.jumpTo pc).rename σ := rfl

@[simp] theorem latch_rename (wz : UInt16) :
    (z.rename σ).latch wz = (z.latch wz).rename σ := rfl

@[simp] theorem skipByte_rename : (z.rename σ).skipByte = z.skipByte.rename σ := rfl

@[simp] theorem flagUndocumented_rename (lead opcode : UInt8) (pc : UInt16) :
    (z.rename σ).flagUndocumented lead opcode pc =
      (z.flagUndocumented lead opcode pc).rename σ := rfl

@[simp] theorem flagUnassigned_rename (opcode : UInt8) (pc : UInt16) :
    (z.rename σ).flagUnassigned opcode pc = (z.flagUnassigned opcode pc).rename σ := rfl

@[simp] theorem loadControl_rename (v : UInt8) :
    (z.rename σ).loadControl v = (z.loadControl v).rename σ := rfl

variable [Bus β]

/-! ### Memory and ports -/

@[simp] theorem peek_rename (a : UInt16) : (z.rename σ).peek a = z.peek a := rfl

@[simp] theorem peekWord_rename (a : UInt16) : (z.rename σ).peekWord a = z.peekWord a := rfl

@[simp] theorem poke_rename (a : UInt16) (v : UInt8) :
    (z.rename σ).poke a v = (z.poke a v).rename σ := rfl

@[simp] theorem pokeWord_rename (a w : UInt16) :
    (z.rename σ).pokeWord a w = (z.pokeWord a w).rename σ := rfl

@[simp] theorem input_rename (p : UInt16) :
    (z.rename σ).input p = ((z.input p).1, (z.input p).2.rename σ) := rfl

@[simp] theorem output_rename (p : UInt16) (v : UInt8) :
    (z.rename σ).output p v = (z.output p v).rename σ := rfl

@[simp] theorem push_rename (w : UInt16) : (z.rename σ).push w = (z.push w).rename σ := rfl

@[simp] theorem popWord_rename :
    (z.rename σ).popWord = (z.popWord.1, z.popWord.2.rename σ) := rfl

@[simp] theorem nextByte_rename :
    (z.rename σ).nextByte = (z.nextByte.1, z.nextByte.2.rename σ) := rfl

@[simp] theorem nextWord_rename :
    (z.rename σ).nextWord = (z.nextWord.1, z.nextWord.2.rename σ) := rfl

@[simp] theorem fetch_rename : (z.rename σ).fetch = (z.fetch.1, z.fetch.2.rename σ) := rfl

@[simp] theorem relativeJump_rename :
    (z.rename σ).relativeJump = z.relativeJump.rename σ := rfl

@[simp] theorem storeAccumulator_rename (a : UInt16) :
    (z.rename σ).storeAccumulator a = (z.storeAccumulator a).rename σ := rfl

@[simp] theorem loadAccumulator_rename (a : UInt16) :
    (z.rename σ).loadAccumulator a = (z.loadAccumulator a).rename σ := rfl

end

/-! ### Names that leave `HL` alone -/

section

variable {σ : Equiv.Perm Index} (z : Processor β)

/-- What reads and writes neither `IX` nor `IY` does not see that they are renamed. -/
theorem mapRegs_rename_of_hl (hσ : σ .hl = .hl) {g : Registers → Registers}
    (hg : ∀ r u v, g ((r.setIndex .ix u).setIndex .iy v) =
      ((g r).setIndex .ix u).setIndex .iy v) :
    (z.rename σ).mapRegs g = (z.mapRegs g).rename σ := by
  refine z.mapRegs_rename σ fun r => ?_
  have hsame : g r = ((g r).setIndex .ix r.ix).setIndex .iy r.iy := hg r r.ix r.iy
  have hindex (x : Index) (hx : x ≠ .hl) : (g r).index (σ x) = r.index (σ x) := by
    have hne : σ x ≠ .hl := fun e => hx (σ.injective (e.trans hσ.symm))
    rw [hsame]
    cases hy : σ x with
    | hl => exact absurd hy hne
    | ix | iy => rfl
  unfold Registers.rename
  rw [hσ, hindex .ix (by decide), hindex .iy (by decide)]
  exact hg r (r.index (σ .ix)) (r.index (σ .iy))

variable [Bus β]

theorem operandAddress_of_ne {x : Index} (h : x ≠ .hl) :
    z.operandAddress x =
      let address := z.regs.index x + Word.displacement z.nextByte.1
      (address, z.nextByte.2.latch address) := by
  cases x with
  | hl => exact absurd rfl h
  | ix | iy => rfl

theorem operandAddress_rename (hσ : σ .hl = .hl) (x : Index) :
    (z.rename σ).operandAddress x =
      ((z.operandAddress (σ x)).1, (z.operandAddress (σ x)).2.rename σ) := by
  by_cases hx : x = .hl
  · subst hx
    simp [operandAddress, hσ]
  · rw [operandAddress_of_ne _ hx, operandAddress_of_ne _ (mt (apply_eq_hl hσ x).1 hx)]
    simp

variable {o : Operand}

theorem operand_rename (h : o.inMemory = true → σ .hl = .hl) (x : Index) :
    (z.rename σ).operand o x = ((z.operand o (σ x)).1, (z.operand o (σ x)).2.rename σ) := by
  cases o with
  | reg r => simp [operand]
  | mem => simp [operand, operandAddress_rename z (h rfl)]

theorem update_rename (h : o.inMemory = true → σ .hl = .hl) (x : Index)
    (g : UInt8 → UInt8 → Flagged UInt8) :
    (z.rename σ).update o x g = (z.update o (σ x) g).rename σ := by
  cases o with
  | reg r => simp [update]
  | mem => simp [update, operandAddress_rename z (h rfl)]

/-! ### Instructions -/

/-- **Names are all that matters.**  Once the index registers have been renamed, an instruction does
on one of them what it would have done on the one that it has the contents of.  An instruction that
can mean `HL` whatever it is run on needs `HL` to keep its name: `EX DE,HL` and `EXX`, and those on
memory, which have no displacement on `HL` and take `H` and `L` for themselves. -/
theorem exec_rename {i : Instruction}
    (h : i.usesIndex = false ∨ i.usesMemory = true → σ .hl = .hl) (x : Index) :
    exec i x (z.rename σ) = ((exec i (σ x) z).1.rename σ, (exec i (σ x) z).2) := by
  have hcost : i.cost x = i.cost (σ x) := i.cost_rename (fun hi => h (.inr hi)) x
  cases i with
  | addPair p =>
      simp only [exec, pair_rename, regs_rename, Registers.rename_f, Registers.index_rename, hcost]
      exact congrArg (·, _) (z.mapRegs_rename σ fun r => by rw [Registers.setIndex_rename]; rfl)
  | loadIndexAt =>
      simp only [exec, nextWord_rename, peekWord_rename, hcost]
      exact congrArg (·, _) (mapRegs_rename σ _ fun r => by rw [Registers.setIndex_rename]; rfl)
  | exchangeStack =>
      simp only [exec, regs_rename, Registers.rename_sp, Registers.index_rename, peekWord_rename,
        pokeWord_rename, hcost]
      exact congrArg (·, _) (mapRegs_rename σ _ fun r => by rw [Registers.setIndex_rename]; rfl)
  | djnz | jrIf _ | retIf _ | jumpIf _ | callIf _ =>
      simp only [exec, hcost, h (.inl rfl), regs_rename, Registers.rename_f, Registers.rename_bc,
        Registers.rename_pc, setByte_rename, relativeJump_rename, skipByte_rename, popWord_rename,
        nextWord_rename, jumpTo_rename, latch_rename, push_rename]
      split <;> rfl
  | inc o | dec o => simp [exec, hcost, update_rename z (fun ho => h (.inr ho))]
  | operate op o => simp [exec, hcost, operand_rename z (fun ho => h (.inr ho))]
  | loadImmediate o =>
      cases o with
      | reg r => simp [exec, hcost]
      | mem => simp [exec, hcost, operandAddress_rename z (h (.inr rfl))]
  | load t s =>
      cases t with
      | reg t =>
          cases s with
          | reg s => simp [exec, hcost]
          | mem => simp [exec, hcost, operandAddress_rename z (h (.inr rfl)), h (.inr rfl)]
      | mem =>
          cases s with
          | reg s => simp [exec, hcost, operandAddress_rename z (h (.inr rfl)), h (.inr rfl)]
          | mem => simp [exec, hcost]
  | exchangePairs | exchangeDEHL =>
      simp only [exec, hcost]
      rw [mapRegs_rename_of_hl z (h (.inl rfl)) fun _ _ _ => rfl]
  | exchangeAF | halt | di | ei | inImmediate =>
      simp only [exec, hcost]
      rfl
  | jumpIndex | loadStackPointer =>
      simp only [exec, hcost]
      exact congrArg (·, _) (z.mapRegs_rename σ fun r => by rw [Registers.index_rename]; rfl)
  | _ => simp [exec, hcost]

/-! ### The other pages -/

theorem blockRound_rename (hσ : σ .hl = .hl) (op : BlockOperation) (down : Bool) :
    blockRound op down (z.rename σ) =
      ((blockRound op down z).1.rename σ, (blockRound op down z).2) := by
  cases op with
  | transfer | search | input | output =>
      simp only [blockRound, regs_rename, Registers.rename_hl, Registers.rename_a,
        Registers.rename_bc, Registers.rename_de, Registers.index_hl, hσ, peek_rename, poke_rename,
        input_rename, output_rename]
      rw [mapRegs_rename_of_hl _ hσ fun _ _ _ => rfl]

theorem execBlock_rename (hσ : σ .hl = .hl) (op : BlockOperation) (down repeats : Bool) :
    execBlock op down repeats (z.rename σ) =
      ((execBlock op down repeats z).1.rename σ, (execBlock op down repeats z).2) := by
  simp only [execBlock, blockRound_rename z hσ]
  split <;> rfl

theorem rotateDigits_rename (hσ : σ .hl = .hl) (stored digit : UInt8) :
    (z.rename σ).rotateDigits stored digit = (z.rotateDigits stored digit).rename σ := by
  simp only [rotateDigits, regs_rename, Registers.rename_hl, Registers.index_hl, hσ, poke_rename]
  rfl

theorem execAssigned_rename (hσ : σ .hl = .hl) (i : Extended) :
    execAssigned i (z.rename σ) = ((execAssigned i z).1.rename σ, (execAssigned i z).2) := by
  cases i with
  | inPort r =>
      cases r with
      | none =>
          simp only [execAssigned, regs_rename, Registers.rename_bc, input_rename]
          rw [mapRegs_rename_of_hl _ hσ fun _ _ _ => rfl]
      | some r =>
          simp only [execAssigned, regs_rename, Registers.rename_bc, input_rename]
          rw [mapRegs_rename_of_hl _ hσ fun _ _ _ => rfl, setByte_rename, hσ]
  | outPort r => cases r <;> simp [execAssigned, hσ]
  | block op down repeats => exact execBlock_rename z hσ op down repeats
  | subPair _ | addPair _ =>
      simp only [execAssigned, regs_rename, Registers.rename_hl, Registers.rename_f, pair_rename,
        Registers.index_hl, hσ]
      rw [mapRegs_rename_of_hl _ hσ fun _ _ _ => rfl]
  | retn | mode _ | loadIA | loadRA =>
      simp only [execAssigned]
      rfl
  | rrd | rld => simp [execAssigned, rotateDigits_rename z hσ, hσ]
  | _ => simp [execAssigned, hσ]

theorem execExtended_rename (hσ : σ .hl = .hl) :
    execExtended (z.rename σ) = ((execExtended z).1.rename σ, (execExtended z).2) := by
  unfold execExtended
  rw [fetch_rename]
  generalize z.fetch = p
  obtain ⟨op, w⟩ := p
  dsimp only
  generalize decodeExtended op = d
  cases d with
  | none =>
      by_cases hs : w.strict = true
      · simp [hs]
      · simp [hs]
  | some i => simp [execAssigned_rename _ hσ, Timed.done]

end

/-! ### The audit -/

/-- Whether a note belongs to the audit of opcodes. -/
def isAuditNote : Note → Bool
  | .undocumented .. | .unassigned .. => true
  | _ => false

/-- The processor without the audit of opcodes and its notes. -/
def unaudited (z : Processor β) : Processor β :=
  { z with audit := {}, notes := z.notes.filter fun n => !isAuditNote n }

/-- The processor without a past. -/
def bare (z : Processor β) : Processor β := { z with audit := {}, notes := #[] }

@[simp] theorem unaudited_flagUndocumented (z : Processor β) (lead opcode : UInt8) (pc : UInt16) :
    (z.flagUndocumented lead opcode pc).unaudited = z.unaudited := by
  simp [unaudited, flagUndocumented, isAuditNote]

@[simp] theorem unaudited_flagged (p : Prop) [Decidable p] (z : Processor β) (lead opcode : UInt8)
    (pc : UInt16) :
    (if p then z.flagUndocumented lead opcode pc else z).unaudited = z.unaudited := by
  split
  · exact z.unaudited_flagUndocumented lead opcode pc
  · rfl

@[simp] theorem regs_flagged (p : Prop) [Decidable p] (z : Processor β) (lead opcode : UInt8)
    (pc : UInt16) : (if p then z.flagUndocumented lead opcode pc else z).regs = z.regs := by
  split <;> rfl

@[simp] theorem unaudited_rename (σ : Equiv.Perm Index) (z : Processor β) :
    (z.rename σ).unaudited = z.unaudited.rename σ := rfl

@[simp] theorem unaudited_setFlags (z : Processor β) (f : UInt8) :
    (z.setFlags f).unaudited = z.unaudited.setFlags f := rfl

@[simp] theorem unaudited_setByte (z : Processor β) (r : Reg8) (x : Index) (v : UInt8) :
    (z.setByte r x v).unaudited = z.unaudited.setByte r x v := rfl

variable [Bus β]

@[simp] theorem peek_flagged (p : Prop) [Decidable p] (z : Processor β) (lead opcode : UInt8)
    (pc a : UInt16) : (if p then z.flagUndocumented lead opcode pc else z).peek a = z.peek a := by
  split <;> rfl

theorem unaudited_fetch (z : Processor β) : z.fetch.2.unaudited = z.unaudited.fetch.2 := rfl

@[simp] theorem unaudited_poke (z : Processor β) (a : UInt16) (v : UInt8) :
    (z.poke a v).unaudited = z.unaudited.poke a v := rfl

/-- The past of a processor. -/
def past (z : Processor β) : Setting β β :=
  ⟨Bus.Hom.id β, z.strict, z.regs.cycles, z.audit, z.notes⟩

theorem onto_past (z : Processor β) : z.bare.onto z.past = z := by
  simp [onto, bare, past, Bus.Hom.id]

/-- The audit never matters to what is not the audit. -/
theorem unaudited_congr {α : Type} {f : Processor β → Processor β × α}
    (hf : ∀ (s : Setting β β) z, z.strict = s.strict → f (z.onto s) = ((f z).1.onto s, (f z).2))
    {z w : Processor β} (h : z.unaudited = w.unaudited) :
    (f z).1.unaudited = (f w).1.unaudited ∧ (f z).2 = (f w).2 := by
  have hregs : z.regs = w.regs := congrArg (fun v => v.regs) h
  have hstrict : z.strict = w.strict := congrArg (fun v => v.strict) h
  have hbus : z.bus = w.bus := congrArg (fun v => v.bus) h
  have hnotes : z.notes.filter (fun n => !isAuditNote n) =
    w.notes.filter (fun n => !isAuditNote n) := congrArg (fun v => v.notes) h
  have hbare : z.bare = w.bare := by simp [bare, hregs, hstrict, hbus]
  have hz := hf z.past z.bare rfl
  have hw := hf w.past w.bare rfl
  rw [onto_past] at hz hw
  rw [hz, hw, hbare]
  exact ⟨by simp [unaudited, onto, past, hregs, hstrict, hnotes], rfl⟩

/-! ### Lead bytes -/

/-- Fetch the opcode at the program counter and run it. -/
def executeNext (z : Processor β) : Outcome β := execute z.fetch.1 z.fetch.2

end Processor

namespace Outcome

variable {β : Type}

/-- The outcome without the audit. -/
def unaudited (o : Outcome β) : Outcome β := (o.1.unaudited, o.2)

/-- The outcome with two index registers exchanged. -/
def exchange (x y : Index) (o : Outcome β) : Outcome β := (o.1.exchange x y, o.2)

end Outcome

namespace Processor

variable {β : Type} [Bus β]

theorem executeNext_plain {z : Processor β} {i : Instruction}
    (h : lookUp (z.peek z.regs.pc) = .plain i) : z.executeNext = (exec i .hl z.fetch.2).done := by
  have hop : lookUp z.fetch.1 = .plain i := h
  unfold executeNext execute
  rw [hop]

theorem execIndexed_plain (x : IndexLead) {z : Processor β} {i : Instruction}
    (h : lookUp (z.peek z.regs.pc) = .plain i) :
    (execIndexed x z).unaudited =
      (((exec i (if i.usesIndex then x.index else .hl) z.fetch.2).plus
        leadCost).done).unaudited := by
  have hflag := unaudited_flagged ((!i.usesIndex || i.usesHalf) = true) z.fetch.2 x.byte
    (z.peek z.regs.pc) (z.regs.pc - 1)
  obtain ⟨hz, hcost⟩ := unaudited_congr
    (fun s z _ => exec_onto s z i (if i.usesIndex then x.index else .hl)) hflag
  unfold execIndexed
  dsimp only
  rw [h]
  exact Prod.ext hz (congrArg (fun n => Except.ok (n + leadCost)) hcost)

theorem execIndexedBit_unaudited {σ : Equiv.Perm Index} (hσ : σ .hl = .hl) {x y : IndexLead}
    (h : σ x.index = y.index) (z : Processor β) :
    (execIndexedBit x (z.rename σ)).1.unaudited = (execIndexedBit y z).1.unaudited.rename σ ∧
      (execIndexedBit x (z.rename σ)).2 = (execIndexedBit y z).2 := by
  unfold execIndexedBit
  rw [operandAddress_rename z hσ, h]
  generalize z.operandAddress y.index = p
  obtain ⟨address, w⟩ := p
  dsimp only
  rw [nextByte_rename]
  generalize w.nextByte = p
  obtain ⟨op, v⟩ := p
  dsimp only
  generalize decodeBit op = p
  obtain ⟨i, o⟩ := p
  dsimp only
  simp only [regs_rename, Registers.rename_pc, flagUndocumented_rename, ite_rename, peek_rename,
    Registers.rename_f, regs_flagged, peek_flagged]
  by_cases htest : i.isTest = true
  · rw [if_pos htest, if_pos htest]
    simp
  · rw [if_neg htest, if_neg htest]
    cases o <;> simp [hσ]

/-- All bytes but those that lead to another page are instructions. -/
theorem decode_plain {op : UInt8} (h : op ∉ [0xCB, 0xDD, 0xED, 0xFD]) :
    ∃ i, decode op = .plain i := by
  have hop : op.toNat ≠ 0xCB ∧ op.toNat ≠ 0xDD ∧ op.toNat ≠ 0xED ∧ op.toNat ≠ 0xFD := by
    simpa [← UInt8.toNat_inj] using h
  have hbound := op.toNat_lt
  unfold decode
  generalize op.toNat = n at hop hbound
  dsimp only
  obtain hq | hq | hq | hq : n / 64 = 0 ∨ n / 64 = 1 ∨ n / 64 = 2 ∨ n / 64 = 3 := by omega
  · simp only [hq]
    exact ⟨_, rfl⟩
  · simp only [hq]
    split <;> exact ⟨_, rfl⟩
  · simp only [hq]
    exact ⟨_, rfl⟩
  · simp only [hq]
    generalize hy : n / 8 % 8 = y
    generalize hz : n % 8 = z
    unfold decodeHigh
    split
    all_goals try exact ⟨_, rfl⟩
    -- the two columns with bytes that are no instructions
    all_goals
      split
      all_goals first | exact ⟨_, rfl⟩ | (exfalso; omega)

/-- A lead byte before an instruction on `HL` that does not address memory. -/
theorem execIndexed_of_usesIndex (x : IndexLead) {z : Processor β} {i : Instruction}
    (h : lookUp (z.peek z.regs.pc) = .plain i) (hi : i.usesIndex = true)
    (hm : i.usesMemory = false) :
    (execIndexed x z).unaudited =
      (((z.exchange .hl x.index).executeNext.plus leadCost).exchange .hl x.index).unaudited := by
  have hop : lookUp ((z.exchange .hl x.index).peek (z.exchange .hl x.index).regs.pc) =
      .plain i := h
  have hfix : i.usesIndex = false ∨ i.usesMemory = true → Equiv.swap .hl x.index .hl = .hl := by
    simp [hi, hm]
  have hfetch : (z.exchange .hl x.index).fetch.2 = z.fetch.2.rename (Equiv.swap .hl x.index) := rfl
  have hback := exchange_exchange .hl x.index (exec i x.index z.fetch.2).1
  rw [execIndexed_plain x h, executeNext_plain hop, hi, if_pos rfl, hfetch,
    exec_rename z.fetch.2 hfix, Equiv.swap_apply_left]
  exact congrArg (fun w => (w.unaudited, Except.ok ((exec i x.index z.fetch.2).2 + leadCost)))
    hback.symm

theorem execExtended_unaudited {σ : Equiv.Perm Index} (hσ : σ .hl = .hl) {z w : Processor β}
    (h : z.unaudited = w.unaudited) :
    (execExtended (z.rename σ)).1.unaudited = (execExtended w).1.unaudited.rename σ ∧
      (execExtended (z.rename σ)).2 = (execExtended w).2 := by
  obtain ⟨hz, hresult⟩ := unaudited_congr (fun s w hs => execExtended_onto hs) h
  rw [execExtended_rename z hσ]
  exact ⟨congrArg (rename σ) hz, hresult⟩

/-- The two lead bytes differ in nothing but the name. -/
theorem execIndexed_rename {σ : Equiv.Perm Index} (hσ : σ .hl = .hl) {x y : IndexLead}
    (h : σ x.index = y.index) (z : Processor β) :
    (execIndexed x (z.rename σ)).unaudited =
      ((execIndexed y z).1.unaudited.rename σ, (execIndexed y z).2) := by
  have hop : lookUp ((z.rename σ).peek (z.rename σ).regs.pc) = lookUp (z.peek z.regs.pc) := rfl
  cases ho : lookUp (z.peek z.regs.pc) with
  | plain i =>
      have hname : σ (if i.usesIndex then x.index else .hl) =
          if i.usesIndex then y.index else .hl := by
        split
        · exact h
        · exact hσ
      have hy := execIndexed_plain y ho
      have hfst := congrArg Prod.fst hy
      have hsnd := congrArg Prod.snd hy
      rw [execIndexed_plain x (hop.trans ho), fetch_rename, exec_rename z.fetch.2 (fun _ => hσ),
        hname]
      exact Prod.ext (congrArg (rename σ) hfst.symm) hsnd.symm
  | bits =>
      obtain ⟨hz, hcost⟩ := execIndexedBit_unaudited hσ h z.fetch.2
      unfold execIndexed
      dsimp only
      rw [hop, ho]
      exact Prod.ext hz (congrArg Except.ok hcost)
  | extended =>
      have hflag (v : UInt8) (pc : UInt16) : (z.flagUndocumented x.byte v pc).fetch.2.unaudited =
          (z.flagUndocumented y.byte v pc).fetch.2.unaudited := by
        rw [unaudited_fetch, unaudited_fetch, unaudited_flagUndocumented,
          unaudited_flagUndocumented]
      obtain ⟨hz, hresult⟩ := execExtended_unaudited hσ (hflag (z.peek z.regs.pc) (z.regs.pc - 1))
      unfold execIndexed
      dsimp only
      rw [hop, ho]
      exact Prod.ext hz (congrArg (Except.map (· + leadCost)) hresult)
  | indexed k =>
      unfold execIndexed
      dsimp only
      rw [hop, ho]
      simp [Outcome.unaudited]

/-- Exchanging `IX` and `IY` turns one lead byte into the other. -/
theorem execIndexed_exchange (z : Processor β) :
    (execIndexed .iy z).unaudited =
      ((execIndexed .ix (z.exchange .ix .iy)).exchange .ix .iy).unaudited := by
  have hhl : Equiv.swap Index.ix Index.iy .hl = .hl := by decide
  have hix : Equiv.swap Index.ix Index.iy IndexLead.ix.index = IndexLead.iy.index := by decide
  have h : (execIndexed .ix (z.exchange .ix .iy)).unaudited =
      ((execIndexed .iy z).1.unaudited.exchange .ix .iy, (execIndexed .iy z).2) :=
    execIndexed_rename hhl hix z
  have hback := exchange_exchange .ix .iy (execIndexed .iy z).1.unaudited
  generalize execIndexed .ix (z.exchange .ix .iy) = o at h ⊢
  generalize execIndexed .iy z = u at h hback ⊢
  have hfst : o.1.unaudited = u.1.unaudited.exchange .ix .iy := congrArg Prod.fst h
  refine Prod.ext ?_ (congrArg Prod.snd h).symm
  exact hback.symm.trans (congrArg (exchange .ix .iy) hfst.symm)

/-- **What a lead byte means.**  Unless it comes before another lead byte, the byte after it is an
instruction.  If that is one on `HL` without `(HL)`, it runs as if the index register had been
exchanged with `HL` before it and is again after it; if it does not mention `HL`, as if there were
no lead byte; in either case the lead byte takes 4 T-states.  Whatever comes after it, the lead
byte of `IY` does with `IY` what that of `IX` does with `IX`. -/
theorem lead_byte_law (z : Processor β) :
    (∀ x : IndexLead, z.peek z.regs.pc ∉ [0xCB, 0xDD, 0xED, 0xFD] →
      ∃ i, decode (z.peek z.regs.pc) = .plain i ∧
        (i.usesIndex = true → i.usesMemory = false →
          (execIndexed x z).unaudited =
            (((z.exchange .hl x.index).executeNext.plus 4).exchange .hl x.index).unaudited) ∧
        (i.usesIndex = false →
          (execIndexed x z).unaudited = (z.executeNext.plus 4).unaudited)) ∧
      (execIndexed .iy z).unaudited =
        ((execIndexed .ix (z.exchange .ix .iy)).exchange .ix .iy).unaudited := by
  refine ⟨?_, execIndexed_exchange z⟩
  intro x hop
  obtain ⟨i, hi⟩ := decode_plain hop
  have h : lookUp (z.peek z.regs.pc) = .plain i := (lookUp_eq_decode _).trans hi
  refine ⟨i, hi, fun hindex hmemory => execIndexed_of_usesIndex x h hindex hmemory, ?_⟩
  intro hindex
  rw [execIndexed_plain x h, executeNext_plain h, hindex]
  rfl

/-- `INC IX` and, after the other lead byte, `EX DE,HL`. -/
theorem lead_byte_law_of_inc : ∃ z w : Processor Memory,
    (z.peek z.regs.pc = 0x23 ∧ (execIndexed .ix z).unaudited =
      (((z.exchange .hl .ix).executeNext.plus 4).exchange .hl .ix).unaudited) ∧
    (w.peek w.regs.pc = 0xEB ∧ (execIndexed .iy w).unaudited =
      (w.executeNext.plus 4).unaudited) := by
  have hbyte (v : UInt8) : ∃ z : Processor Memory, z.peek z.regs.pc = v :=
    ⟨{ bus := Memory.blank.store 0 v }, Memory.byteAt_store_same _ _ _⟩
  obtain ⟨z, hz⟩ := hbyte 0x23
  obtain ⟨w, hw⟩ := hbyte 0xEB
  obtain ⟨i, hi, hindex, -⟩ := (lead_byte_law z).1 .ix (by rw [hz]; decide)
  obtain ⟨j, hj, -, hother⟩ := (lead_byte_law w).1 .iy (by rw [hw]; decide)
  rw [hz] at hi
  rw [hw] at hj
  obtain rfl : .incPair .index = i := Opcode.plain.inj hi
  obtain rfl : .exchangeDEHL = j := Opcode.plain.inj hj
  exact ⟨z, w, ⟨hz, hindex rfl rfl⟩, hw, hother rfl⟩

end Processor

end MasterSystem.Z80
