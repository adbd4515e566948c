import MasterSystem.Proofs.Z80.Exchange
import MasterSystem.Proofs.Z80.Interrupts

/-! # Strict decoding

Under strict decoding an opcode without meaning is a fault; under lenient decoding it is counted and
does nothing.  Apart from that the two are one.

* **Instructions.**  No instruction looks at the strictness (`decoding_congr`), and none counts an
  opcode without meaning but those of the extended page that have none.
* **Steps.**  `unassigned?` finds the opcode without meaning that a step runs, and `Compared` says
  what the two kinds of decoding make of a step (`step_compared`).  `Meets` lists the four ways to
  such an opcode: plainly, after a lead byte, and from an interrupting device in mode 0.
* **Runs.**  Fed with the same inputs, both processors do the same until the lenient one counts its
  first opcode without meaning; there the strict one fails (`strict_only_adds_faults`). -/

namespace MasterSystem.Z80

namespace Processor

variable {β : Type}

/-- The processor with strict or lenient decoding. -/
def decoding (strict : Bool) (z : Processor β) : Processor β := { z with strict := strict }

/-! ### Instructions -/

section

variable [Bus β]

/-- What commutes with every setting does not look at the strictness, which is part of one. -/
theorem decoding_congr {α : Type} {f : Processor β → Processor β × α}
    (hf : ∀ (s : Setting β β) z, f (z.onto s) = ((f z).1.onto s, (f z).2)) (strict : Bool)
    (z : Processor β) : f (z.decoding strict) = ((f z).1.decoding strict, (f z).2) := by
  have hz := hf z.setting z
  have hstrict := hf { z.setting with strict := strict } z
  rw [onto_setting] at hz
  have hon (w : Processor β) :
      w.onto { z.setting with strict := strict } = (w.onto z.setting).decoding strict := rfl
  rw [hon, hon, onto_setting] at hstrict
  have hfirst : (f z).1 = (f z).1.onto z.setting := congrArg Prod.fst hz
  rw [hstrict, ← hfirst]

theorem operandAddress_audit (z : Processor β) (x : Index) :
    (z.operandAddress x).2.audit = z.audit := by cases x <;> rfl

theorem update_audit (z : Processor β) (o : Operand) (x : Index)
    (g : UInt8 → UInt8 → Flagged UInt8) : (z.update o x g).audit = z.audit := by
  cases o with
  | reg r => rfl
  | mem => exact z.operandAddress_audit x

/-- No instruction of the main page touches the audit. -/
theorem exec_audit (i : Instruction) (x : Index) (z : Processor β) :
    (exec i x z).1.audit = z.audit := by
  cases i with
  | djnz | jrIf _ | retIf _ | jumpIf _ | callIf _ =>
      simp only [exec]
      split <;> rfl
  | inc o | dec o => exact z.update_audit o x _
  | loadImmediate o =>
      cases o with
      | reg r => rfl
      | mem => exact z.operandAddress_audit x
  | load t s =>
      cases t with
      | reg r =>
          cases s with
          | reg s => rfl
          | mem => exact z.operandAddress_audit x
      | mem =>
          cases s with
          | reg s => exact z.operandAddress_audit x
          | mem => rfl
  | operate op o =>
      cases o with
      | reg r => rfl
      | mem => exact z.operandAddress_audit x
  | _ => rfl

omit [Bus β] in
theorem flagged_unassigned (p : Prop) [Decidable p] (z : Processor β) (lead opcode : UInt8)
    (pc : UInt16) : (if p then z.flagUndocumented lead opcode pc else z).audit.unassigned =
      z.audit.unassigned := by
  split <;> rfl

theorem execBit_unassigned (z : Processor β) :
    (execBit z).1.audit.unassigned = z.audit.unassigned := by
  unfold execBit
  dsimp only
  split
  · exact flagged_unassigned _ z.fetch.2 _ _ _
  · split <;> exact flagged_unassigned _ z.fetch.2 _ _ _

theorem execIndexedBit_unassigned (x : IndexLead) (z : Processor β) :
    (execIndexedBit x z).1.audit.unassigned = z.audit.unassigned := by
  have haddress := congrArg Audit.unassigned (z.operandAddress_audit x.index)
  unfold execIndexedBit
  dsimp only
  generalize z.operandAddress x.index = p at haddress ⊢
  split
  · exact (flagged_unassigned _ p.2.nextByte.2 _ _ _).trans haddress
  · split <;> exact (flagged_unassigned _ p.2.nextByte.2 _ _ _).trans haddress

theorem execBlock_audit (op : BlockOperation) (down repeats : Bool) (z : Processor β) :
    (execBlock op down repeats z).1.audit = z.audit := by
  have hround : (blockRound op down z).1.audit = z.audit := by cases op <;> rfl
  unfold execBlock
  dsimp only
  split <;> exact hround

/-- Nor does one of the extended page. -/
theorem execAssigned_audit (i : Extended) (z : Processor β) :
    (execAssigned i z).1.audit = z.audit := by
  cases i with
  | inPort r => cases r <;> rfl
  | block op down repeats => exact execBlock_audit op down repeats z
  | _ => rfl

end

/-! ### Comparison -/

/-- What a step comes to under lenient and under strict decoding, when the lenient processor has
counted some opcodes without meaning before, and the step runs one of them or none. -/
inductive Compared (count : Nat) : Option (UInt8 × UInt16) → Outcome β → Outcome β → Prop where
  /-- Nothing is counted, and both do the same. -/
  | same {z : Processor β} {n : Nat} (h : z.audit.unassigned = count) :
      Compared count none (z, .ok n) (z.decoding true, .ok n)
  /-- An opcode is counted, or a fault. -/
  | fault {z w : Processor β} {n : Nat} {op : UInt8} {a : UInt16}
      (h : z.audit.unassigned = count + 1) (hlast : z.audit.last = some (0xED, op, a)) :
      Compared count (some (op, a)) (z, .ok n) (w, .error ⟨0xED, op, a⟩)

theorem Compared.plus {count : Nat} {m : Option (UInt8 × UInt16)} {o p : Outcome β}
    (h : Compared count m o p) (n : Nat) : Compared count m (o.plus n) (p.plus n) := by
  cases h with
  | same h => exact .same h
  | fault h hlast => exact .fault h hlast

theorem Compared.le_unassigned {count : Nat} {m : Option (UInt8 × UInt16)} {o p : Outcome β}
    (h : Compared count m o p) : count ≤ o.1.audit.unassigned := by
  cases h with
  | same h => exact Nat.le_of_eq h.symm
  | fault h _ => exact h ▸ Nat.le_succ count

theorem Compared.unassigned_of_some {count : Nat} {x : UInt8 × UInt16} {o p : Outcome β}
    (h : Compared count (some x) o p) : o.1.audit.unassigned = count + 1 := by
  cases h with
  | fault h _ => exact h

/-- The lenient processor does not fail. -/
theorem Compared.ok {count : Nat} {m : Option (UInt8 × UInt16)} {o p : Outcome β}
    (h : Compared count m o p) : ∃ n, o.2 = .ok n := by
  cases h with
  | same _ => exact ⟨_, rfl⟩
  | fault _ _ => exact ⟨_, rfl⟩

theorem Compared.error {count : Nat} {m : Option (UInt8 × UInt16)} {o p : Outcome β} {e : Fault}
    (h : Compared count m o p) (he : p.2 = .error e) : m = some (e.opcode, e.pc) := by
  cases h with
  | same _ => cases he
  | fault _ _ =>
      cases he
      rfl

/-- It counts the opcode at which the strict one fails. -/
theorem Compared.counted {count : Nat} {op : UInt8} {a : UInt16} {o p : Outcome β}
    (h : Compared count (some (op, a)) o p) : ∃ n, o.2 = .ok n ∧
      o.1.audit.unassigned = count + 1 ∧ o.1.audit.last = some (0xED, op, a) := by
  cases h with
  | fault hcount hlast => exact ⟨_, rfl, hcount, hlast⟩

/-- What neither counts nor looks at the strictness compares well. -/
theorem compared_done {f : Processor β → Timed β} {z : Processor β}
    (hf : ∀ strict, f (z.decoding strict) = ((f z).1.decoding strict, (f z).2))
    (h : (f z).1.audit.unassigned = z.audit.unassigned) :
    Compared z.audit.unassigned none (f (z.decoding false)).done (f (z.decoding true)).done := by
  rw [hf, hf]
  exact .same h

/-- So does such an instruction after an opcode that may be flagged as undocumented. -/
theorem compared_flagged {f : Processor β → Timed β}
    (hf : ∀ strict w, f (decoding strict w) = ((f w).1.decoding strict, (f w).2))
    (h : ∀ w, (f w).1.audit.unassigned = w.audit.unassigned) (p : Prop) [Decidable p]
    (z : Processor β) (lead opcode : UInt8) (pc : UInt16) :
    let w := if p then z.flagUndocumented lead opcode pc else z
    Compared z.audit.unassigned none (f (w.decoding false)).done (f (w.decoding true)).done := by
  intro w
  have hcount : w.audit.unassigned = z.audit.unassigned := flagged_unassigned p z lead opcode pc
  rw [← hcount]
  exact compared_done (fun strict => hf strict w) (h w)

variable [Bus β]

/-- The opcode at the program counter if it means nothing after `ED`, with the address before it. -/
def nextUnassigned? (z : Processor β) : Option (UInt8 × UInt16) :=
  if (decodeExtended (z.peek z.regs.pc)).isNone then some (z.peek z.regs.pc, z.regs.pc - 1)
  else none

/-- The opcode without meaning that an opcode byte comes to, with the address before it. -/
def unassignedAfter? (op : UInt8) (z : Processor β) : Option (UInt8 × UInt16) :=
  match lookUp op with
  | .extended => z.nextUnassigned?
  | .indexed _ =>
    match lookUp (z.peek z.regs.pc) with
    | .extended => z.fetch.2.nextUnassigned?
    | _ => none
  | _ => none

/-- The processor when it has accepted a maskable interrupt and read the data lines. -/
def acknowledged (z : Processor β) : Processor β :=
  ((z.note (.irq z.regs.im z.regs.pc)).mapRegs fun s =>
    { s.refresh with halted := false, iff1 := false, iff2 := false }).acknowledge.2

/-- The opcode without meaning that a step comes to, with the address before it. -/
def unassigned? (z : Processor β) : Option (UInt8 × UInt16) :=
  if z.regs.nmiPending then none
  else if acceptsIRQ z.regs then
    if z.regs.im == 0 then z.acknowledged.unassignedAfter? z.acknowledge.1 else none
  else if z.regs.halted then none
  else z.fetch.2.unassignedAfter? z.fetch.1

theorem fetch_decoding (strict : Bool) (z : Processor β) :
    (z.decoding strict).fetch = (z.fetch.1, z.fetch.2.decoding strict) := rfl

omit [Bus β] in
theorem flagged_decoding (p : Prop) [Decidable p] (strict : Bool) (z : Processor β)
    (lead opcode : UInt8) (pc : UInt16) :
    (if p then (z.decoding strict).flagUndocumented lead opcode pc else z.decoding strict) =
      (if p then z.flagUndocumented lead opcode pc else z).decoding strict := by
  split <;> rfl

theorem execExtended_compared (z : Processor β) :
    Compared z.audit.unassigned z.nextUnassigned? (execExtended (z.decoding false))
      (execExtended (z.decoding true)) := by
  have hop : z.peek z.regs.pc = z.fetch.1 := rfl
  have hpc (strict : Bool) : (z.decoding strict).regs.pc = z.regs.pc := rfl
  unfold execExtended nextUnassigned?
  simp only [fetch_decoding, hop, hpc]
  cases hd : decodeExtended z.fetch.1 with
  | none => exact .fault rfl rfl
  | some i =>
      simp only [flagged_decoding]
      exact compared_flagged (decoding_congr fun s z => execAssigned_onto s z i)
        (fun w => congrArg Audit.unassigned (execAssigned_audit i w)) _ z.fetch.2 _ _ _

theorem execIndexed_compared (x : IndexLead) (z : Processor β) :
    Compared z.audit.unassigned
      (match lookUp (z.peek z.regs.pc) with
        | .extended => z.fetch.2.nextUnassigned?
        | _ => none)
      (execIndexed x (z.decoding false)) (execIndexed x (z.decoding true)) := by
  have hop : z.peek z.regs.pc = z.fetch.1 := rfl
  have hpeek (strict : Bool) (a : UInt16) : (z.decoding strict).peek a = z.peek a := rfl
  have hpc (strict : Bool) : (z.decoding strict).regs.pc = z.regs.pc := rfl
  unfold execIndexed
  simp only [fetch_decoding, hpeek, hpc, hop]
  cases lookUp z.fetch.1 with
  | indexed _ => exact .same rfl
  | extended =>
      exact (execExtended_compared
        (z.flagUndocumented x.byte z.fetch.1 (z.regs.pc - 1)).fetch.2).plus leadCost
  | bits =>
      exact compared_done (z := z.fetch.2)
        (fun strict => decoding_congr (fun s z => execIndexedBit_onto s z x) strict z.fetch.2)
        (execIndexedBit_unassigned x z.fetch.2)
  | plain i =>
      simp only [flagged_decoding]
      generalize (if i.usesIndex = true then x.index else Index.hl) = y
      exact (compared_flagged (decoding_congr fun s z => exec_onto s z i y)
        (fun w => congrArg Audit.unassigned (exec_audit i y w)) _ z.fetch.2 _ _ _).plus leadCost

theorem execute_compared (op : UInt8) (z : Processor β) :
    Compared z.audit.unassigned (z.unassignedAfter? op) (execute op (z.decoding false))
      (execute op (z.decoding true)) := by
  unfold execute unassignedAfter?
  cases lookUp op with
  | plain i =>
      exact compared_done (fun strict => decoding_congr (fun s z => exec_onto s z i .hl) strict z)
        (congrArg Audit.unassigned (exec_audit i .hl z))
  | bits =>
      exact compared_done (fun strict => decoding_congr execBit_onto strict z)
        (execBit_unassigned z)
  | extended => exact execExtended_compared z
  | indexed x => exact execIndexed_compared x z

/-! ### Steps -/

theorem acceptNMI_compared (z : Processor β) :
    Compared z.audit.unassigned none (acceptNMI (z.decoding false)).done
      (acceptNMI (z.decoding true)).done :=
  compared_done (fun strict => decoding_congr (fun _ _ => acceptNMI_onto) strict z) rfl

theorem acceptIRQ_decoding (strict : Bool) (z : Processor β) : (z.decoding strict).acceptIRQ =
    if z.regs.im == 0 then (execute z.acknowledge.1 (z.acknowledged.decoding strict)).plus 2
    else if z.regs.im == 1 then
      (((z.acknowledged.push z.regs.pc).jumpTo 0x0038).decoding strict, .ok 13)
    else
      let w := z.acknowledged.push z.regs.pc
      ((w.jumpTo (w.peekWord (Word.ofBytes z.regs.i z.acknowledge.1))).decoding strict, .ok 19) :=
  rfl

theorem acceptIRQ_compared (z : Processor β) :
    Compared z.audit.unassigned
      (if z.regs.im == 0 then z.acknowledged.unassignedAfter? z.acknowledge.1 else none)
      (z.decoding false).acceptIRQ (z.decoding true).acceptIRQ := by
  rw [acceptIRQ_decoding, acceptIRQ_decoding]
  by_cases h0 : (z.regs.im == 0) = true
  · rw [if_pos h0, if_pos h0, if_pos h0]
    exact (execute_compared z.acknowledge.1 z.acknowledged).plus 2
  · rw [if_neg h0, if_neg h0, if_neg h0]
    by_cases h1 : (z.regs.im == 1) = true
    · rw [if_pos h1, if_pos h1]
      exact .same rfl
    · rw [if_neg h1, if_neg h1]
      exact .same rfl

theorem unassignedAfter?_congr (op : UInt8) {z w : Processor β} (hpc : z.regs.pc = w.regs.pc)
    (hbus : z.bus = w.bus) : z.unassignedAfter? op = w.unassignedAfter? op := by
  have hpeek (a : UInt16) : z.peek a = w.peek a := by
    unfold peek
    rw [hbus]
  have hnext : z.nextUnassigned? = w.nextUnassigned? := by
    unfold nextUnassigned?
    rw [hpc, hpeek]
  have hfetch : z.fetch.2.nextUnassigned? = w.fetch.2.nextUnassigned? := by
    have hpeek (a : UInt16) : z.fetch.2.peek a = w.fetch.2.peek a := hpeek a
    have hpc : z.fetch.2.regs.pc = w.fetch.2.regs.pc := congrArg (· + 1) hpc
    unfold nextUnassigned?
    rw [hpc, hpeek]
  unfold unassignedAfter?
  rw [hnext, hfetch, hpc, hpeek]

theorem runInstruction_compared (z : Processor β) :
    Compared z.audit.unassigned (z.fetch.2.unassignedAfter? z.fetch.1)
      (z.decoding false).runInstruction (z.decoding true).runInstruction := by
  have h : Compared z.audit.unassigned _ _ _ := execute_compared z.fetch.1 z.fetch.2
  unfold runInstruction
  simp only [fetch_decoding]
  generalize execute z.fetch.1 (z.fetch.2.decoding false) = o at h
  generalize execute z.fetch.1 (z.fetch.2.decoding true) = p at h
  generalize z.fetch.2.unassignedAfter? z.fetch.1 = m at h
  cases h with
  | same h => exact .same h
  | fault h hlast => exact .fault h hlast

theorem stepUnclocked_compared (z : Processor β) :
    Compared z.audit.unassigned z.unassigned? (z.decoding false).stepUnclocked
      (z.decoding true).stepUnclocked := by
  have hmap (strict : Bool) (g : Registers → Registers) :
      (z.decoding strict).mapRegs g = (z.mapRegs g).decoding strict := rfl
  unfold stepUnclocked unassigned?
  simp only [hmap]
  have hregs (strict : Bool) : (z.decoding strict).regs = z.regs := rfl
  rw [hregs, hregs]
  by_cases hn : z.regs.nmiPending = true
  · rw [if_pos hn, if_pos hn, if_pos hn]
    exact acceptNMI_compared (z.mapRegs fun s => { s with nmiPending := false })
  · rw [if_neg hn, if_neg hn, if_neg hn]
    by_cases hi : acceptsIRQ z.regs = true
    · rw [if_pos hi, if_pos hi, if_pos hi]
      exact acceptIRQ_compared z
    · rw [if_neg hi, if_neg hi, if_neg hi]
      have hhalted (strict : Bool) :
        ((z.mapRegs fun s => { s with eiPending := false }).decoding strict).regs.halted =
          z.regs.halted := rfl
      rw [hhalted, hhalted]
      by_cases hh : z.regs.halted = true
      · rw [if_pos hh, if_pos hh, if_pos hh]
        exact .same rfl
      · rw [if_neg hh, if_neg hh, if_neg hh]
        -- The step ends the delay of interrupts first, which the opcodes do not depend on.
        have hmeets : (z.mapRegs fun s => { s with eiPending := false }).fetch.2.unassignedAfter?
            (z.mapRegs fun s => { s with eiPending := false }).fetch.1 =
              z.fetch.2.unassignedAfter? z.fetch.1 := unassignedAfter?_congr _ rfl rfl
        rw [← hmeets]
        exact runInstruction_compared (z.mapRegs fun s => { s with eiPending := false })

theorem step_compared (z : Processor β) :
    Compared z.audit.unassigned z.unassigned? (z.decoding false).step (z.decoding true).step := by
  have h := stepUnclocked_compared z
  unfold step
  generalize (z.decoding false).stepUnclocked = o at h
  generalize (z.decoding true).stepUnclocked = p at h
  generalize z.unassigned? = m at h
  cases h with
  | same h => exact .same h
  | fault h hlast => exact .fault h hlast

/-! ### The ways to an opcode without meaning -/

omit [Bus β] in
theorem lookUp_extended {op : UInt8} : lookUp op = .extended ↔ op = 0xED := by
  rw [lookUp_eq_decode]
  refine ⟨fun h => ?_, fun h => by rw [h]; rfl⟩
  by_cases hop : op ∈ [0xCB, 0xDD, 0xED, 0xFD]
  · simp only [List.mem_cons, List.not_mem_nil, or_false] at hop
    rcases hop with rfl | rfl | rfl | rfl
    all_goals first | rfl | cases h
  · obtain ⟨i, hi⟩ := decode_plain hop
    cases hi.symm.trans h

omit [Bus β] in
theorem lookUp_indexed {op : UInt8} {x : IndexLead} : lookUp op = .indexed x ↔ op = x.byte := by
  rw [lookUp_eq_decode]
  refine ⟨fun h => ?_, fun h => by rw [h]; cases x <;> rfl⟩
  by_cases hop : op ∈ [0xCB, 0xDD, 0xED, 0xFD]
  · simp only [List.mem_cons, List.not_mem_nil, or_false] at hop
    rcases hop with rfl | rfl | rfl | rfl
    all_goals cases h
    all_goals rfl
  · obtain ⟨i, hi⟩ := decode_plain hop
    cases hi.symm.trans h

theorem nextUnassigned?_eq_some {z : Processor β} {op : UInt8} {a : UInt16} :
    z.nextUnassigned? = some (op, a) ↔
      decodeExtended op = none ∧ op = z.peek z.regs.pc ∧ a = z.regs.pc - 1 := by
  simp only [nextUnassigned?, Option.isNone_iff_eq_none, Option.ite_none_right_eq_some,
    Option.some.injEq, Prod.mk.injEq]
  constructor
  · rintro ⟨hmeaning, rfl, rfl⟩
    exact ⟨hmeaning, rfl, rfl⟩
  · rintro ⟨hmeaning, rfl, rfl⟩
    exact ⟨hmeaning, rfl, rfl⟩

theorem fetch_pc_sub_one (z : Processor β) : z.fetch.2.regs.pc - 1 = z.regs.pc :=
  UInt16.add_sub_cancel ..

theorem fetch_pc_add_one (z : Processor β) : z.fetch.2.regs.pc + 1 = z.regs.pc + 2 :=
  UInt16.add_assoc ..

theorem unassignedAfter?_eq_some {z : Processor β} {b op : UInt8} {a : UInt16} :
    z.unassignedAfter? b = some (op, a) ↔ decodeExtended op = none ∧
      (b = 0xED ∧ op = z.peek z.regs.pc ∧ a = z.regs.pc - 1 ∨
        ∃ x : IndexLead, b = x.byte ∧ z.peek z.regs.pc = 0xED ∧
          op = z.peek (z.regs.pc + 1) ∧ a = z.regs.pc) := by
  have hpeek : z.fetch.2.peek z.fetch.2.regs.pc = z.peek (z.regs.pc + 1) := rfl
  rw [← lookUp_extended]
  simp only [← lookUp_indexed, ← lookUp_extended]
  unfold unassignedAfter?
  cases hb : lookUp b with
  | plain i => simp
  | bits => simp
  | extended =>
      simp only [nextUnassigned?_eq_some, true_and, reduceCtorEq, false_and, exists_false, or_false]
  | indexed x =>
      cases hop : lookUp (z.peek z.regs.pc) with
      | extended =>
          simp only [nextUnassigned?_eq_some, fetch_pc_sub_one, hpeek]
          simp
      | _ => simp

/-- Whether a step runs the instruction at the program counter. -/
def runs (z : Processor β) : Bool :=
  !z.regs.nmiPending && !acceptsIRQ z.regs && !z.regs.halted

/-- How a step comes to an opcode after `ED`, with the address of the `ED` byte: plainly, after a
lead byte of an index register, or through an interrupting device in mode 0.  When the device gives
the `ED` byte itself, that byte has no address, and the one before the opcode stands for it. -/
inductive Meets (z : Processor β) : UInt8 → UInt16 → Prop where
  | plain (h : z.runs = true) (hed : z.peek z.regs.pc = 0xED) :
      Meets z (z.peek (z.regs.pc + 1)) z.regs.pc
  | indexed (x : IndexLead) (h : z.runs = true) (hlead : z.peek z.regs.pc = x.byte)
      (hed : z.peek (z.regs.pc + 1) = 0xED) :
      Meets z (z.peek (z.regs.pc + 2)) (z.regs.pc + 1)
  | device (h : z.accepts = true) (him : z.regs.im = 0) (hed : z.acknowledge.1 = 0xED) :
      Meets z (z.acknowledge.2.peek z.regs.pc) (z.regs.pc - 1)
  | deviceIndexed (x : IndexLead) (h : z.accepts = true) (him : z.regs.im = 0)
      (hlead : z.acknowledge.1 = x.byte) (hed : z.acknowledge.2.peek z.regs.pc = 0xED) :
      Meets z (z.acknowledge.2.peek (z.regs.pc + 1)) z.regs.pc

theorem unassigned?_of_runs {z : Processor β} (h : z.runs = true) :
    z.unassigned? = z.fetch.2.unassignedAfter? z.fetch.1 := by
  simp only [runs, Bool.and_eq_true, Bool.not_eq_true'] at h
  obtain ⟨⟨hn, hi⟩, hh⟩ := h
  unfold unassigned?
  rw [hn, hi, hh, if_neg Bool.false_ne_true, if_neg Bool.false_ne_true, if_neg Bool.false_ne_true]

theorem unassigned?_of_accepts {z : Processor β} (h : z.accepts = true) :
    z.unassigned? =
      if z.regs.im == 0 then z.acknowledged.unassignedAfter? z.acknowledge.1 else none := by
  simp only [accepts, Bool.and_eq_true, Bool.not_eq_true'] at h
  unfold unassigned?
  rw [h.1, h.2, if_neg Bool.false_ne_true, if_pos rfl]

theorem unassigned?_eq_none {z : Processor β} (hruns : z.runs = false)
    (haccepts : z.accepts = false) : z.unassigned? = none := by
  unfold unassigned?
  unfold runs at hruns
  unfold accepts at haccepts
  cases hn : z.regs.nmiPending
  · cases hi : acceptsIRQ z.regs
    · cases hh : z.regs.halted
      · simp [hn, hi, hh] at hruns
      · rfl
    · simp [hn, hi] at haccepts
  · rfl

/-- `unassigned?` finds the opcodes that a step meets and that have no meaning. -/
theorem unassigned?_eq_some {z : Processor β} {op : UInt8} {a : UInt16} :
    z.unassigned? = some (op, a) ↔ Meets z op a ∧ decodeExtended op = none := by
  constructor
  · intro h
    cases hruns : z.runs
    · cases haccepts : z.accepts
      · rw [unassigned?_eq_none hruns haccepts] at h
        cases h
      · rw [unassigned?_of_accepts haccepts] at h
        by_cases him : (z.regs.im == 0) = true
        · rw [if_pos him, unassignedAfter?_eq_some] at h
          obtain ⟨hmeaning, ⟨hed, rfl, rfl⟩ | ⟨x, hlead, hed, rfl, rfl⟩⟩ := h
          · exact ⟨.device haccepts (eq_of_beq him) hed, hmeaning⟩
          · exact ⟨.deviceIndexed x haccepts (eq_of_beq him) hlead hed, hmeaning⟩
        · rw [if_neg him] at h
          cases h
    · rw [unassigned?_of_runs hruns, unassignedAfter?_eq_some, fetch_pc_sub_one,
        fetch_pc_add_one] at h
      obtain ⟨hmeaning, ⟨hed, rfl, rfl⟩ | ⟨x, hlead, hed, rfl, rfl⟩⟩ := h
      · exact ⟨.plain hruns hed, hmeaning⟩
      · exact ⟨.indexed x hruns hlead hed, hmeaning⟩
  · rintro ⟨hmeets, hmeaning⟩
    cases hmeets with
    | plain h hed =>
        rw [unassigned?_of_runs h, unassignedAfter?_eq_some]
        exact ⟨hmeaning, .inl ⟨hed, rfl, (fetch_pc_sub_one z).symm⟩⟩
    | indexed x h hlead hed =>
        rw [unassigned?_of_runs h, unassignedAfter?_eq_some, fetch_pc_add_one]
        exact ⟨hmeaning, .inr ⟨x, hlead, hed, rfl, rfl⟩⟩
    | device h him hed =>
        rw [unassigned?_of_accepts h, if_pos (beq_iff_eq.2 him), unassignedAfter?_eq_some]
        exact ⟨hmeaning, .inl ⟨hed, rfl, rfl⟩⟩
    | deviceIndexed x h him hlead hed =>
        rw [unassigned?_of_accepts h, if_pos (beq_iff_eq.2 him), unassignedAfter?_eq_some]
        exact ⟨hmeaning, .inr ⟨x, hlead, hed, rfl, rfl⟩⟩

/-! ### Runs -/

/-- What can happen to a processor: the lines of interrupts take a level, the outside world does
something, and it makes a step. -/
inductive Input (β : Type) where
  | irqLine (level : Bool)
  | nmi
  | world (g : β → β)
  | step

/-- The processor after some inputs, with the results of its steps. -/
def feed (z : Processor β) : List (Input β) → Processor β × List (Except Fault Nat)
  | [] => (z, [])
  | .irqLine level :: is => (z.setIrqLine level).feed is
  | .nmi :: is => z.requestNMI.feed is
  | .world g :: is => { z with bus := g z.bus }.feed is
  | .step :: is => ((z.step.1.feed is).1, z.step.2 :: (z.step.1.feed is).2)

omit [Bus β] in
theorem decoding_of_strict {z : Processor β} {strict : Bool} (h : z.strict = strict) :
    z.decoding strict = z := by
  subst h
  rfl

/-- No input takes an opcode off the count. -/
theorem le_feed_unassigned (is : List (Input β)) (z : Processor β) (hz : z.strict = false) :
    z.audit.unassigned ≤ (z.feed is).1.audit.unassigned := by
  induction is generalizing z with
  | nil => exact Nat.le_refl _
  | cons i is ih =>
      cases i with
      | irqLine level => exact ih (z.setIrqLine level) hz
      | nmi => exact ih z.requestNMI hz
      | world g => exact ih { z with bus := g z.bus } hz
      | step =>
          refine Nat.le_trans ?_ (ih z.step.1 (z.step_strict.trans hz))
          have h := (step_compared z).le_unassigned
          rwa [decoding_of_strict hz] at h

theorem feed_strict (is : List (Input β)) (z : Processor β) : (z.feed is).1.strict = z.strict := by
  induction is generalizing z with
  | nil => rfl
  | cons i is ih =>
      cases i with
      | irqLine level => exact ih (z.setIrqLine level)
      | nmi => exact ih z.requestNMI
      | world g => exact ih { z with bus := g z.bus }
      | step => exact (ih z.step.1).trans z.step_strict

/-- As long as the lenient processor counts nothing, the strict one does the same, and no step
fails. -/
theorem feed_decoding (is : List (Input β)) (z : Processor β)
    (h : ((z.decoding false).feed is).1.audit.unassigned = z.audit.unassigned) :
    (z.decoding true).feed is =
        (((z.decoding false).feed is).1.decoding true, ((z.decoding false).feed is).2) ∧
      ∀ r ∈ ((z.decoding false).feed is).2, ∃ n, r = .ok n := by
  induction is generalizing z with
  | nil => exact ⟨rfl, by simp [feed]⟩
  | cons i is ih =>
      cases i with
      | irqLine level => exact ih (z.setIrqLine level) h
      | nmi => exact ih z.requestNMI h
      | world g => exact ih { z with bus := g z.bus } h
      | step =>
          have hstep := step_compared z
          have hstrict : (z.decoding false).step.1.strict = false := step_strict _
          have hle := le_feed_unassigned is _ hstrict
          simp only [feed] at h ⊢
          generalize (z.decoding false).step = o at h hstep hstrict hle ⊢
          generalize (z.decoding true).step = p at hstep ⊢
          generalize z.unassigned? = m at hstep
          cases hstep with
          | @same w n hcount =>
              have hw : w.decoding false = w := decoding_of_strict hstrict
              obtain ⟨hfeed, hok⟩ := ih w (by rw [hw, h, hcount])
              rw [hw] at hfeed hok
              refine ⟨by rw [hfeed], ?_⟩
              intro r hr
              rcases List.mem_cons.1 hr with rfl | hr
              · exact ⟨n, rfl⟩
              · exact hok r hr
          | fault hcount _ =>
              -- The count does not go down again, so this step would show in the end.
              rw [h] at hle
              exact absurd (hcount ▸ hle) (Nat.not_succ_le_self _)

/-- **Strict decoding only adds faults.**  Of two processors that differ in nothing else, fed with
the same inputs, the strict one does what the lenient one does as long as that has counted no opcode
without meaning, and no step fails.  The next step counts none, and then both make it alike; or it
meets one, and then the strict processor fails and names the opcode with the address of its `ED`
byte.  If an interrupting device has given that byte, the address before the opcode is named. -/
theorem strict_only_adds_faults (z : Processor β) (is : List (Input β)) :
    let u := (z.decoding false).feed is
    let v := (z.decoding true).feed is
    u.1.audit.unassigned = z.audit.unassigned →
      v = (u.1.decoding true, u.2) ∧ (∀ r ∈ u.2, ∃ n, r = .ok n) ∧
      (u.1.step.1.audit.unassigned = z.audit.unassigned →
        v.1.step = (u.1.step.1.decoding true, u.1.step.2) ∧ ∃ n, v.1.step.2 = .ok n) ∧
      (u.1.step.1.audit.unassigned ≠ z.audit.unassigned →
        ∃ op a, Meets u.1 op a ∧ decodeExtended op = none ∧
          v.1.step.2 = .error ⟨0xED, op, a⟩ ∧
          u.1.step.1.audit.unassigned = z.audit.unassigned + 1 ∧
          u.1.step.1.audit.last = some (0xED, op, a)) := by
  intro u v hu
  obtain ⟨hv, hok⟩ := feed_decoding is z hu
  have hstrict : u.1.strict = false := feed_strict is _
  have hstep := step_compared u.1
  have hv1 : v.1 = u.1.decoding true := congrArg (fun p => p.1) hv
  refine ⟨hv, hok, ?_⟩
  rw [decoding_of_strict hstrict, hu, ← hv1] at hstep
  generalize hmeets : u.1.unassigned? = m at hstep
  generalize u.1.step = o at hstep ⊢
  generalize v.1.step = p at hstep ⊢
  cases hstep with
  | @same w n hcount => exact ⟨fun _ => ⟨rfl, n, rfl⟩, fun h => absurd hcount h⟩
  | @fault w w' n op a hcount hlast =>
      obtain ⟨hmeets, hmeaning⟩ := unassigned?_eq_some.1 hmeets
      exact ⟨fun h => absurd (hcount.symm.trans h) (Nat.succ_ne_self _),
        fun _ => ⟨op, a, hmeets, hmeaning, rfl, hcount, hlast⟩⟩

/-- Two processors that accept an interrupt in mode 0, over blank memory, and are given `ED` by the
device: the strict one fails and names the address before the program counter, where no `ED` is. -/
theorem strict_only_adds_faults_of_device : ∃ z : Processor Bench,
    z.accepts = true ∧ z.regs.pc = 0x0100 ∧ z.peek 0x00FF = 0x00 ∧
      (z.decoding false).step.1.audit.last = some (0xED, 0x00, 0x00FF) ∧
      (z.decoding true).step.2 = .error ⟨0xED, 0x00, 0x00FF⟩ := by
  obtain ⟨z, hstrict, haccepts, hpc, him, hed, hblank, hopcode⟩ : ∃ z : Processor Bench,
      z.strict = false ∧ z.accepts = true ∧ z.regs.pc = 0x0100 ∧ z.regs.im = 0 ∧
        z.acknowledge.1 = 0xED ∧ z.peek 0x00FF = 0x00 ∧
        z.acknowledge.2.peek z.regs.pc = 0x00 := by
    let b : Bench := { floating := 0xED }
    have hb (a : UInt16) : Bus.read b a = 0 := by
      simp [b, Bus.read, Memory.byteAt, Memory.blank]
    exact ⟨{ regs := { pc := 0x0100, iff1 := true, irqLine := true }, bus := b },
      rfl, rfl, rfl, rfl, rfl, hb 0x00FF, hb 0x0100⟩
  have hmeets : z.unassigned? = some (0x00, 0x00FF) := by
    have h : Meets z (z.acknowledge.2.peek z.regs.pc) (z.regs.pc - 1) := .device haccepts him hed
    rw [hopcode, hpc] at h
    exact unassigned?_eq_some.2 ⟨h, by decide⟩
  have hcount : (z.decoding false).step.1.audit.unassigned ≠ z.audit.unassigned := by
    have h := step_compared z
    rw [hmeets] at h
    rw [h.unassigned_of_some]
    exact Nat.succ_ne_self _
  obtain ⟨op, a, hmeets', hmeaning, hfault, -, hlast⟩ :=
    (strict_only_adds_faults z [] rfl).2.2.2 hcount
  obtain ⟨rfl, rfl⟩ : op = 0x00 ∧ a = 0x00FF := by
    rw [show ((z.decoding false).feed []).1 = z from decoding_of_strict hstrict] at hmeets'
    have h := hmeets.symm.trans (unassigned?_eq_some.2 ⟨hmeets', hmeaning⟩)
    simp only [Option.some.injEq, Prod.mk.injEq] at h
    exact ⟨h.1.symm, h.2.symm⟩
  exact ⟨z, haccepts, hpc, hblank, hlast, hfault⟩

end Processor

end MasterSystem.Z80
