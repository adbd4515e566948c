import MasterSystem.Proofs.Z80.Blocks
import MasterSystem.Z80.Bench

/-! # What a failing step leaves behind

Under strict decoding a step that meets an opcode without meaning fails, and the processor stays as
it is then.

* **Opcodes.**  `beyond` is the processor when it has read on from an opcode byte up to an opcode of
  the extended page.  One without meaning leaves just that (`execute_fault`).
* **Steps.**  `Failed` lists what a failing step can leave behind, for an opcode at the program
  counter and for one that an interrupting device has given (`failed`).
* **Results.**  `failed_step` says what of it differs from the processor before: the refresh
  counter, the shadow of `EI`, and the count of a lead byte.  An accepted interrupt stays accepted.
  -/

namespace MasterSystem.Z80

/-- The audit when a lead byte without effect, if there is one, has been counted. -/
def Audit.withLead (m : Audit) (x : Option IndexLead) (pc : UInt16) : Audit :=
  match x with
  | none => m
  | some x => { m with undocumented := m.undocumented + 1, last := some (x.byte, 0xED, pc) }

theorem Audit.withLead_unassigned (m : Audit) (x : Option IndexLead) (pc : UInt16) :
    (m.withLead x pc).unassigned = m.unassigned := by
  cases x <;> rfl

namespace Processor

/-! ### Opcodes -/

/-- The first byte on the way to an opcode of the extended page, which is `ED` or a lead byte that
has no effect before it. -/
def firstByte : Option IndexLead → UInt8
  | none => 0xED
  | some x => x.byte

/-- How many lead bytes stand before `ED`. -/
def leadBytes : Option IndexLead → Nat
  | none => 0
  | some _ => 1

variable {β : Type} [Bus β]

/-- The processor when it has read on from the first byte up to an opcode of the extended page. -/
def beyond (z : Processor β) : Option IndexLead → Processor β
  | none => z.fetch.2
  | some x => (z.flagUndocumented x.byte 0xED (z.regs.pc - 1)).fetch.2.fetch.2

variable {z w : Processor β} {x : Option IndexLead} {e : Fault} {b op : UInt8} {a : UInt16}

theorem beyond_bus (z : Processor β) (x : Option IndexLead) : (z.beyond x).bus = z.bus := by
  cases x <;> simp only [beyond, fetch, mapRegs, flagUndocumented]

/-- Only the refresh counter and the program counter move. -/
theorem beyond_regs (z : Processor β) (x : Option IndexLead) : (z.beyond x).regs =
    { z.regs with r := (z.beyond x).regs.r, pc := (z.beyond x).regs.pc } := by
  cases x <;> simp only [beyond, fetch, mapRegs, flagUndocumented, Registers.refresh]

theorem beyond_r (z : Processor β) (x : Option IndexLead) : (z.beyond x).regs.r.toNat =
    z.regs.r.toNat / 128 * 128 + (z.regs.r.toNat + 1 + leadBytes x) % 128 := by
  have hfirst := z.regs.refresh_r
  cases x with
  | none => exact hfirst
  | some x =>
      have hsecond := z.regs.refresh.refresh_r
      show z.regs.refresh.refresh.r.toNat = _ + (_ + 1 + 1) % 128
      omega

theorem beyond_audit (z : Processor β) (x : Option IndexLead) :
    (z.beyond x).audit = z.audit.withLead x (z.regs.pc - 1) := by
  cases x <;> rfl

theorem execExtended_fault (hstrict : z.strict = true) (hop : decodeExtended z.fetch.1 = none) :
    execExtended z = (z.fetch.2, .error ⟨0xED, z.fetch.1, z.regs.pc - 1⟩) := by
  have hstrict' : z.fetch.2.strict = true := hstrict
  unfold execExtended
  dsimp only
  rw [hop, hstrict']
  rfl

theorem execIndexed_fault {x : IndexLead} (hstrict : z.strict = true)
    (hed : z.peek z.regs.pc = 0xED) (hop : decodeExtended (z.peek (z.regs.pc + 1)) = none) :
    execIndexed x z =
      (z.beyond (some x), .error ⟨0xED, z.peek (z.regs.pc + 1), z.regs.pc⟩) := by
  let y := (z.flagUndocumented x.byte 0xED (z.regs.pc - 1)).fetch.2
  have hmarked : y.strict = true := by
    simp only [y, fetch, mapRegs, flagUndocumented]
    exact hstrict
  have hfetched : y.fetch.1 = z.peek (z.regs.pc + 1) := by
    simp only [y, fetch, mapRegs, flagUndocumented, Registers.refresh, peek]
  have hpc : y.regs.pc - 1 = z.regs.pc := UInt16.add_sub_cancel ..
  have hfault := execExtended_fault hmarked (hfetched ▸ hop)
  rw [hfetched, hpc] at hfault
  unfold execIndexed
  dsimp only
  rw [hed, lookUp_extended.2 rfl]
  show y.execExtended.plus leadCost = _
  rw [hfault]
  rfl

/-- Under strict decoding an opcode without meaning leaves the processor where it was met. -/
theorem execute_fault (hstrict : z.strict = true) (h : z.unassignedAfter? b = some (op, a)) :
    ∃ x, b = firstByte x ∧ execute b z = (z.beyond x, .error ⟨0xED, op, a⟩) := by
  -- `b` stays a variable, so that nothing looks it up in the table of opcodes.
  obtain ⟨hmeaning, ⟨hb, rfl, rfl⟩ | ⟨x, hb, hed, rfl, rfl⟩⟩ := unassignedAfter?_eq_some.1 h
  · refine ⟨none, hb, ?_⟩
    unfold execute
    rw [lookUp_extended.2 hb]
    exact execExtended_fault hstrict hmeaning
  · refine ⟨some x, hb, ?_⟩
    unfold execute
    rw [lookUp_indexed.2 hb]
    exact execIndexed_fault hstrict hed hmeaning

/-! ### Steps -/

/-- The processor back at the first byte after it has read up to an opcode of the extended page. -/
def readBack (z : Processor β) (x : Option IndexLead) : Processor β :=
  ((z.mapRegs fun s => { s with eiPending := false }).fetch.2.beyond x).mapRegs
    fun s => { s with pc := z.regs.pc }

theorem readBack_bus (z : Processor β) (x : Option IndexLead) : (z.readBack x).bus = z.bus :=
  beyond_bus (z.mapRegs fun s => { s with eiPending := false }).fetch.2 x

theorem readBack_audit (z : Processor β) (x : Option IndexLead) :
    (z.readBack x).audit = z.audit.withLead x z.regs.pc := by
  have haudit := beyond_audit (z.mapRegs fun s => { s with eiPending := false }).fetch.2 x
  rw [fetch_pc_sub_one] at haudit
  exact haudit

theorem readBack_regs (z : Processor β) (x : Option IndexLead) : (z.readBack x).regs =
    { z.regs with r := (z.readBack x).regs.r, eiPending := false } := by
  cases x <;>
    simp only [readBack, beyond, fetch, mapRegs, flagUndocumented, Registers.refresh]

theorem readBack_r (z : Processor β) (x : Option IndexLead) : (z.readBack x).regs.r.toNat =
    z.regs.r.toNat / 128 * 128 + (z.regs.r.toNat + 2 + leadBytes x) % 128 := by
  have hfirst := z.regs.refresh_r
  have hrest := beyond_r (z.mapRegs fun s => { s with eiPending := false }).fetch.2 x
  rw [show (z.mapRegs fun s => { s with eiPending := false }).fetch.2.regs.r = z.regs.refresh.r
    from rfl] at hrest
  show (beyond _ x).regs.r.toNat = _
  omega

/-- What a failing step can leave behind, with the lead byte that stands before the `ED`. -/
inductive Failed (z : Processor β) (x : Option IndexLead) : Processor β → Prop where
  /-- The program counter is back at the first byte. -/
  | here (h : z.runs = true) (hfirst : z.peek z.regs.pc = firstByte x) :
      Failed z x (z.readBack x)
  /-- The interrupt has been accepted. -/
  | device (h : z.accepts = true) (him : z.regs.im = 0) (hfirst : z.acknowledge.1 = firstByte x) :
      Failed z x (z.acknowledged.beyond x)

theorem step_of_unclocked_fault (h : z.stepUnclocked = (w, .error e)) : z.step = (w, .error e) := by
  unfold Processor.step
  rw [h]

/-- An opcode without meaning at the program counter. -/
theorem step_fault_of_runs (hstrict : z.strict = true) (hruns : z.runs = true)
    (h : z.unassigned? = some (op, a)) :
    ∃ x w, Failed z x w ∧ z.step = (w, .error ⟨0xED, op, a⟩) := by
  let y := z.mapRegs fun s => { s with eiPending := false }
  have hmeets : y.fetch.2.unassignedAfter? y.fetch.1 = some (op, a) := by
    rw [unassigned?_of_runs hruns] at h
    rw [← h]
    exact unassignedAfter?_congr _ rfl rfl
  obtain ⟨x, hfirst, hrun⟩ := execute_fault (z := y.fetch.2) hstrict hmeets
  refine ⟨x, _, .here hruns hfirst, step_of_unclocked_fault ?_⟩
  rw [stepUnclocked_of_runs hruns]
  unfold runInstruction
  dsimp only
  rw [hrun]
  rfl

/-- An opcode without meaning from an interrupting device. -/
theorem step_fault_of_accepts (hstrict : z.strict = true) (haccepts : z.accepts = true)
    (h : z.unassigned? = some (op, a)) :
    ∃ x w, Failed z x w ∧ z.step = (w, .error ⟨0xED, op, a⟩) := by
  rw [unassigned?_of_accepts haccepts, Option.ite_none_right_eq_some] at h
  obtain ⟨him, hmeets⟩ := h
  obtain ⟨x, hfirst, hrun⟩ := execute_fault (z := z.acknowledged) hstrict hmeets
  refine ⟨x, _, .device haccepts (eq_of_beq him) hfirst, step_of_unclocked_fault ?_⟩
  have hirq := acceptIRQ_decoding true z
  rw [decoding_of_strict hstrict, decoding_of_strict (z := z.acknowledged) hstrict, if_pos him,
    hrun] at hirq
  rw [stepUnclocked_of_accepts haccepts, hirq]
  rfl

theorem step_fault (hstrict : z.strict = true) (h : z.unassigned? = some (op, a)) :
    ∃ x w, Failed z x w ∧ z.step = (w, .error ⟨0xED, op, a⟩) := by
  cases hruns : z.runs
  · cases haccepts : z.accepts
    · rw [unassigned?_eq_none hruns haccepts] at h
      cases h
    · exact step_fault_of_accepts hstrict haccepts h
  · exact step_fault_of_runs hstrict hruns h

/-- A step fails at an opcode without meaning, and only under strict decoding. -/
theorem step_error (h : z.step = (w, .error e)) :
    z.strict = true ∧ z.unassigned? = some (e.opcode, e.pc) := by
  have hcompared := step_compared z
  cases hstrict : z.strict
  · obtain ⟨n, hok⟩ := hcompared.ok
    rw [decoding_of_strict hstrict, h] at hok
    cases hok
  · rw [decoding_of_strict (z := z) hstrict] at hcompared
    exact ⟨rfl, hcompared.error (congrArg Prod.snd h)⟩

theorem failed (h : z.step = (w, .error e)) : ∃ x, Failed z x w := by
  obtain ⟨hstrict, hmeets⟩ := step_error h
  obtain ⟨x, u, hu, hstep⟩ := step_fault hstrict hmeets
  obtain rfl : u = w := congrArg Prod.fst (hstep.symm.trans h)
  exact ⟨x, hu⟩

/-! ### Results -/

/-- All bytes that were read are counted as refreshes. -/
theorem Failed.r (h : Failed z x w) : w.regs.r.toNat =
    z.regs.r.toNat / 128 * 128 + (z.regs.r.toNat + 2 + leadBytes x) % 128 := by
  cases h with
  | here _ _ => exact z.readBack_r x
  | device _ _ _ =>
      have hfirst := z.regs.refresh_r
      have hrest := z.acknowledged.beyond_r x
      rw [show z.acknowledged.regs.r = z.regs.refresh.r from rfl] at hrest
      omega

/-- At least two bytes were read, and not as many as there are counts. -/
theorem Failed.r_ne (h : Failed z x w) : w.regs.r ≠ z.regs.r := by
  intro hsame
  have hr := h.r
  rw [hsame] at hr
  have hleads : leadBytes x ≤ 1 := by cases x <;> simp [leadBytes]
  omega

/-- A lead byte is counted as undocumented. -/
theorem Failed.counted (h : Failed z x w) :
    w.audit.undocumented = z.audit.undocumented + leadBytes x := by
  cases h <;> cases x <;> rfl

/-- The shadow of `EI` is over, or there was none. -/
theorem Failed.shadow (h : Failed z x w) : w.regs.eiPending = false := by
  cases h with
  | here _ _ =>
      rw [readBack_regs]
  | device haccepts _ _ =>
      simp only [accepts, acceptsIRQ, Bool.and_eq_true, Bool.not_eq_true'] at haccepts
      rw [beyond_regs]
      exact haccepts.2.2

/-- The opcode is still there for another step, if no interrupt comes first. -/
theorem unassigned?_congr (hz : z.runs = true) (hw : w.runs = true) (hpc : w.regs.pc = z.regs.pc)
    (hbus : w.bus = z.bus) : w.unassigned? = z.unassigned? := by
  have hfirst : w.fetch.1 = z.fetch.1 := by
    show Bus.read w.bus w.regs.pc = Bus.read z.bus z.regs.pc
    rw [hpc, hbus]
  rw [unassigned?_of_runs hz, unassigned?_of_runs hw, hfirst]
  exact unassignedAfter?_congr _ (congrArg (· + 1) hpc) hbus

/-- A lenient processor gets past the opcode, and counts it. -/
theorem retried (hz : z.runs = true) (hw : w.runs = true) (hpc : w.regs.pc = z.regs.pc)
    (hbus : w.bus = z.bus) (hmeets : z.unassigned? = some (op, a)) :
    ∃ u n, (w.decoding false).step = (u, .ok n) ∧ u.audit.unassigned = w.audit.unassigned + 1 ∧
      u.audit.last = some (0xED, op, a) := by
  have hcompared := step_compared w
  rw [unassigned?_congr hz hw hpc hbus, hmeets] at hcompared
  obtain ⟨n, hok, hcount, hlast⟩ := hcompared.counted
  exact ⟨_, n, Prod.ext rfl hok, hcount, hlast⟩

/-- **A failing step uses up what it has read, and else changes nothing.**  The refresh counter has
counted the bytes read, and a lead byte before `ED` has been counted as undocumented.  Where the
opcode is at the program counter, that is back at its first byte and the shadow of `EI` is over; the
lenient processor then goes on from there unless an interrupt comes first.  Where an interrupting
device has given the first byte, the interrupt stays accepted. -/
theorem failed_step (h : z.step = (w, .error e)) : ∃ x : Option IndexLead,
    w.regs.r.toNat = z.regs.r.toNat / 128 * 128 + (z.regs.r.toNat + 2 + leadBytes x) % 128 ∧
    (z.runs = true ∧ z.peek z.regs.pc = firstByte x ∧ w.bus = z.bus ∧
        w.audit = z.audit.withLead x z.regs.pc ∧
        w.regs = { z.regs with r := w.regs.r, eiPending := false } ∧
        (w.runs = true → ∃ u n, (w.decoding false).step = (u, .ok n) ∧
          u.audit.unassigned = z.audit.unassigned + 1 ∧
          u.audit.last = some (0xED, e.opcode, e.pc)) ∨
      z.accepts = true ∧ z.regs.im = 0 ∧ z.acknowledge.1 = firstByte x ∧
        w.bus = z.acknowledge.2.bus ∧ (∃ a, w.audit = z.audit.withLead x a) ∧
        w.regs =
          { z.regs with
            r := w.regs.r, pc := w.regs.pc, halted := false, iff1 := false, iff2 := false }) := by
  obtain ⟨-, hmeets⟩ := step_error h
  obtain ⟨x, hfailed⟩ := failed h
  refine ⟨x, hfailed.r, ?_⟩
  cases hfailed with
  | here hruns hfirst =>
      have hbus := z.readBack_bus x
      have haudit := z.readBack_audit x
      have hregs := z.readBack_regs x
      refine .inl ⟨hruns, hfirst, hbus, haudit, hregs, fun hw => ?_⟩
      obtain ⟨u, n, hstep, hcount, hlast⟩ := retried hruns hw rfl hbus hmeets
      rw [haudit, z.audit.withLead_unassigned] at hcount
      exact ⟨u, n, hstep, hcount, hlast⟩
  | device haccepts him hfirst =>
      have hbus := z.acknowledged.beyond_bus x
      have haudit := z.acknowledged.beyond_audit x
      have hregs := z.acknowledged.beyond_regs x
      exact .inr ⟨haccepts, him, hfirst, hbus, ⟨z.regs.pc - 1, haudit⟩, hregs⟩

/-- Under strict decoding, `DD ED 00` in the shadow of `EI`. -/
theorem failed_step_after_lead : ∃ (z w : Processor Memory) (e : Fault),
    z.regs.pc = 0x100 ∧ z.regs.r = 0xFE ∧ z.regs.eiPending = true ∧ z.step = (w, .error e) ∧
    w.regs = { z.regs with r := 0x81, eiPending := false } ∧ w.bus = z.bus ∧
    w.audit = { undocumented := 1, last := some (0xDD, 0xED, 0x100) } := by
  obtain ⟨m, hlead, hed, hop⟩ : ∃ m : Memory, m.byteAt 0x100 = 0xDD ∧ m.byteAt 0x101 = 0xED ∧
      m.byteAt 0x102 = 0x00 := by
    refine ⟨Memory.blank.storeAll 0x100 [0xDD, 0xED, 0x00], ?_⟩
    simp [Memory.storeAll, Memory.byteAt_store_ne, Memory.byteAt_store_same]
  let z : Processor Memory :=
    { strict := true, bus := m, regs := { pc := 0x100, r := 0xFE, eiPending := true } }
  have hmeets : Meets z (m.byteAt 0x102) 0x101 := .indexed .ix rfl hlead hed
  rw [hop] at hmeets
  obtain ⟨-, w, -, hstep⟩ := step_fault (z := z) rfl (unassigned?_eq_some.2 ⟨hmeets, by decide⟩)
  refine ⟨z, w, _, rfl, rfl, rfl, hstep, ?_⟩
  obtain ⟨x, hr, ⟨-, hfirst, hbus, haudit, hregs, -⟩ | ⟨haccepts, -⟩⟩ := failed_step hstep
  · obtain rfl : x = some .ix := by
      have hx : firstByte x = 0xDD := hfirst.symm.trans hlead
      revert hx
      rcases x with _ | _ | _ <;> decide
    have hcount : (0xFE : UInt8).toNat / 128 * 128 +
        ((0xFE : UInt8).toNat + 2 + leadBytes (some .ix)) % 128 = (0x81 : UInt8).toNat := by decide
    rw [show w.regs.r = 0x81 from UInt8.toNat_inj.1 (hr.trans hcount)] at hregs
    exact ⟨hregs, hbus, haudit⟩
  · cases haccepts

/-- Each way to an opcode without meaning has a failing step that changes more than the program
counter: the refresh counter and the shadow of `EI`, the audit, or what an interrupt has changed. -/
theorem failing_steps_change :
    (∃ (z w : Processor Bench) (e : Fault), z.step = (w, .error e) ∧ z.peek z.regs.pc = 0xED ∧
      z.runs = true ∧ w.regs.r ≠ z.regs.r ∧ w.regs.eiPending ≠ z.regs.eiPending) ∧
    (∃ (z w : Processor Bench) (e : Fault), z.step = (w, .error e) ∧ z.peek z.regs.pc = 0xDD ∧
      z.runs = true ∧ w.regs.r ≠ z.regs.r ∧ w.audit ≠ z.audit) ∧
    ∃ (z w : Processor Bench) (e : Fault), z.step = (w, .error e) ∧ z.accepts = true ∧
      z.regs.im = 0 ∧ w.regs.r ≠ z.regs.r ∧ w.regs.iff1 ≠ z.regs.iff1 ∧
      w.regs.iff2 ≠ z.regs.iff2 ∧ w.regs.halted ≠ z.regs.halted := by
  refine ⟨?_, ?_, ?_⟩
  · obtain ⟨m, hed, hop⟩ : ∃ m : Memory, m.byteAt 0x100 = 0xED ∧ m.byteAt 0x101 = 0x00 := by
      refine ⟨Memory.blank.storeAll 0x100 [0xED, 0x00], ?_⟩
      simp [Memory.storeAll, Memory.byteAt_store_ne, Memory.byteAt_store_same]
    let z : Processor Bench :=
      { strict := true, bus := { memory := m }, regs := { pc := 0x100, eiPending := true } }
    have hmeets : Meets z (m.byteAt 0x101) 0x100 := .plain rfl hed
    rw [hop] at hmeets
    obtain ⟨x, w, hw, hstep⟩ := step_fault (z := z) rfl (unassigned?_eq_some.2 ⟨hmeets, by decide⟩)
    refine ⟨z, w, _, hstep, hed, rfl, hw.r_ne, ?_⟩
    rw [hw.shadow]
    exact Bool.false_ne_true
  · obtain ⟨m, hlead, hed, hop⟩ : ∃ m : Memory, m.byteAt 0x100 = 0xDD ∧ m.byteAt 0x101 = 0xED ∧
        m.byteAt 0x102 = 0x00 := by
      refine ⟨Memory.blank.storeAll 0x100 [0xDD, 0xED, 0x00], ?_⟩
      simp [Memory.storeAll, Memory.byteAt_store_ne, Memory.byteAt_store_same]
    let z : Processor Bench := { strict := true, bus := { memory := m }, regs := { pc := 0x100 } }
    have hmeets : Meets z (m.byteAt 0x102) 0x101 := .indexed .ix rfl hlead hed
    rw [hop] at hmeets
    obtain ⟨x, w, hw, hstep⟩ := step_fault (z := z) rfl (unassigned?_eq_some.2 ⟨hmeets, by decide⟩)
    refine ⟨z, w, _, hstep, hlead, rfl, hw.r_ne, fun hsame => ?_⟩
    have hcount := hw.counted
    rw [hsame] at hcount
    cases hw with
    | here _ hfirst =>
        cases x with
        | none => exact absurd (hlead.symm.trans hfirst) (by decide)
        | some y => exact absurd hcount (Nat.ne_of_lt (Nat.lt_succ_self _))
    | device haccepts _ _ => cases haccepts
  · have hblank (a : UInt16) : Memory.blank.byteAt a = 0 := by
      simp [Memory.byteAt, Memory.blank]
    let z : Processor Bench :=
      { strict := true, bus := { floating := 0xED }
        regs := { pc := 0x100, iff1 := true, iff2 := true, halted := true, irqLine := true } }
    have hmeets : Meets z (z.acknowledge.2.peek z.regs.pc) (z.regs.pc - 1) := .device rfl rfl rfl
    rw [show z.acknowledge.2.peek z.regs.pc = 0 from hblank 0x100] at hmeets
    obtain ⟨x, w, hw, hstep⟩ := step_fault (z := z) rfl (unassigned?_eq_some.2 ⟨hmeets, by decide⟩)
    refine ⟨z, w, _, hstep, rfl, rfl, hw.r_ne, ?_⟩
    cases hw with
    | here hruns _ => cases hruns
    | device _ _ _ =>
        rw [beyond_regs]
        exact ⟨Bool.false_ne_true, Bool.false_ne_true, Bool.false_ne_true⟩

end Processor

end MasterSystem.Z80
