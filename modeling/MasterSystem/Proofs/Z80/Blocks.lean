import MasterSystem.Proofs.Z80.Strictness

/-! # Block instructions that repeat

A repeating block instruction does one round in each step, and as long as it is not finished it
moves the program counter back to its own first byte.  So it is a loop of steps, which ends when the
round says so.

* **Runs.**  `steps` makes a number of steps and adds up their T-states.
* **Addresses.**  `along` moves an address a number of bytes up or down, and `rounds` is how many
  rounds a word counts, where zero is as many as there are words.
* **Steps.**  A step at a repeating block instruction is one round of it (`AtBlock.step`).
* **Rounds.**  `Turned` is what `k` rounds out of `n` have come to, whatever the operation is: the
  program counter, `HL`, the refresh counter and the time.  One round more keeps it
  (`Turned.next`). -/

namespace MasterSystem.Z80

/-! ### Flags -/

/-- The copied bits do not reach other flags. -/
theorem blockCopies_and {m : UInt8} (h3 : Flag.bit3 &&& m = 0) (h5 : Flag.bit5 &&& m = 0)
    (n : UInt8) : blockCopies n &&& m = 0 := by
  unfold blockCopies
  rw [Word.or_and, UInt8.and_assoc, h3, Flag.mark_and, h5, Flag.mark_zero, UInt8.and_zero,
    UInt8.or_zero]

/-! ### Refreshing -/

/-- The refresh counter counts modulo 128 below its top bit. -/
theorem Registers.refresh_r (s : Registers) :
    s.refresh.r.toNat = s.r.toNat / 128 * 128 + (s.r.toNat + 1) % 128 := by
  have hbyte : ∀ n : Fin 256, ((UInt8.ofNat n &&& 0x80) ||| ((UInt8.ofNat n + 1) &&& 0x7F)).toNat =
      n.val / 128 * 128 + (n.val + 1) % 128 := by decide +kernel
  have h := hbyte ⟨s.r.toNat, s.r.toNat_lt⟩
  rwa [UInt8.ofNat_toNat] at h

namespace Processor

/-! ### Addresses -/

/-- An address moved `k` bytes up or down; it wraps. -/
def along (down : Bool) (w : UInt16) (k : Nat) : UInt16 :=
  if down then w - UInt16.ofNat k else w + UInt16.ofNat k

theorem along_zero (down : Bool) (w : UInt16) : along down w 0 = w := by
  cases down
  · exact UInt16.add_zero w
  · exact UInt16.sub_zero w

theorem sub_ofNat_succ (w : UInt16) (k : Nat) :
    w - UInt16.ofNat (k + 1) = w - UInt16.ofNat k - 1 := by
  apply UInt16.toNat_inj.1
  simp only [UInt16.toNat_sub, UInt16.toNat_ofNat', UInt16.toNat_one]
  omega

theorem along_succ (down : Bool) (w : UInt16) (k : Nat) :
    along down w (k + 1) = move down (along down w k) := by
  cases down
  · show w + UInt16.ofNat (k + 1) = w + UInt16.ofNat k + 1
    rw [UInt16.ofNat_add, UInt16.add_assoc]
    rfl
  · exact sub_ofNat_succ w k

/-- How many rounds a counter stands for that is counted down before it is looked at. -/
def rounds (counter : UInt16) : Nat := if counter = 0 then 65536 else counter.toNat

theorem rounds_pos (counter : UInt16) : 0 < rounds counter := by
  unfold rounds
  split
  · decide
  · rename_i h
    exact Nat.pos_of_ne_zero fun hzero => h (UInt16.toNat_inj.1 hzero)

theorem rounds_le (counter : UInt16) : rounds counter ≤ 65536 := by
  unfold rounds
  split
  · exact Nat.le_refl _
  · exact Nat.le_of_lt counter.toNat_lt

/-- The counter holds the number of rounds that are left. -/
theorem sub_ofNat_rounds (counter : UInt16) {k : Nat} (hk : k ≤ rounds counter) :
    counter - UInt16.ofNat k = UInt16.ofNat (rounds counter - k) := by
  have hlt := counter.toNat_lt
  apply UInt16.toNat_inj.1
  rw [UInt16.toNat_sub, UInt16.toNat_ofNat', UInt16.toNat_ofNat']
  unfold rounds at hk ⊢
  split at hk
  · rename_i h
    rw [h, if_pos rfl, UInt16.toNat_zero]
    omega
  · rename_i h
    rw [if_neg h]
    omega

/-- The counter is at zero after its last round and after no other. -/
theorem sub_eq_zero_iff (counter : UInt16) {k : Nat} (hpos : 0 < k) (hk : k ≤ rounds counter) :
    counter - UInt16.ofNat k = 0 ↔ k = rounds counter := by
  have hle := rounds_le counter
  rw [sub_ofNat_rounds counter hk, ← UInt16.toNat_inj, UInt16.toNat_ofNat', UInt16.toNat_zero]
  omega

/-- After a round the counter says whether there are more. -/
theorem sub_bne_zero (counter : UInt16) {k : Nat} (hk : k < rounds counter) :
    (counter - UInt16.ofNat (k + 1) != 0) = decide (k + 1 < rounds counter) := by
  have hzero := sub_eq_zero_iff counter (Nat.succ_pos k) hk
  rw [Bool.eq_iff_iff, bne_iff_ne, decide_eq_true_eq, Ne, hzero]
  omega

variable {β : Type} [Bus β]

/-! ### Runs -/

/-- The processor after `n` steps and the T-states that they took, if none of them fails. -/
def steps (z : Processor β) : Nat → Option (Processor β × Nat)
  | 0 => some (z, 0)
  | n + 1 =>
    match z.steps n with
    | none => none
    | some (w, t) =>
      match w.step with
      | (u, .ok c) => some (u, t + c)
      | (_, .error _) => none

theorem steps_succ {z w u : Processor β} {n t c : Nat} (h : z.steps n = some (w, t))
    (hstep : w.step = (u, .ok c)) : z.steps (n + 1) = some (u, t + c) := by
  unfold steps
  rw [h]
  dsimp only
  rw [hstep]

/-- For `n` steps the processor runs what is at the program counter, if that leaves the interrupts
alone.  An interrupt may be kept out by the shadow of `EI`, which is over after one step. -/
def RunsFor (z : Processor β) (n : Nat) : Prop :=
  z.runs = true ∧ (1 < n → (z.mapRegs fun s => { s with eiPending := false }).runs = true)

/-! ### Steps -/

/-- The processor once it has fetched both bytes of an instruction of the extended page. -/
def opened (z : Processor β) : Processor β :=
  z.mapRegs fun s => { s.refresh.refresh with pc := s.pc + 2, eiPending := false }

/-- The processor is about to run a repeating block instruction. -/
structure AtBlock (op : BlockOperation) (down : Bool) (z : Processor β) : Prop where
  runs : z.runs = true
  lead : z.peek z.regs.pc = 0xED
  opcode : decodeExtended (z.peek (z.regs.pc + 1)) = some (.block op down true)

theorem stepUnclocked_of_runs {z : Processor β} (h : z.runs = true) :
    z.stepUnclocked = (z.mapRegs fun s => { s with eiPending := false }).runInstruction := by
  simp only [runs, Bool.and_eq_true, Bool.not_eq_true'] at h
  obtain ⟨⟨hn, hi⟩, hh⟩ := h
  have hh' : (z.mapRegs fun s => { s with eiPending := false }).regs.halted = false := hh
  unfold stepUnclocked
  rw [hn, hi, if_neg Bool.false_ne_true, if_neg Bool.false_ne_true]
  dsimp only
  rw [hh', if_neg Bool.false_ne_true]

theorem stepUnclocked_of_accepts {z : Processor β} (h : z.accepts = true) :
    z.stepUnclocked = z.acceptIRQ := by
  simp only [accepts, Bool.and_eq_true, Bool.not_eq_true'] at h
  unfold stepUnclocked
  rw [h.1, if_neg Bool.false_ne_true, if_pos h.2]

theorem AtBlock.step {op : BlockOperation} {down : Bool} {z : Processor β} (h : z.AtBlock op down) :
    z.step = (((execBlock op down true z.opened).1.mapRegs fun s =>
      { s with cycles := s.cycles + UInt64.ofNat (execBlock op down true z.opened).2 }),
      .ok (execBlock op down true z.opened).2) := by
  have hlead : lookUp (z.mapRegs fun s => { s with eiPending := false }).fetch.1 = .extended :=
    lookUp_extended.2 h.lead
  have hopcode : decodeExtended
      (z.mapRegs fun s => { s with eiPending := false }).fetch.2.fetch.1 =
        some (.block op down true) := h.opcode
  have halias : isAlias (z.mapRegs fun s => { s with eiPending := false }).fetch.2.fetch.1 =
      false := by
    unfold isAlias
    rw [hopcode]
  have hopened : (z.mapRegs fun s => { s with eiPending := false }).fetch.2.fetch.2 = z.opened := by
    have hpc : z.regs.pc + 1 + 1 = z.regs.pc + 2 := UInt16.add_assoc ..
    unfold opened mapRegs fetch
    simp only [mapRegs, Registers.refresh, hpc]
  unfold Processor.step
  rw [stepUnclocked_of_runs h.runs]
  unfold runInstruction execute
  dsimp only
  rw [hlead]
  dsimp only
  unfold execExtended
  dsimp only
  rw [hopcode]
  dsimp only
  rw [halias, if_neg Bool.false_ne_true, hopened]
  rfl

/-! ### Rounds -/

/-- The processor with all that a block instruction may change taken from `w`. -/
def withBlockPart (z w : Processor β) : Processor β :=
  { z with
    bus := w.bus
    regs := {
      z.regs with
      hl := w.regs.hl, de := w.regs.de, bc := w.regs.bc, f := w.regs.f, pc := w.regs.pc
      wz := w.regs.wz, r := w.regs.r, eiPending := w.regs.eiPending, cycles := w.regs.cycles } }

omit [Bus β] in
theorem withBlockPart_withBlockPart (z w u : Processor β) :
    (z.withBlockPart w).withBlockPart u = z.withBlockPart u := rfl

/-- A round moves `HL` on, and of the rest it changes only what its operation says. -/
theorem blockRound_rest (op : BlockOperation) (down : Bool) (z : Processor β) :
    (blockRound op down z).1 =
      { z with
        bus := (blockRound op down z).1.bus
        regs := {
          z.regs with
          hl := move down z.regs.hl
          de := (blockRound op down z).1.regs.de
          bc := (blockRound op down z).1.regs.bc
          f := (blockRound op down z).1.regs.f
          wz := (blockRound op down z).1.regs.wz } } := by
  cases op <;> rfl

/-- A step from `z` to `u` that is one round, after which the instruction goes on or not. -/
structure Rounded (op : BlockOperation) (down : Bool) (z u : Processor β) (again : Bool) :
    Prop where
  step : z.step = (u, .ok (if again then 21 else 16))
  pc : u.regs.pc = if again then z.regs.pc else z.regs.pc + 2
  hl : u.regs.hl = move down z.regs.hl
  r : u.regs.r = z.regs.refresh.refresh.r
  shadow : u.regs.eiPending = false
  rest : u = z.withBlockPart u
  bus : u.bus = (blockRound op down z.opened).1.bus
  de : u.regs.de = (blockRound op down z.opened).1.regs.de
  bc : u.regs.bc = (blockRound op down z.opened).1.regs.bc
  f : u.regs.f = (blockRound op down z.opened).1.regs.f

/-- A repeating block instruction goes back to its first byte if the round was not the last. -/
theorem execBlock_eq (op : BlockOperation) (down : Bool) (z : Processor β) :
    execBlock op down true z =
      ((blockRound op down z).1.mapRegs fun s =>
        { s with
          pc := if (blockRound op down z).2 then s.pc - 2 else s.pc
          wz := if (blockRound op down z).2 then s.pc - 1 else s.wz },
      if (blockRound op down z).2 then 21 else 16) := by
  unfold execBlock
  generalize blockRound op down z = p
  obtain ⟨y, again⟩ := p
  cases again <;> rfl

/-- A repeating block instruction makes one round in a step. -/
theorem AtBlock.rounded {op : BlockOperation} {down : Bool} {z : Processor β}
    (h : z.AtBlock op down) : ∃ u, Rounded op down z u (blockRound op down z.opened).2 := by
  have hstep := h.step
  have hround := blockRound_rest op down z.opened
  rw [execBlock_eq] at hstep
  refine ⟨_, ⟨hstep, ?_, ?_, ?_, ?_, ?_, rfl, rfl, rfl, rfl⟩⟩
  · have hpc : (blockRound op down z.opened).1.regs.pc = z.regs.pc + 2 := by
      rw [hround]
      rfl
    have hback : z.regs.pc + 2 - 2 = z.regs.pc := UInt16.add_sub_cancel ..
    dsimp only [mapRegs]
    rw [hpc, hback]
  · dsimp only [mapRegs]
    rw [hround]
    rfl
  · dsimp only [mapRegs]
    rw [hround]
    rfl
  · dsimp only [mapRegs]
    rw [hround]
    rfl
  · dsimp only [mapRegs]
    rw [hround]
    rfl

/-- T-states of `k` rounds out of `n`.  The last round does not go back. -/
def roundsCost (n k : Nat) : Nat := if k < n then 21 * k else 21 * (k - 1) + 16

/-- What `k` rounds out of `n` have made of the processor `z`, apart from what the operation
does. -/
structure Turned (z : Processor β) (down : Bool) (n k : Nat) (w : Processor β) : Prop where
  steps : z.steps k = some (w, roundsCost n k)
  pc : w.regs.pc = if k < n then z.regs.pc else z.regs.pc + 2
  hl : w.regs.hl = along down z.regs.hl k
  r : w.regs.r.toNat = z.regs.r.toNat / 128 * 128 + (z.regs.r.toNat + 2 * k) % 128
  shadow : 0 < k → w.regs.eiPending = false
  rest : w = z.withBlockPart w

theorem Turned.start (z : Processor β) (down : Bool) {n : Nat} (hn : 0 < n) :
    z.Turned down n 0 z where
  steps := by
    unfold roundsCost
    rw [if_pos hn]
    rfl
  pc := (if_pos hn).symm
  hl := (along_zero down _).symm
  r := (Nat.div_add_mod' ..).symm
  shadow h := absurd h (Nat.lt_irrefl 0)
  rest := rfl

/-- As long as there are rounds left, the program counter is where it was. -/
theorem Turned.within {z w : Processor β} {down : Bool} {n k : Nat} (h : z.Turned down n k w)
    (hk : k < n) : z.steps k = some (w, 21 * k) ∧ w.regs.pc = z.regs.pc := by
  have hsteps := h.steps
  have hpc := h.pc
  unfold roundsCost at hsteps
  rw [if_pos hk] at hsteps hpc
  exact ⟨hsteps, hpc⟩

theorem Turned.finished {z w : Processor β} {down : Bool} {n : Nat} (h : z.Turned down n n w) :
    z.steps n = some (w, 21 * (n - 1) + 16) ∧ w.regs.pc = z.regs.pc + 2 := by
  have hsteps := h.steps
  have hpc := h.pc
  unfold roundsCost at hsteps
  rw [if_neg (Nat.lt_irrefl n)] at hsteps hpc
  exact ⟨hsteps, hpc⟩

/-- Nothing interrupts the next round. -/
theorem Turned.runs {z w : Processor β} {down : Bool} {n k : Nat} (h : z.Turned down n k w)
    (hk : k < n) (hz : z.RunsFor n) : w.runs = true := by
  rcases Nat.eq_zero_or_pos k with rfl | hpos
  · obtain rfl : z = w := congrArg Prod.fst (Option.some.inj h.steps)
    exact hz.1
  · have hcalm := hz.2 (by omega)
    have hshadow := h.shadow hpos
    rw [h.rest]
    unfold Processor.runs acceptsIRQ at hcalm ⊢
    dsimp only [withBlockPart]
    rw [hshadow]
    exact hcalm

/-- One round more. -/
theorem Turned.next {z w u : Processor β} {op : BlockOperation} {down : Bool} {n k : Nat}
    (h : z.Turned down n k w) (hk : k < n) (hu : Rounded op down w u (decide (k + 1 < n))) :
    z.Turned down n (k + 1) u where
  steps := by
    have hcost : roundsCost n k + (if decide (k + 1 < n) = true then 21 else 16) =
        roundsCost n (k + 1) := by
      unfold roundsCost
      rw [if_pos hk]
      simp only [decide_eq_true_eq]
      split <;> omega
    exact hcost ▸ steps_succ h.steps hu.step
  pc := by
    rw [hu.pc, (h.within hk).2]
    simp only [decide_eq_true_eq]
  hl := by rw [hu.hl, h.hl, along_succ]
  r := by
    have hold := h.r
    have hfirst := w.regs.refresh_r
    have hsecond := w.regs.refresh.refresh_r
    rw [hu.r]
    omega
  shadow _ := hu.shadow
  rest := by
    have hrest := hu.rest
    rw [h.rest, withBlockPart_withBlockPart] at hrest
    exact hrest

end Processor

end MasterSystem.Z80
