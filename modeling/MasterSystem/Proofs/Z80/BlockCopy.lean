import MasterSystem.Proofs.Z80.Blocks
import MasterSystem.Z80.Bench

/-! # Block transfers

`LDIR` and `LDDR` copy bytes one after the other, so that where the two areas overlap a byte may
be copied that the instruction itself has stored before.

* **Memory.**  `Flat` is a bus with plain memory; `Memory.copied` is such a memory after a number of
  bytes were copied one by one.  An address that none of them went to holds what it held
  (`Memory.copied_byteAt`).
* **Rounds.**  `Transferred` is what `k` rounds have come to; as long as the instruction has not
  overwritten itself another round keeps it (`Transferred.next`).
* **Runs.**  `block_copy` puts the rounds together. -/

namespace MasterSystem.Z80

/-! ### Memory -/

/-- A bus with plain memory: a byte is read as it was stored, and storing it changes no other. -/
structure Flat {β : Type} [Bus β] (memory : β → Memory) : Prop where
  read : ∀ b a, Bus.read b a = (memory b).byteAt a
  write : ∀ b a v, memory (Bus.write b a v) = (memory b).store a v

theorem Flat.memory : Flat (id : Memory → Memory) := ⟨fun _ _ => rfl, fun _ _ _ => rfl⟩

namespace Memory

open Processor

/-- The memory after `n` bytes were copied one after the other, with the addresses of both areas
moving up or down. -/
def copied (m : Memory) (down : Bool) (source target : UInt16) : Nat → Memory
  | 0 => m
  | n + 1 =>
    (m.copied down source target n).store (along down target n)
      ((m.copied down source target n).byteAt (along down source n))

/-- Where no byte was copied to, nothing has changed. -/
theorem copied_byteAt (m : Memory) {down : Bool} {source target a : UInt16} :
    ∀ {n : Nat}, (∀ i < n, along down target i ≠ a) →
      (m.copied down source target n).byteAt a = m.byteAt a
  | 0, _ => rfl
  | n + 1, h => by
      rw [copied, byteAt_store_ne _ _ (h n (Nat.lt_succ_self n)).symm]
      exact copied_byteAt m fun i hi => h i (Nat.lt_succ_of_lt hi)

end Memory

/-! ### Flags -/

/-- A transfer keeps sign, zero and carry. -/
theorem transferFlags_kept (a f v : UInt8) (bc : UInt16) :
    transferFlags a f v bc &&& 0xC1 = f &&& 0xC1 := by
  unfold transferFlags
  rw [Word.or_and, Word.or_and, blockCopies_and (by decide) (by decide), Flag.mark_and,
    UInt8.and_assoc, show (0xC1 &&& 0xC1 : UInt8) = 0xC1 by decide,
    show Flag.parity &&& 0xC1 = 0 by decide, Flag.mark_zero, UInt8.or_zero, UInt8.or_zero]

/-- A transfer clears half carry and subtraction; parity shows whether there is more to do. -/
theorem transferFlags_cleared (a f v : UInt8) (bc : UInt16) :
    transferFlags a f v bc &&& 0x16 = Flag.mark Flag.parity (bc != 0) := by
  unfold transferFlags
  rw [Word.or_and, Word.or_and, blockCopies_and (by decide) (by decide), Flag.mark_and,
    UInt8.and_assoc, show (0xC1 &&& 0x16 : UInt8) = 0 by decide,
    show Flag.parity &&& 0x16 = Flag.parity by decide, UInt8.and_zero, UInt8.or_zero,
    UInt8.zero_or]

namespace Processor

variable {β : Type} [Bus β]

/-! ### Rounds -/

/-- What `k` rounds of a transfer have made of the processor `z`. -/
structure Transferred (memory : β → Memory) (down : Bool) (z : Processor β) (k : Nat)
    (w : Processor β) : Prop extends Turned z down (rounds z.regs.bc) k w where
  de : w.regs.de = along down z.regs.de k
  bc : w.regs.bc = z.regs.bc - UInt16.ofNat k
  bytes : memory w.bus = (memory z.bus).copied down z.regs.hl z.regs.de k
  kept : w.regs.f &&& 0xC1 = z.regs.f &&& 0xC1
  cleared : 0 < k → w.regs.f &&& 0x16 = Flag.mark Flag.parity (w.regs.bc != 0)

/-- The instruction is still there after `k` rounds. -/
def Intact (memory : β → Memory) (down : Bool) (z : Processor β) (k : Nat) : Prop :=
  ((memory z.bus).copied down z.regs.hl z.regs.de k).byteAt z.regs.pc = 0xED ∧
  ((memory z.bus).copied down z.regs.hl z.regs.de k).byteAt (z.regs.pc + 1) =
    if down then 0xB8 else 0xB0

theorem transferByte_decode (down : Bool) :
    decodeExtended (if down then 0xB8 else 0xB0) = some (.block .transfer down true) := by
  cases down <;> decide

variable {memory : β → Memory} {down : Bool} {z w : Processor β} {k : Nat}

theorem Transferred.start : Transferred memory down z 0 z where
  toTurned := .start z down (rounds_pos _)
  de := (along_zero down _).symm
  bc := (UInt16.sub_zero _).symm
  bytes := rfl
  kept := rfl
  cleared h := absurd h (Nat.lt_irrefl 0)

theorem Transferred.atBlock (h : Transferred memory down z k w) (hflat : Flat memory)
    (hk : k < rounds z.regs.bc) (hz : z.RunsFor (rounds z.regs.bc))
    (hintact : Intact memory down z k) : w.AtBlock .transfer down where
  runs := h.runs hk hz
  lead := by
    rw [(h.within hk).2, peek, hflat.read, h.bytes]
    exact hintact.1
  opcode := by
    rw [(h.within hk).2, peek, hflat.read, h.bytes, hintact.2]
    exact transferByte_decode down

/-- One round more. -/
theorem Transferred.next (h : Transferred memory down z k w) (hflat : Flat memory)
    (hk : k < rounds z.regs.bc) (hz : z.RunsFor (rounds z.regs.bc))
    (hintact : Intact memory down z k) : ∃ u, Transferred memory down z (k + 1) u := by
  obtain ⟨u, hu⟩ := (h.atBlock hflat hk hz hintact).rounded
  have hbc : u.regs.bc = z.regs.bc - UInt16.ofNat (k + 1) := by
    rw [hu.bc, sub_ofNat_succ, ← h.bc]
    rfl
  have hagain : (blockRound .transfer down w.opened).2 =
      decide (k + 1 < rounds z.regs.bc) := by
    show (w.regs.bc - 1 != 0) = _
    rw [h.bc, ← sub_ofNat_succ, sub_bne_zero z.regs.bc hk]
  rw [hagain] at hu
  refine ⟨u, ⟨h.toTurned.next hk hu, ?_, hbc, ?_, ?_, ?_⟩⟩
  · rw [hu.de, along_succ, ← h.de]
    rfl
  · rw [hu.bus]
    show memory (Bus.write w.bus w.regs.de (Bus.read w.bus w.regs.hl)) = _
    rw [hflat.write, hflat.read, h.bytes, h.de, h.hl]
    rfl
  · rw [hu.f, ← h.kept]
    exact transferFlags_kept ..
  · intro _
    rw [hu.f, hu.bc]
    exact transferFlags_cleared ..

/-- As long as the instruction has not overwritten itself, its rounds follow one another. -/
theorem transferred (hflat : Flat memory) (hz : z.RunsFor (rounds z.regs.bc)) :
    ∀ {k : Nat}, k ≤ rounds z.regs.bc → (∀ i < k, Intact memory down z i) →
      ∃ w, Transferred memory down z k w
  | 0, _, _ => ⟨z, .start⟩
  | k + 1, hk, hintact => by
      obtain ⟨w, hw⟩ := transferred hflat hz (Nat.le_of_lt hk)
        fun i hi => hintact i (Nat.lt_succ_of_lt hi)
      exact hw.next hflat hk hz (hintact k (Nat.lt_succ_self k))

/-- An instruction that no byte but the last is copied to stays as it is until it is finished. -/
theorem intact (hflat : Flat memory) {n : Nat} (hlead : z.peek z.regs.pc = 0xED)
    (hopcode : z.peek (z.regs.pc + 1) = if down then 0xB8 else 0xB0)
    (hclear : ∀ i < n - 1,
      along down z.regs.de i ≠ z.regs.pc ∧ along down z.regs.de i ≠ z.regs.pc + 1) :
    ∀ k < n, Intact memory down z k := by
  intro k hk
  constructor
  · rw [Memory.copied_byteAt _ fun i hi => (hclear i (by omega)).1, ← hflat.read]
    exact hlead
  · rw [Memory.copied_byteAt _ fun i hi => (hclear i (by omega)).2, ← hflat.read]
    exact hopcode

/-! ### Runs -/

/-- **A block copy runs as many rounds as the counter says, each of which copies one byte.**  It
may be stopped after each of them, since until it is finished the program counter is at its first
byte.  It overwrites itself only with its last byte. -/
theorem block_copy {memory : β → Memory} (hflat : Flat memory) (down : Bool) (z : Processor β)
    (hruns : z.RunsFor (rounds z.regs.bc)) (hlead : z.peek z.regs.pc = 0xED)
    (hopcode : z.peek (z.regs.pc + 1) = if down then 0xB8 else 0xB0)
    (hclear : ∀ i < rounds z.regs.bc - 1,
      along down z.regs.de i ≠ z.regs.pc ∧ along down z.regs.de i ≠ z.regs.pc + 1) :
    let n := rounds z.regs.bc
    let copied := (memory z.bus).copied down z.regs.hl z.regs.de
    (∀ k < n, ∃ w, z.steps k = some (w, 21 * k) ∧ w.regs.pc = z.regs.pc ∧
      memory w.bus = copied k) ∧
    ∃ w, z.steps n = some (w, 21 * (n - 1) + 16) ∧ w.regs.pc = z.regs.pc + 2 ∧
      memory w.bus = copied n ∧
      w.regs.hl = along down z.regs.hl n ∧ w.regs.de = along down z.regs.de n ∧ w.regs.bc = 0 ∧
      w.regs.f &&& (Flag.parity ||| Flag.half ||| Flag.subtract) = 0 ∧
      w.regs.f &&& (Flag.sign ||| Flag.zero ||| Flag.carry) =
        z.regs.f &&& (Flag.sign ||| Flag.zero ||| Flag.carry) ∧
      w.regs.r.toNat = z.regs.r.toNat / 128 * 128 + (z.regs.r.toNat + 2 * n) % 128 ∧
      w = z.withBlockPart w := by
  intro n copied
  have hpos : 0 < n := rounds_pos _
  have hintact := intact hflat hlead hopcode hclear
  constructor
  · intro k hk
    obtain ⟨w, hw⟩ := transferred hflat hruns (Nat.le_of_lt hk)
      fun i hi => hintact i (Nat.lt_trans hi hk)
    exact ⟨w, (hw.within hk).1, (hw.within hk).2, hw.bytes⟩
  · obtain ⟨w, hw⟩ := transferred hflat hruns (Nat.le_refl n) hintact
    obtain ⟨hsteps, hpc⟩ := hw.finished
    have hbc : w.regs.bc = 0 := by
      rw [hw.bc]
      exact (sub_eq_zero_iff z.regs.bc hpos (Nat.le_refl n)).2 rfl
    have hcleared := hw.cleared hpos
    rw [hbc] at hcleared
    exact ⟨w, hsteps, hpc, hw.bytes, hw.hl, hw.de, hbc, hcleared, hw.kept, hw.r, hw.rest⟩

/-- `LDIR` over a byte that it has copied itself, with both addresses going past the end of
memory. -/
theorem block_copy_across_zero : ∃ z w : Processor Memory, z.regs.hl = 0xFFFE ∧
    z.regs.de = 0xFFFF ∧ z.steps 3 = some (w, 58) ∧ w.regs.pc = z.regs.pc + 2 ∧
    w.bus.byteAt 0xFFFF = 0xAA ∧ w.bus.byteAt 0 = 0xAA ∧ w.bus.byteAt 1 = 0xAA := by
  obtain ⟨m, hlead, hopcode, hfirst⟩ : ∃ m : Memory, m.byteAt 0x100 = 0xED ∧
      m.byteAt 0x101 = 0xB0 ∧ m.byteAt 0xFFFE = 0xAA := by
    refine ⟨(Memory.blank.storeAll 0x100 [0xED, 0xB0]).store 0xFFFE 0xAA, ?_⟩
    simp [Memory.storeAll, Memory.byteAt_store_ne, Memory.byteAt_store_same]
  let z : Processor Memory :=
    { bus := m, regs := { pc := 0x100, hl := 0xFFFE, de := 0xFFFF, bc := 3 } }
  have hclear : ∀ i < 2, along false 0xFFFF i ≠ 0x100 ∧ along false 0xFFFF i ≠ 0x100 + 1 := by
    decide
  obtain ⟨-, w, hsteps, hpc, hbytes, -⟩ :=
    block_copy Flat.memory false z ⟨rfl, fun _ => rfl⟩ hlead hopcode hclear
  have hcopied : w.bus = ((m.store 0xFFFF 0xAA).store 0 0xAA).store 1 0xAA := by
    refine hbytes.trans ?_
    show m.copied false 0xFFFE 0xFFFF 3 = _
    simp [Memory.copied, along, hfirst, Memory.byteAt_store_same]
  refine ⟨z, w, rfl, rfl, hsteps, hpc, ?_⟩
  rw [hcopied]
  simp [Memory.byteAt_store_ne, Memory.byteAt_store_same]

end Processor

end MasterSystem.Z80
