import MasterSystem.Proofs.Z80.Blocks
import MasterSystem.Z80.Bench

/-! # Block searches

`CPIR` and `CPDR` compare the accumulator with one byte after the other until one is equal or the
counter is at zero.

* **Bytes.**  `firstMatch?` is where the first equal byte stands, and `examined` is how many bytes
  are looked at.  A byte is the last that is looked at if it is equal or the counter ends with it
  (`succ_lt_examined_iff`).
* **Rounds.**  `Searched` is what `k` rounds have come to, and another round keeps it
  (`Searched.next`).
* **Runs.**  `block_search` puts the rounds together. -/

namespace MasterSystem.Z80

/-! ### Flags -/

theorem sub_beq_zero (a v : UInt8) : (a - v == 0) = (a == v) := by
  rw [Bool.beq_eq_decide_eq, Bool.beq_eq_decide_eq, decide_eq_decide, ← UInt8.toNat_inj,
    ← UInt8.toNat_inj, UInt8.toNat_sub, UInt8.toNat_zero]
  have ha := a.toNat_lt
  have hv := v.toNat_lt
  omega

theorem signZero_and {m : UInt8} (h : 0xA8 &&& m = 0) (v : UInt8) :
    signZero v &&& m = Flag.mark (Flag.zero &&& m) (v == 0) := by
  unfold signZero
  rw [Word.or_and, UInt8.and_assoc, h, UInt8.and_zero, UInt8.zero_or, Flag.mark_and]

/-- Carry, subtraction, zero and parity after a search. -/
theorem searchFlags_and {m : UInt8} (h : 0xB8 &&& m = 0) (a f v : UInt8) (bc : UInt16) :
    searchFlags a f v bc &&& m =
      (f &&& (Flag.carry &&& m)) ||| (Flag.subtract &&& m) ||| Flag.mark (Flag.zero &&& m) (a == v)
        ||| Flag.mark (Flag.parity &&& m) (bc != 0) := by
  -- none of the other flags is under the mask
  have hout : ∀ x : UInt8, x &&& 0xB8 = x → x &&& m = 0 := fun x hx => by
    rw [← hx, UInt8.and_assoc, h, UInt8.and_zero]
  have hsign : 0xA8 &&& (~~~Flag.copies &&& m) = 0 := by
    rw [← UInt8.and_assoc]
    exact hout _ (by decide)
  unfold searchFlags
  simp only [Word.or_and, UInt8.and_assoc, Flag.mark_and]
  rw [blockCopies_and (hout _ (by decide)) (hout _ (by decide)), hout Flag.half (by decide),
    signZero_and hsign, ← UInt8.and_assoc (a := Flag.zero),
    show Flag.zero &&& ~~~Flag.copies = Flag.zero by decide, sub_beq_zero, UInt8.and_zero,
    UInt8.or_zero, UInt8.or_zero]

/-- A search keeps the carry. -/
theorem searchFlags_carry (a f v : UInt8) (bc : UInt16) :
    searchFlags a f v bc &&& Flag.carry = f &&& Flag.carry := by
  rw [searchFlags_and (by decide), show Flag.carry &&& Flag.carry = Flag.carry by decide,
    show Flag.subtract &&& Flag.carry = 0 by decide, show Flag.zero &&& Flag.carry = 0 by decide,
    show Flag.parity &&& Flag.carry = 0 by decide, Flag.mark_zero, Flag.mark_zero, UInt8.or_zero,
    UInt8.or_zero, UInt8.or_zero]

/-- A search is a subtraction; zero shows a match and parity whether there is more to do. -/
theorem searchFlags_found (a f v : UInt8) (bc : UInt16) :
    searchFlags a f v bc &&& 0x46 =
      Flag.subtract ||| Flag.mark Flag.zero (a == v) ||| Flag.mark Flag.parity (bc != 0) := by
  rw [searchFlags_and (by decide), show Flag.carry &&& 0x46 = 0 by decide,
    show Flag.subtract &&& 0x46 = Flag.subtract by decide,
    show Flag.zero &&& 0x46 = Flag.zero by decide,
    show Flag.parity &&& 0x46 = Flag.parity by decide, UInt8.and_zero, UInt8.zero_or]

theorem has_of_found {f : UInt8} {found more : Bool}
    (h : f &&& 0x46 =
      Flag.subtract ||| Flag.mark Flag.zero found ||| Flag.mark Flag.parity more) :
    Flag.has f Flag.zero = found ∧ Flag.has f Flag.parity = more ∧
      Flag.has f Flag.subtract = true := by
  have hunder : ∀ m : UInt8, 0x46 &&& m = m → Flag.has f m = Flag.has (f &&& 0x46) m := by
    intro m hm
    unfold Flag.has
    rw [UInt8.and_assoc, hm]
  rw [hunder _ (by decide), hunder _ (by decide), hunder _ (by decide), h]
  cases found <;> cases more <;> decide

namespace Processor

variable {β : Type} [Bus β]

/-! ### Bytes -/

/-- How many bytes stand before the first that equals the accumulator, if there is one. -/
def firstMatch? (down : Bool) (z : Processor β) : Option Nat :=
  (List.range (rounds z.regs.bc)).find? fun i => z.regs.a == z.peek (along down z.regs.hl i)

/-- How many bytes are looked at, a match included. -/
def examined (down : Bool) (z : Processor β) : Nat :=
  match firstMatch? down z with
  | some i => i + 1
  | none => rounds z.regs.bc

variable {down : Bool} {z w : Processor β} {k : Nat}

theorem examined_pos (down : Bool) (z : Processor β) : 0 < examined down z := by
  unfold examined
  split
  · exact Nat.succ_pos _
  · exact rounds_pos _

theorem examined_le (down : Bool) (z : Processor β) : examined down z ≤ rounds z.regs.bc := by
  unfold examined
  split
  · rename_i i h
    exact List.mem_range.1 (List.find?_range_eq_some.1 h).2.1
  · exact Nat.le_refl _

/-- A byte is looked at after another if the counter is not at its end and the other is no
match. -/
theorem succ_lt_examined_iff (hk : k < examined down z) : k + 1 < examined down z ↔
    k + 1 < rounds z.regs.bc ∧ z.regs.a ≠ z.peek (along down z.regs.hl k) := by
  unfold examined at hk ⊢
  cases h : firstMatch? down z with
  | none =>
      rw [h] at hk
      have hno := List.find?_range_eq_none.1 h k hk
      exact ⟨fun hlt => ⟨hlt, by simpa using hno⟩, And.left⟩
  | some i =>
      rw [h] at hk
      obtain ⟨hi, hmem, hbefore⟩ := List.find?_range_eq_some.1 h
      have hlt := List.mem_range.1 hmem
      rcases Nat.lt_or_eq_of_le (Nat.le_of_lt_succ hk) with hki | rfl
      · have hno := hbefore k hki
        exact ⟨fun _ => ⟨by omega, by simpa using hno⟩, fun _ => Nat.succ_lt_succ hki⟩
      · exact ⟨fun hlt => absurd hlt (Nat.lt_irrefl _), fun hne => absurd (beq_iff_eq.1 hi) hne.2⟩

/-- The last byte that is looked at is a match if there is any. -/
theorem last_beq (hk : k + 1 = examined down z) :
    (z.regs.a == z.peek (along down z.regs.hl k)) = (firstMatch? down z).isSome := by
  unfold examined at hk
  cases h : firstMatch? down z with
  | none =>
      rw [h] at hk
      dsimp only at hk
      simpa using List.find?_range_eq_none.1 h k (by omega)
  | some i =>
      rw [h] at hk
      obtain rfl : k = i := Nat.succ.inj hk
      exact (List.find?_range_eq_some.1 h).1

/-! ### Rounds -/

/-- What `k` rounds of a search have made of the processor `z`. -/
structure Searched (down : Bool) (z : Processor β) (k : Nat) (w : Processor β) : Prop
    extends Turned z down (examined down z) k w where
  bus : w.bus = z.bus
  bc : w.regs.bc = z.regs.bc - UInt16.ofNat k
  carry : w.regs.f &&& Flag.carry = z.regs.f &&& Flag.carry
  found : ∀ i, k = i + 1 → w.regs.f &&& 0x46 =
    Flag.subtract ||| Flag.mark Flag.zero (z.regs.a == z.peek (along down z.regs.hl i)) |||
      Flag.mark Flag.parity (w.regs.bc != 0)

theorem searchByte_decode (down : Bool) :
    decodeExtended (if down then 0xB9 else 0xB1) = some (.block .search down true) := by
  cases down <;> decide

theorem Searched.start : Searched down z 0 z where
  toTurned := .start z down (examined_pos down z)
  bus := rfl
  bc := (UInt16.sub_zero _).symm
  carry := rfl
  found i h := absurd h.symm (Nat.succ_ne_zero i)

theorem Searched.atBlock (h : Searched down z k w) (hk : k < examined down z)
    (hz : z.RunsFor (examined down z)) (hlead : z.peek z.regs.pc = 0xED)
    (hopcode : z.peek (z.regs.pc + 1) = if down then 0xB9 else 0xB1) : w.AtBlock .search down where
  runs := h.runs hk hz
  lead := by
    rw [(h.within hk).2, peek, h.bus]
    exact hlead
  opcode := by
    rw [(h.within hk).2, peek, h.bus, show Bus.read z.bus (z.regs.pc + 1) = _ from hopcode]
    exact searchByte_decode down

/-- One round more. -/
theorem Searched.next (h : Searched down z k w) (hk : k < examined down z)
    (hz : z.RunsFor (examined down z)) (hlead : z.peek z.regs.pc = 0xED)
    (hopcode : z.peek (z.regs.pc + 1) = if down then 0xB9 else 0xB1) :
    ∃ u, Searched down z (k + 1) u := by
  obtain ⟨u, hu⟩ := (h.atBlock hk hz hlead hopcode).rounded
  have hbyte : w.peek w.regs.hl = z.peek (along down z.regs.hl k) := by
    rw [peek, h.bus, h.hl, peek]
  have ha : w.regs.a = z.regs.a := by
    rw [h.rest]
    rfl
  have hbc : w.regs.bc - 1 = z.regs.bc - UInt16.ofNat (k + 1) := by rw [sub_ofNat_succ, h.bc]
  -- the round is the last one if its byte matches or the counter ends
  have hagain : (blockRound .search down w.opened).2 = decide (k + 1 < examined down z) := by
    show (w.regs.bc - 1 != 0 && !(w.regs.a == w.peek w.regs.hl)) = _
    rw [hbc, ha, hbyte, sub_bne_zero z.regs.bc (Nat.lt_of_lt_of_le hk (examined_le down z)),
      decide_eq_decide.2 (succ_lt_examined_iff hk), Bool.decide_and, decide_not,
      Bool.beq_eq_decide_eq]
  rw [hagain] at hu
  refine ⟨u, ⟨h.toTurned.next hk hu, ?_, ?_, ?_, ?_⟩⟩
  · rw [hu.bus]
    exact h.bus
  · rw [hu.bc]
    exact hbc
  · rw [hu.f, ← h.carry]
    exact searchFlags_carry ..
  · intro i hi
    obtain rfl : k = i := Nat.succ.inj hi
    rw [hu.f, hu.bc, ← hbyte, ← ha]
    exact searchFlags_found ..

/-- The rounds of a search follow one another. -/
theorem searched (hz : z.RunsFor (examined down z)) (hlead : z.peek z.regs.pc = 0xED)
    (hopcode : z.peek (z.regs.pc + 1) = if down then 0xB9 else 0xB1) :
    ∀ {k : Nat}, k ≤ examined down z → ∃ w, Searched down z k w
  | 0, _ => ⟨z, .start⟩
  | k + 1, hk => by
      obtain ⟨w, hw⟩ := searched hz hlead hopcode (Nat.le_of_lt hk)
      exact hw.next hk hz hlead hopcode

/-! ### Runs -/

/-- **A block search looks at one byte in each step, up to the first that equals the accumulator or
until the counter is at zero.**  The flags are those of the last comparison. -/
theorem block_search (down : Bool) (z : Processor β) (hruns : z.RunsFor (examined down z))
    (hlead : z.peek z.regs.pc = 0xED)
    (hopcode : z.peek (z.regs.pc + 1) = if down then 0xB9 else 0xB1) :
    let n := rounds z.regs.bc
    let k := examined down z
    (∀ j < k, ∃ w, z.steps j = some (w, 21 * j) ∧ w.regs.pc = z.regs.pc) ∧
    ∃ w, z.steps k = some (w, 21 * (k - 1) + 16) ∧ w.regs.pc = z.regs.pc + 2 ∧
      w.bus = z.bus ∧ w.regs.a = z.regs.a ∧ w.regs.hl = along down z.regs.hl k ∧
      w.regs.bc = UInt16.ofNat (n - k) ∧
      Flag.has w.regs.f Flag.zero = (firstMatch? down z).isSome ∧
      Flag.has w.regs.f Flag.parity = (w.regs.bc != 0) ∧
      Flag.has w.regs.f Flag.subtract = true ∧
      w.regs.f &&& Flag.carry = z.regs.f &&& Flag.carry ∧
      w.regs.r.toNat = z.regs.r.toNat / 128 * 128 + (z.regs.r.toNat + 2 * k) % 128 ∧
      w = z.withBlockPart w := by
  intro n k
  obtain ⟨i, hi⟩ : ∃ i, k = i + 1 := ⟨k - 1, by have := examined_pos down z; omega⟩
  constructor
  · intro j hj
    obtain ⟨w, hw⟩ := searched hruns hlead hopcode (Nat.le_of_lt hj)
    exact ⟨w, hw.within hj⟩
  · obtain ⟨w, hw⟩ := searched hruns hlead hopcode (Nat.le_refl k)
    obtain ⟨hsteps, hpc⟩ := hw.finished
    have ha : w.regs.a = z.regs.a := by
      rw [hw.rest]
      rfl
    have hbc : w.regs.bc = UInt16.ofNat (n - k) := by
      rw [hw.bc]
      exact sub_ofNat_rounds z.regs.bc (examined_le down z)
    have hfound := hw.found i hi
    rw [last_beq hi.symm] at hfound
    obtain ⟨hzero, hparity, hsubtract⟩ := has_of_found hfound
    exact ⟨w, hsteps, hpc, hw.bus, ha, hw.hl, hbc, hzero, hparity, hsubtract, hw.carry, hw.r,
      hw.rest⟩

/-- `CPIR` that finds its byte past the end of memory, before the counter is at zero. -/
theorem block_search_across_zero : ∃ z w : Processor Memory, z.regs.hl = 0xFFFF ∧
    z.regs.bc = 3 ∧ z.steps 2 = some (w, 37) ∧ w.regs.pc = z.regs.pc + 2 ∧ w.regs.hl = 1 ∧
    w.regs.bc = 1 ∧ Flag.has w.regs.f Flag.zero = true ∧
    Flag.has w.regs.f Flag.parity = true := by
  obtain ⟨m, hlead, hopcode, hno, hmatch⟩ : ∃ m : Memory, m.byteAt 0x100 = 0xED ∧
      m.byteAt 0x101 = 0xB1 ∧ m.byteAt 0xFFFF ≠ 7 ∧ m.byteAt 0 = 7 := by
    refine ⟨((Memory.blank.storeAll 0x100 [0xED, 0xB1]).store 0xFFFF 9).store 0 7, ?_⟩
    simp [Memory.storeAll, Memory.byteAt_store_ne, Memory.byteAt_store_same]
  let z : Processor Memory :=
    { bus := m, regs := { pc := 0x100, hl := 0xFFFF, bc := 3, a := 7 } }
  have hfirst : firstMatch? false z = some 1 := by
    refine List.find?_range_eq_some.2
      ⟨?_, List.mem_range.2 (show 1 < rounds 3 by decide), fun j hj => ?_⟩
    · show (7 == m.byteAt (along false 0xFFFF 1)) = true
      rw [show along false 0xFFFF 1 = 0 by decide, hmatch]
      rfl
    · obtain rfl : j = 0 := Nat.lt_one_iff.1 hj
      rw [Bool.not_eq_true', beq_eq_false_iff_ne, along_zero]
      exact hno.symm
  have hexamined : examined false z = 2 := by
    unfold examined
    rw [hfirst]
  obtain ⟨-, w, hsteps, hpc, -, -, hhl, hbc, hzero, hparity, -⟩ :=
    block_search false z ⟨rfl, fun _ => rfl⟩ hlead hopcode
  rw [hexamined] at hsteps hhl hbc
  rw [hfirst] at hzero
  have hend : along false 0xFFFF 2 = 1 := by decide
  have hleft : UInt16.ofNat (rounds 3 - 2) = 1 := by decide
  rw [hbc.trans hleft] at hparity
  exact ⟨z, w, rfl, rfl, hsteps, hpc, hhl.trans hend, hbc.trans hleft, hzero, hparity⟩

end Processor

end MasterSystem.Z80
