import MasterSystem.Proofs.Z80.BlockCopy

/-! # Block transfers through a port

`OTIR` and `OTDR` send bytes of memory to a port, `INIR` and `INDR` store what a port answers.  `B`
counts the bytes and is at the same time the high byte of the port, so each byte goes through a port
of its own: when a byte is sent `B` has been counted down already, and when one is stored it has
not.

* **Buses.**  `Separate` is a bus with plain memory that the ports leave alone.  `sent` and
  `received` are a bus after a number of bytes went out or came in; nothing else happens on it.
* **Counting.**  `byteRounds` is how many rounds a byte counts, and `portAfter` the port after some
  of them.
* **Rounds.**  A `Course` is the bus after each round, whichever way the bytes go; `Ported` is what
  `k` rounds on it have come to, and another round keeps it (`Ported.next`).
* **Runs.**  `Through` is a whole run, and `block_port` says that there is one. -/

namespace MasterSystem.Z80

/-- A bus with plain memory that the ports leave alone. -/
structure Separate {β : Type} [Bus β] (memory : β → Memory) : Prop extends Flat memory where
  input : ∀ b port, memory (Bus.input b port).2 = memory b
  output : ∀ b port v, memory (Bus.output b port v) = memory b

theorem Separate.bench : Separate Bench.memory where
  read _ _ := rfl
  write _ _ _ := rfl
  input b port := by
    show (if b.connected then (b.answer port, b.record (.input port (b.answer port)))
      else (0xFF, b)).2.memory = b.memory
    split <;> rfl
  output b port v := by
    show (if b.connected then b.record (.output port v) else b).memory = b.memory
    split <;> rfl

namespace Processor

/-! ### Counting -/

/-- How many rounds a byte stands for that is counted down before it is looked at. -/
def byteRounds (counter : UInt8) : Nat := if counter = 0 then 256 else counter.toNat

theorem byteRounds_pos (counter : UInt8) : 0 < byteRounds counter := by
  unfold byteRounds
  split
  · decide
  · rename_i h
    exact Nat.pos_of_ne_zero fun hzero => h (UInt8.toNat_inj.1 hzero)

theorem byteRounds_le (counter : UInt8) : byteRounds counter ≤ 256 := by
  unfold byteRounds
  split
  · exact Nat.le_refl _
  · exact Nat.le_of_lt counter.toNat_lt

/-- The counter is at zero after its last round and after no other. -/
theorem byte_beq_zero (counter : UInt8) {k : Nat} (hk : k < byteRounds counter) :
    (counter - UInt8.ofNat (k + 1) == 0) = decide (byteRounds counter = k + 1) := by
  have hlt := counter.toNat_lt
  have hle := byteRounds_le counter
  rw [Bool.beq_eq_decide_eq, decide_eq_decide, ← UInt8.toNat_inj, UInt8.toNat_sub,
    UInt8.toNat_ofNat', UInt8.toNat_zero]
  unfold byteRounds at hk hle ⊢
  split at hk
  · rename_i h
    rw [h, if_pos rfl, UInt8.toNat_zero]
    omega
  · rename_i h
    rw [if_neg h]
    omega

theorem sub_ofNat_byteRounds (counter : UInt8) :
    counter - UInt8.ofNat (byteRounds counter) = 0 := by
  obtain ⟨k, hk⟩ := Nat.exists_eq_add_one_of_ne_zero (Nat.ne_of_gt (byteRounds_pos counter))
  have hzero := byte_beq_zero counter (k := k) (by omega)
  rw [← hk, decide_eq_true rfl] at hzero
  exact beq_iff_eq.1 hzero

/-- The port when `B` has been counted down `k` times; it wraps. -/
def portAfter (bc : UInt16) (k : Nat) : UInt16 :=
  Word.withHigh bc (Word.high bc - UInt8.ofNat k)

theorem portAfter_zero (bc : UInt16) : portAfter bc 0 = bc := by
  show Word.ofBytes (Word.high bc - 0) (Word.low bc) = bc
  rw [UInt8.sub_zero, Word.ofBytes_high_low]

theorem high_portAfter (bc : UInt16) (k : Nat) :
    Word.high (portAfter bc k) = Word.high bc - UInt8.ofNat k := Word.high_withHigh ..

theorem low_portAfter (bc : UInt16) (k : Nat) : Word.low (portAfter bc k) = Word.low bc :=
  Word.low_withHigh ..

theorem portAfter_succ (bc : UInt16) (k : Nat) :
    Word.withHigh (portAfter bc k) (Word.high (portAfter bc k) - 1) = portAfter bc (k + 1) := by
  have hcount : Word.high bc - UInt8.ofNat k - 1 = Word.high bc - UInt8.ofNat (k + 1) := by
    apply UInt8.toNat_inj.1
    simp only [UInt8.toNat_sub, UInt8.toNat_ofNat', UInt8.toNat_one]
    omega
  rw [high_portAfter, hcount, portAfter, Word.withHigh_withHigh]
  rfl

/-- Of fewer addresses than there are, no two are the same. -/
theorem along_ne (down : Bool) (w : UInt16) {i j : Nat} (hij : i < j) (hj : j < 65536) :
    along down w i ≠ along down w j := by
  intro h
  have hw := w.toNat_lt
  have h' := UInt16.toNat_inj.2 h
  cases down
  · change (w + UInt16.ofNat i).toNat = (w + UInt16.ofNat j).toNat at h'
    rw [UInt16.toNat_add, UInt16.toNat_add, UInt16.toNat_ofNat', UInt16.toNat_ofNat'] at h'
    omega
  · change (w - UInt16.ofNat i).toNat = (w - UInt16.ofNat j).toNat at h'
    rw [UInt16.toNat_sub, UInt16.toNat_sub, UInt16.toNat_ofNat', UInt16.toNat_ofNat'] at h'
    omega

variable {β : Type} [Bus β]

/-! ### Buses -/

/-- The bus after the first `n` bytes of memory from `source` on were sent, with `B` counted down
before each. -/
def sent (m : Memory) (down : Bool) (source bc : UInt16) (b : β) : Nat → β
  | 0 => b
  | n + 1 =>
    Bus.output (sent m down source bc b n) (portAfter bc (n + 1)) (m.byteAt (along down source n))

/-- The bus after `n` answers of the port were stored from `target` on, with `B` counted down after
each. -/
def received (down : Bool) (target bc : UInt16) (b : β) : Nat → β
  | 0 => b
  | n + 1 =>
    let answer := Bus.input (received down target bc b n) (portAfter bc n)
    Bus.write answer.2 (along down target n) answer.1

variable {memory : β → Memory} {down : Bool}

theorem memory_sent (h : Separate memory) (m : Memory) (source bc : UInt16) (b : β) :
    ∀ n, memory (sent m down source bc b n) = memory b
  | 0 => rfl
  | n + 1 => (h.output ..).trans (memory_sent h m source bc b n)

theorem memory_received_succ (h : Separate memory) (target bc : UInt16) (b : β) (n : Nat) :
    memory (received down target bc b (n + 1)) =
      (memory (received down target bc b n)).store (along down target n)
        (Bus.input (received down target bc b n) (portAfter bc n)).1 := by
  rw [received, h.write, h.input]

/-- Where nothing was stored, nothing has changed. -/
theorem received_byteAt_of_ne (h : Separate memory) (target bc : UInt16) (b : β) {a : UInt16} :
    ∀ {n : Nat}, (∀ i < n, along down target i ≠ a) →
      (memory (received down target bc b n)).byteAt a = (memory b).byteAt a
  | 0, _ => rfl
  | n + 1, hne => by
      rw [memory_received_succ h,
        Memory.byteAt_store_ne _ _ (hne n (Nat.lt_succ_self n)).symm]
      exact received_byteAt_of_ne h target bc b fun i hi => hne i (Nat.lt_succ_of_lt hi)

/-- Every answer is where it was stored. -/
theorem received_byteAt (h : Separate memory) (target bc : UInt16) (b : β) {i n : Nat}
    (hi : i < n) (hn : n ≤ 65536) :
    (memory (received down target bc b n)).byteAt (along down target i) =
      (Bus.input (received down target bc b i) (portAfter bc i)).1 := by
  induction n with
  | zero => exact absurd hi (Nat.not_lt_zero i)
  | succ n ih =>
      rw [memory_received_succ h]
      rcases Nat.lt_or_eq_of_le (Nat.le_of_lt_succ hi) with hlt | rfl
      · rw [Memory.byteAt_store_ne _ _ (along_ne down target hlt hn)]
        exact ih hlt (Nat.le_of_succ_le hn)
      · exact Memory.byteAt_store_same ..

/-! ### Rounds -/

/-- A round of either direction counts down `B`, and the zero flag shows whether that is done. -/
structure CountsDown (op : BlockOperation) : Prop where
  de (down : Bool) (z : Processor β) : (blockRound op down z).1.regs.de = z.regs.de
  bc (down : Bool) (z : Processor β) : (blockRound op down z).1.regs.bc =
    Word.withHigh z.regs.bc (Word.high z.regs.bc - 1)
  zero (down : Bool) (z : Processor β) : Flag.has (blockRound op down z).1.regs.f Flag.zero =
    (Word.high z.regs.bc - 1 == 0)
  again (down : Bool) (z : Processor β) : (blockRound op down z).2 =
    (Word.high z.regs.bc - 1 != 0)

theorem has_zero_portFlags (b v other : UInt8) :
    Flag.has (portFlags b v other) Flag.zero = (b == 0) := by
  have hcarries : Flag.has (if other.toNat + v.toNat > 0xFF then Flag.half ||| Flag.carry else 0)
      Flag.zero = false := by
    split <;> decide
  unfold portFlags
  dsimp only
  rw [Flag.has_or, Flag.has_or, Flag.has_or, Flag.has_and, hcarries, Flag.has_mark,
    has_signZero (by decide), show Flag.parity &&& Flag.zero = 0 by decide, Flag.has_none,
    show Flag.has Flag.subtract Flag.zero = false by decide,
    show Flag.has Flag.zero Flag.zero = true by decide, Bool.and_false, Bool.and_true,
    Bool.or_false, Bool.or_false, Bool.or_false]

theorem countsDown_input : CountsDown (β := β) .input where
  de _ _ := rfl
  bc _ _ := rfl
  zero _ _ := has_zero_portFlags ..
  again _ _ := rfl

theorem countsDown_output : CountsDown (β := β) .output where
  de _ _ := rfl
  bc _ _ := rfl
  zero down z := by
    rw [← Word.high_withHigh z.regs.bc (Word.high z.regs.bc - 1)]
    exact has_zero_portFlags ..
  again down z := by
    rw [← Word.high_withHigh z.regs.bc (Word.high z.regs.bc - 1)]
    rfl

/-- What `k` rounds through a port have made of the processor `z`, with the bus as it is after each
number of rounds. -/
structure Ported (bus : Nat → β) (down : Bool) (z : Processor β) (k : Nat) (w : Processor β) :
    Prop extends Turned z down (byteRounds (Word.high z.regs.bc)) k w where
  bus : w.bus = bus k
  bc : w.regs.bc = portAfter z.regs.bc k
  de : w.regs.de = z.regs.de
  zero : 0 < k → Flag.has w.regs.f Flag.zero = decide (byteRounds (Word.high z.regs.bc) = k)

/-- The bus as it is after each number of rounds of an instruction that stays where it is until
its last round. -/
structure Course (op : BlockOperation) (down : Bool) (z : Processor β) (bus : Nat → β) : Prop where
  counts : CountsDown (β := β) op
  start : bus 0 = z.bus
  lead : ∀ k < byteRounds (Word.high z.regs.bc), Bus.read (bus k) z.regs.pc = 0xED
  opcode : ∀ k < byteRounds (Word.high z.regs.bc),
    decodeExtended (Bus.read (bus k) (z.regs.pc + 1)) = some (.block op down true)
  round : ∀ k w, Ported bus down z k w → (blockRound op down w.opened).1.bus = bus (k + 1)

variable {op : BlockOperation} {bus : Nat → β} {z w : Processor β} {k : Nat}

theorem Ported.start (hstart : bus 0 = z.bus) : Ported bus down z 0 z where
  toTurned := .start z down (byteRounds_pos _)
  bus := hstart.symm
  bc := (portAfter_zero _).symm
  de := rfl
  zero h := absurd h (Nat.lt_irrefl 0)

theorem Ported.atBlock (h : Ported bus down z k w) (hcourse : Course op down z bus)
    (hk : k < byteRounds (Word.high z.regs.bc))
    (hz : z.RunsFor (byteRounds (Word.high z.regs.bc))) : w.AtBlock op down where
  runs := h.runs hk hz
  lead := by
    rw [(h.within hk).2, peek, h.bus]
    exact hcourse.lead k hk
  opcode := by
    rw [(h.within hk).2, peek, h.bus]
    exact hcourse.opcode k hk

/-- One round more. -/
theorem Ported.next (h : Ported bus down z k w) (hcourse : Course op down z bus)
    (hk : k < byteRounds (Word.high z.regs.bc))
    (hz : z.RunsFor (byteRounds (Word.high z.regs.bc))) : ∃ u, Ported bus down z (k + 1) u := by
  obtain ⟨u, hu⟩ := (h.atBlock hcourse hk hz).rounded
  have hcount := hcourse.counts
  have hdone : (Word.high w.regs.bc - 1 == 0) =
      decide (byteRounds (Word.high z.regs.bc) = k + 1) := by
    rw [← byte_beq_zero _ hk, ← high_portAfter, ← portAfter_succ, ← h.bc]
    exact congrArg (· == 0) (Word.high_withHigh ..).symm
  have hagain : (blockRound op down w.opened).2 =
      decide (k + 1 < byteRounds (Word.high z.regs.bc)) := by
    rw [hcount.again]
    show (!(Word.high w.regs.bc - 1 == 0)) = _
    rw [hdone, ← decide_not, decide_eq_decide]
    omega
  rw [hagain] at hu
  refine ⟨u, ⟨h.toTurned.next hk hu, ?_, ?_, ?_, fun _ => ?_⟩⟩
  · rw [hu.bus]
    exact hcourse.round k w h
  · rw [hu.bc, hcount.bc, ← portAfter_succ, ← h.bc]
    rfl
  · rw [hu.de, hcount.de]
    exact h.de
  · rw [hu.f, hcount.zero]
    exact hdone

/-- The rounds follow one another. -/
theorem Course.ported (hcourse : Course op down z bus)
    (hz : z.RunsFor (byteRounds (Word.high z.regs.bc))) :
    ∀ {k : Nat}, k ≤ byteRounds (Word.high z.regs.bc) → ∃ w, Ported bus down z k w
  | 0, _ => ⟨z, .start hcourse.start⟩
  | k + 1, hk => by
      obtain ⟨w, hw⟩ := hcourse.ported hz (Nat.le_of_lt hk)
      exact hw.next hcourse hk hz

/-- Sending leaves memory alone, and so the instruction too. -/
theorem Course.sent (h : Separate memory) (hlead : z.peek z.regs.pc = 0xED)
    (hopcode : z.peek (z.regs.pc + 1) = if down then 0xBB else 0xB3) :
    Course .output down z (sent (memory z.bus) down z.regs.hl z.regs.bc z.bus) where
  counts := countsDown_output
  start := rfl
  lead k _ := by
    rw [h.read, memory_sent h, ← h.read]
    exact hlead
  opcode k _ := by
    rw [h.read, memory_sent h, ← h.read, show Bus.read z.bus (z.regs.pc + 1) = _ from hopcode]
    cases down <;> decide
  round k w hw := by
    have hbyte : Bus.read w.bus w.regs.hl = (memory z.bus).byteAt (along down z.regs.hl k) := by
      rw [h.read, hw.bus, memory_sent h, hw.hl]
    show Bus.output w.bus (Word.withHigh w.regs.bc (Word.high w.regs.bc - 1))
      (Bus.read w.bus w.regs.hl) = _
    rw [hbyte, hw.bc, portAfter_succ, hw.bus]
    rfl

/-- Bytes that are stored elsewhere leave the instruction alone. -/
theorem Course.received (h : Separate memory) (hlead : z.peek z.regs.pc = 0xED)
    (hopcode : z.peek (z.regs.pc + 1) = if down then 0xBA else 0xB2)
    (hclear : ∀ i < byteRounds (Word.high z.regs.bc) - 1,
      along down z.regs.hl i ≠ z.regs.pc ∧ along down z.regs.hl i ≠ z.regs.pc + 1) :
    Course .input down z (received down z.regs.hl z.regs.bc z.bus) where
  counts := countsDown_input
  start := rfl
  lead k hk := by
    rw [h.read, received_byteAt_of_ne h _ _ _ fun i hi => (hclear i (by omega)).1, ← h.read]
    exact hlead
  opcode k hk := by
    rw [h.read, received_byteAt_of_ne h _ _ _ fun i hi => (hclear i (by omega)).2, ← h.read,
      show Bus.read z.bus (z.regs.pc + 1) = _ from hopcode]
    cases down <;> decide
  round k w hw := by
    show Bus.write (Bus.input w.bus w.regs.bc).2 w.regs.hl (Bus.input w.bus w.regs.bc).1 = _
    rw [hw.bus, hw.bc, hw.hl]
    rfl

/-! ### Runs -/

/-- A run of as many steps as `B` counts, at the end of which `z` has become `w`. -/
structure Through (bus : Nat → β) (down : Bool) (z : Processor β) (n : Nat) (w : Processor β) :
    Prop where
  within : ∀ k < n, ∃ v, z.steps k = some (v, 21 * k) ∧ v.regs.pc = z.regs.pc ∧
    v.regs.bc = portAfter z.regs.bc k ∧ v.bus = bus k
  steps : z.steps n = some (w, 21 * (n - 1) + 16)
  pc : w.regs.pc = z.regs.pc + 2
  bus : w.bus = bus n
  hl : w.regs.hl = along down z.regs.hl n
  high : Word.high w.regs.bc = 0
  low : Word.low w.regs.bc = Word.low z.regs.bc
  a : w.regs.a = z.regs.a
  de : w.regs.de = z.regs.de
  zero : Flag.has w.regs.f Flag.zero = true
  r : w.regs.r.toNat = z.regs.r.toNat / 128 * 128 + (z.regs.r.toNat + 2 * n) % 128
  rest : w = z.withBlockPart w

theorem Course.through (hcourse : Course op down z bus)
    (hz : z.RunsFor (byteRounds (Word.high z.regs.bc))) :
    ∃ w, Through bus down z (byteRounds (Word.high z.regs.bc)) w := by
  obtain ⟨w, hw⟩ := hcourse.ported hz (Nat.le_refl _)
  obtain ⟨hsteps, hpc⟩ := hw.finished
  refine ⟨w, ⟨fun k hk => ?_, hsteps, hpc, hw.bus, hw.hl, ?_, ?_, ?_, hw.de, ?_, hw.r, hw.rest⟩⟩
  · obtain ⟨v, hv⟩ := hcourse.ported hz (Nat.le_of_lt hk)
    exact ⟨v, (hv.within hk).1, (hv.within hk).2, hv.bc, hv.bus⟩
  · rw [hw.bc, high_portAfter, sub_ofNat_byteRounds]
  · rw [hw.bc, low_portAfter]
  · rw [hw.rest]
    rfl
  · rw [hw.zero (byteRounds_pos _)]
    exact decide_eq_true rfl

/-- **A block transfer through a port makes as many steps as `B` counts, and one byte goes through
in each.**  The port has `B` in its high byte, counted down already when a byte is sent and not yet
when one is stored.  Stored bytes may overwrite the instruction only with the last. -/
theorem block_port {memory : β → Memory} (hbus : Separate memory) (down : Bool) (z : Processor β)
    (hruns : z.RunsFor (byteRounds (Word.high z.regs.bc))) (hlead : z.peek z.regs.pc = 0xED) :
    let n := byteRounds (Word.high z.regs.bc)
    let sent := sent (memory z.bus) down z.regs.hl z.regs.bc z.bus
    let received := received down z.regs.hl z.regs.bc z.bus
    (z.peek (z.regs.pc + 1) = (if down then 0xBB else 0xB3) →
      ∃ w, Through sent down z n w ∧ memory w.bus = memory z.bus) ∧
    (z.peek (z.regs.pc + 1) = (if down then 0xBA else 0xB2) →
      (∀ i < n - 1,
        along down z.regs.hl i ≠ z.regs.pc ∧ along down z.regs.hl i ≠ z.regs.pc + 1) →
      ∃ w, Through received down z n w ∧
        (∀ i < n, (memory w.bus).byteAt (along down z.regs.hl i) =
          (Bus.input (received i) (portAfter z.regs.bc i)).1) ∧
        ∀ a, (∀ i < n, along down z.regs.hl i ≠ a) →
          (memory w.bus).byteAt a = (memory z.bus).byteAt a) := by
  intro n sent received
  constructor
  · intro hopcode
    obtain ⟨w, hw⟩ := (Course.sent hbus hlead hopcode).through hruns
    refine ⟨w, hw, ?_⟩
    rw [hw.bus, memory_sent hbus]
  · intro hopcode hclear
    obtain ⟨w, hw⟩ := (Course.received hbus hlead hopcode hclear).through hruns
    have hle : n ≤ 65536 := Nat.le_trans (byteRounds_le _) (by decide)
    refine ⟨w, hw, fun i hi => ?_, fun a hne => ?_⟩
    · rw [hw.bus, received_byteAt hbus _ _ _ hi hle]
    · rw [hw.bus, received_byteAt_of_ne hbus _ _ _ hne]

/-- `INIR` past the end of memory, and the bytes that it stored sent back by `OTDR`.  Each byte has
a port of its own. -/
theorem block_port_across_zero : ∃ z w u v : Processor Bench,
    z.regs.hl = 0xFFFF ∧ z.steps 2 = some (w, 37) ∧ w.regs.hl = 1 ∧
    w.bus.events.toList = [.input 0x0240 0x42, .write 0xFFFF 0x42, .input 0x0140 0x41,
      .write 0 0x41] ∧
    u.bus = w.bus ∧ u.steps 2 = some (v, 37) ∧ v.regs.hl = 0xFFFE ∧
    v.bus.events.toList = w.bus.events.toList ++ [.output 0x0140 0x41, .output 0x0040 0x42] := by
  obtain ⟨m, hlead, hin, hnext, hout⟩ : ∃ m : Memory, m.byteAt 0x100 = 0xED ∧
      m.byteAt 0x101 = 0xB2 ∧ m.byteAt 0x102 = 0xED ∧ m.byteAt 0x103 = 0xBB := by
    refine ⟨Memory.blank.storeAll 0x100 [0xED, 0xB2, 0xED, 0xBB], ?_⟩
    simp [Memory.storeAll, Memory.byteAt_store_ne, Memory.byteAt_store_same]
  have hcount : byteRounds (Word.high 0x0240) = 2 := by decide
  have hports : portAfter 0x0240 0 = 0x0240 ∧ portAfter 0x0240 1 = 0x0140 ∧
      portAfter 0x0240 2 = 0x0040 := by decide
  have hup : along false 0xFFFF 2 = 1 := by decide
  have hdown : along true 0 0 = 0 ∧ along true 0 1 = 0xFFFF ∧ along true 0 2 = 0xFFFE := by decide
  have hclear : ∀ i < byteRounds (Word.high 0x0240) - 1,
      along false 0xFFFF i ≠ 0x100 ∧ along false 0xFFFF i ≠ 0x100 + 1 := by decide
  have hother : ∀ i < 2, along false 0xFFFF i ≠ 0x102 ∧ along false 0xFFFF i ≠ 0x103 := by decide
  let z : Processor Bench :=
    { bus := { memory := m, scramble := some 0 }
      regs := { pc := 0x100, hl := 0xFFFF, bc := 0x0240 } }
  obtain ⟨w, hw, -, hkept⟩ :=
    (block_port Separate.bench false z ⟨rfl, fun _ => rfl⟩ hlead).2 hin hclear
  rw [show byteRounds (Word.high z.regs.bc) = 2 from hcount] at hw hkept
  let u : Processor Bench := { bus := w.bus, regs := { pc := 0x102, hl := 0, bc := 0x0240 } }
  obtain ⟨v, hv, -⟩ := (block_port Separate.bench true u ⟨rfl, fun _ => rfl⟩
    ((hkept 0x102 fun i hi => (hother i hi).1).trans hnext)).1
    ((hkept 0x103 fun i hi => (hother i hi).2).trans hout)
  rw [show byteRounds (Word.high u.regs.bc) = 2 from hcount] at hv
  have hstored : w.bus = { z.bus with
      memory := (m.store 0xFFFF 0x42).store 0 0x41
      events := #[.input 0x0240 0x42, .write 0xFFFF 0x42, .input 0x0140 0x41, .write 0 0x41] } := by
    rw [hw.bus]
    show received false 0xFFFF 0x0240 z.bus 2 = _
    simp only [received, hports]
    rfl
  refine ⟨z, w, u, v, rfl, hw.steps, hw.hl.trans hup, ?_, rfl, hv.steps, hv.hl.trans hdown.2.2,
    ?_⟩
  · rw [hstored]
  · rw [hv.bus]
    show (sent w.bus.memory true 0 0x0240 w.bus 2).events.toList = _
    rw [hstored]
    simp only [sent, hports, hdown, Memory.byteAt_store_same,
      Memory.byteAt_store_ne _ _ (show (0xFFFF : UInt16) ≠ 0 by decide)]
    rfl

end Processor

end MasterSystem.Z80
