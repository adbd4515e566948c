import MasterSystem.Proofs.Machine.Course

/-! # Waiting for the vertical blank

A processor that has halted, or is about to, stays where it is while no interrupt can wake it
(`Waits`).  Time passes four T-states at a time, so the machine runs whole fields (`Waits.field`),
whatever is on the screen, and only the beam changes the board (`runToBlank_waits_bus`). -/

namespace MasterSystem

open Video (Vdp)
open Video.Vdp (LineStart)
open Z80 (Processor)

/-! ### The processor -/

/-- The processor waits: it has halted or is about to, and no interrupt will wake it. -/
structure Z80.Processor.Waits {β : Type} [Z80.Bus β] (z : Processor β) : Prop where
  nmi : z.regs.nmiPending = false
  irq : z.regs.iff1 = false
  halt : z.regs.halted = true ∨ z.peek z.regs.pc = 0x76

namespace Z80.Processor

variable {β : Type} [Z80.Bus β]

theorem execute_halt (z : Processor β) :
    execute 0x76 z =
      ((z.note (.halt (z.regs.pc - 1))).mapRegs fun s => { s with halted := true }, .ok 4) := by
  unfold execute
  rw [lookUp_eq_decode, show decode 0x76 = .plain .halt by decide]
  rfl

theorem fetch_rest (z : Processor β) : (fetch z).2.bus = z.bus ∧
    (fetch z).2.regs.iff1 = z.regs.iff1 ∧ (fetch z).2.regs.nmiPending = z.regs.nmiPending :=
  ⟨rfl, rfl, rfl⟩

theorem Waits.stepUnclocked {z : Processor β} (h : z.Waits) :
    ∃ w, z.stepUnclocked = (w, .ok 4) ∧ w.bus = z.bus ∧ w.regs.halted = true ∧
      w.regs.iff1 = false ∧ w.regs.nmiPending = false := by
  have hirq : acceptsIRQ z.regs = false := by
    unfold acceptsIRQ
    rw [h.irq, Bool.and_false, Bool.false_and]
  unfold Processor.stepUnclocked
  rw [h.nmi, hirq, if_neg (by decide), if_neg (by decide)]
  dsimp only
  split
  · rename_i hh
    exact ⟨_, rfl, rfl, hh, h.irq, h.nmi⟩
  · rename_i hh
    have hop : (fetch (z.mapRegs fun s => { s with eiPending := false })).1 = 0x76 :=
      h.halt.resolve_left hh
    obtain ⟨hbus, hirq', hnmi⟩ := fetch_rest (z.mapRegs fun s => { s with eiPending := false })
    unfold runInstruction
    generalize fetch (z.mapRegs fun s => { s with eiPending := false }) = p at hop hbus hirq' hnmi ⊢
    obtain ⟨op, w⟩ := p
    obtain rfl : op = 0x76 := hop
    dsimp only at hbus hirq' hnmi ⊢
    rw [execute_halt]
    exact ⟨_, rfl, hbus, rfl, hirq'.trans h.irq, hnmi.trans h.nmi⟩

/-- A processor that waits goes on waiting, four T-states at a time. -/
theorem Waits.step {z : Processor β} (h : z.Waits) :
    ∃ w, z.step = (w, .ok 4) ∧ w.bus = z.bus ∧ w.Waits ∧ w.regs.halted = true := by
  obtain ⟨w, hw, hbus, hhalted, hirq, hnmi⟩ := h.stepUnclocked
  unfold Processor.step
  rw [hw]
  exact ⟨_, rfl, hbus, ⟨hnmi, hirq, .inl hhalted⟩, hhalted⟩

end Z80.Processor

/-! ### The machine -/

namespace Machine

theorem follow_waits {w : Processor Mainboard} (h : w.Waits) (hh : w.regs.halted = true) (c : Nat) :
    (follow w c).2.Waits := by
  have hr := follow_regs w c
  exact ⟨by rw [hr]; exact h.nmi, by rw [hr]; exact h.irq, .inl (by rw [hr]; exact hh)⟩

/-- A beat of a processor that waits: the beam stays in its line, or it enters the next. -/
theorem Waits.beat {z : Processor Mainboard} (h : z.Waits)
    (hrest : z.bus.vdp.lineCycles < cyclesPerLine) (cycle : Nat) :
    ∃ w u blank, Processor.step { z with bus := { z.bus with cycle := cycle } } = (w, .ok 4) ∧
      follow w 4 = (blank, u) ∧ u.Waits ∧ u.bus.vdp.timing = z.bus.vdp.timing ∧
      u.bus.vdp.activeHeight = z.bus.vdp.activeHeight ∧ u.bus.vdp.lineCycles < cyclesPerLine ∧
      ((w.bus.vdp.starts 4 = [] ∧ blank = false ∧ u.bus.vdp.line = z.bus.vdp.line ∧
          u.bus.vdp.lineCycles = z.bus.vdp.lineCycles + 4) ∨
        ∃ s, w.bus.vdp.starts 4 = [s] ∧ s.height = z.bus.vdp.activeHeight ∧
          blank = decide (u.bus.vdp.line = z.bus.vdp.activeHeight) ∧
          u.bus.vdp.line = (z.bus.vdp.line + 1) % z.bus.vdp.timing.linesPerFrame ∧
          u.bus.vdp.lineCycles + cyclesPerLine = z.bus.vdp.lineCycles + 4) := by
  have hready : Processor.Waits { z with bus := { z.bus with cycle := cycle } } :=
    ⟨h.nmi, h.irq, h.halt⟩
  obtain ⟨w, hw, hbus, hwaits, hhalted⟩ := hready.step
  have hvdp : w.bus.vdp = z.bus.vdp := by rw [hbus]
  have hcycles := follow_lineCycles w 4
  have hplace := follow_line w 4
  have hlength := Vdp.length_starts w.bus.vdp 4
  refine ⟨w, (follow w 4).2, (follow w 4).1, hw, rfl, follow_waits hwaits hhalted 4,
    hvdp ▸ follow_timing w 4, hvdp ▸ follow_activeHeight w 4,
    hcycles ▸ Nat.mod_lt _ (by decide), ?_⟩
  rw [follow_starts]
  rw [hvdp] at hcycles hplace hlength ⊢
  simp only [cyclesPerLine] at hrest hlength hcycles ⊢
  obtain hzero | hone : (z.bus.vdp.starts 4).length = 0 ∨ (z.bus.vdp.starts 4).length = 1 := by
    omega
  · rw [if_pos hzero] at hplace
    have hnil := List.eq_nil_of_length_eq_zero hzero
    exact .inl ⟨hnil, by rw [hnil]; rfl, hplace, by omega⟩
  · rw [if_neg (by omega), hone] at hplace
    obtain ⟨s, hs⟩ := List.length_eq_one_iff.1 hone
    have hmem : s ∈ z.bus.vdp.starts 4 := by simp [hs]
    have hheight := Vdp.starts_height z.bus.vdp 4 s hmem
    have hspec := (Vdp.starts_spec z.bus.vdp 4 s hmem).2
    have hline := Vdp.starts_line z.bus.vdp 4
    rw [hs] at hline
    have hline : s.line = (z.bus.vdp.line + 1) % z.bus.vdp.timing.linesPerFrame := by
      simpa using hline
    refine .inr ⟨s, hs, hheight, ?_, hplace, by omega⟩
    rw [hs, hplace, ← hline, ← hheight, ← hspec]
    simp

/-- A processor that waits reaches the line where the vertical blank begins, `k` lines ahead. -/
theorem runToBlank_waits : ∀ (n cycle k : Nat) (z : Processor Mainboard), z.Waits →
    z.bus.vdp.lineCycles < cyclesPerLine → 0 < k →
    (z.bus.vdp.line + k) % z.bus.vdp.timing.linesPerFrame = z.bus.vdp.activeHeight →
    cyclesPerLine * k ≤ z.bus.vdp.lineCycles + 4 * n →
    (runToBlank n cycle z).1 = none ∧
      z.bus.vdp.lineCycles + ticks (beatsFrom n cycle z) ≤ cyclesPerLine * k + 3 ∧
      ∀ s ∈ lines (beatsFrom n cycle z), s.height = z.bus.vdp.activeHeight
  | 0, cycle, k, z, h, hrest, hk, hline, hn => by
      simp only [cyclesPerLine] at hrest hn
      omega
  | n + 1, cycle, k, z, h, hrest, hk, hline, hn => by
      obtain ⟨w, u, blank, hstep, hfollow, hu, htiming, hheight, hcycle, hmove⟩ :=
        Waits.beat h hrest cycle
      unfold runToBlank beatsFrom
      rw [hstep]
      dsimp only
      rw [hfollow]
      have ih (k' : Nat) := runToBlank_waits n (cycle + 4) k' u hu hcycle
      rw [htiming, hheight] at ih
      simp only [cyclesPerLine] at hrest hn hmove ih ⊢
      obtain ⟨hstarts, rfl, hplace, hcycles⟩ | ⟨s, hstarts, hs, rfl, hplace, hcycles⟩ := hmove
      · obtain ⟨hnone, hticks, hlines⟩ := ih k hk (hplace ▸ hline) (by omega)
        refine ⟨hnone, ?_, ?_⟩
        · rw [ticks_cons]
          dsimp only
          omega
        · rw [lines_cons, hstarts]
          exact hlines
      · by_cases hend : u.bus.vdp.line = z.bus.vdp.activeHeight
        · rw [decide_eq_true hend]
          refine ⟨rfl, ?_, ?_⟩
          · rw [ticks_cons, show ticks [] = 0 from rfl]
            dsimp only
            omega
          · simp [lines, hstarts, hs]
        · -- The blank is not yet reported, so the line it begins at is one of those still ahead.
          have hk1 : k ≠ 1 := by
            rintro rfl
            exact hend (hplace.trans hline)
          rw [decide_eq_false hend]
          obtain ⟨hnone, hticks, hlines⟩ := ih (k - 1) (by omega)
            (by rw [hplace, Nat.mod_add_mod, Nat.add_assoc, Nat.add_sub_cancel' hk, hline])
            (by omega)
          refine ⟨hnone, ?_, ?_⟩
          · rw [ticks_cons]
            dsimp only
            omega
          · intro x hx
            rw [lines_cons, hstarts, List.singleton_append] at hx
            rcases List.mem_cons.1 hx with rfl | hx
            · exact hs
            · exact hlines x hx

/-- A processor that waits leaves the board to the beam: what time preserves, it preserves. -/
theorem runToBlank_waits_bus {I : Mainboard → Prop}
    (hcycle : ∀ {b}, I b → ∀ c, I { b with cycle := c })
    (htime : ∀ {b}, I b → ∀ c, I { b with vdp := (b.vdp.advance c).2.quiet })
    (hquiet : ∀ {b}, I b → I { b with notes := #[] }) :
    ∀ (n cycle : Nat) (z : Processor Mainboard), z.Waits → I z.bus →
      I (runToBlank n cycle z).2.2.bus
  | 0, _, _, _, h => h
  | n + 1, cycle, z, hwaits, h => by
      obtain ⟨w, hw, hbus, hw', hhalted⟩ :=
        Processor.Waits.step (z := { z with bus := { z.bus with cycle := cycle } })
          ⟨hwaits.nmi, hwaits.irq, hwaits.halt⟩
      have hf := hquiet (htime (hcycle h cycle) 4)
      have hu := follow_waits hw' hhalted 4
      have hbus : (follow w 4).2.bus = _ := (follow_bus w 4).trans (by rw [hbus])
      rw [← hbus] at hf
      unfold runToBlank
      rw [hw]
      dsimp only
      generalize follow w 4 = p at hf hu ⊢
      obtain ⟨_ | _, u⟩ := p
      · exact runToBlank_waits_bus hcycle htime hquiet n _ u hu hf
      · exact hf

/-- A processor that waits from one vertical blank to the next runs a whole field. -/
theorem Waits.field {m : Machine} (h : m.cpu.Waits) (hrest : m.board.vdp.lineCycles < cyclesPerLine)
    (hline : m.board.vdp.line = m.board.vdp.activeHeight) :
    m.runField.2 = .ok () ∧ ticks m.beats < 0x100000000 ∧
      ∀ s ∈ lines m.beats, s.height = m.board.vdp.activeHeight := by
  have hfield : (m.cpu.bus.vdp.line + m.cpu.bus.vdp.timing.linesPerFrame) %
        m.cpu.bus.vdp.timing.linesPerFrame = m.cpu.bus.vdp.activeHeight ∧
      0 < m.cpu.bus.vdp.timing.linesPerFrame ∧ m.cpu.bus.vdp.timing.linesPerFrame ≤ 313 := by
    have hline : m.cpu.bus.vdp.line = m.cpu.bus.vdp.activeHeight := hline
    have hcases := m.cpu.bus.vdp.activeHeight_cases
    rw [← hline] at hcases ⊢
    generalize m.cpu.bus.vdp.timing = t
    cases t <;> simp only [Standard.linesPerFrame] <;> omega
  obtain ⟨hnone, hticks, hlines⟩ := runToBlank_waits stepLimit m.frameCycle _ m.cpu h hrest
    hfield.2.1 hfield.1 (by
      simp only [cyclesPerLine, stepLimit]
      omega)
  refine ⟨?_, ?_, hlines⟩
  · unfold runField
    generalize runToBlank stepLimit m.frameCycle m.cpu = o at hnone ⊢
    obtain ⟨x | x, cycle, z⟩ := o
    · rfl
    · simp at hnone
  · show ticks (beatsFrom stepLimit m.frameCycle m.cpu) < 0x100000000
    simp only [cyclesPerLine] at hticks
    omega

end Machine

/-! ### Small cartridges -/

section

variable {image : Array UInt8}

/-- An image of eight kilobytes is the whole of a small cartridge's ROM. -/
theorem load_small (hsize : image.size = 0x2000) : ∃ c, Cartridge.load image
    { console := .master, zone := .exportNtsc, board := .romOnly } none = .ok c ∧
      c.rom = image ∧ c.info.board = .romOnly := by
  have hstrip : Cartridge.strip image = image := by
    unfold Cartridge.strip Cartridge.hasCopierHeader
    rw [hsize]
    rfl
  unfold Cartridge.load
  dsimp only
  rw [hstrip, hsize]
  exact ⟨_, rfl, rfl, rfl⟩

/-- A machine that was loaded with it. -/
theorem insert_small (hsize : image.size = 0x2000) (s : Settings) (hs : s.overrides = {}) :
    ∃ (c : Cartridge) (m₀ : Machine), (Machine.new s).insert image
      { console := .master, zone := .exportNtsc, board := .romOnly } none = (m₀, .ok ()) ∧
    c.rom = image ∧ c.info.board = .romOnly ∧ m₀.cpu.bus = .new (some c) none s ∧
    m₀.cpu.regs = {} ∧ m₀.cpu.strict = s.strict ∧ m₀.settings = s ∧ m₀.frameCount = 0 ∧
    m₀.frameCycle = 0 := by
  obtain ⟨c, hload, hrom, hboard⟩ := load_small hsize
  have hopen : Cartridge.load image (Overrides.orElse
      { console := .master, zone := .exportNtsc, board := .romOnly }
      (Machine.new s).settings.overrides) none = .ok c := by
    rw [show (Machine.new s).settings.overrides = {} from hs]
    exact hload
  unfold Machine.insert
  rw [hopen]
  exact ⟨c, _, rfl, hrom, hboard, rfl, rfl, rfl, rfl, rfl, rfl⟩

/-- Its program is at the bottom of the memory. -/
theorem read_small {c : Cartridge} (hrom : c.rom = image) (hboard : c.info.board = .romOnly)
    (k : Console) (enabled : Bool) {address : UInt16} (ha : ¬ Memory.ramStart ≤ address) :
    (Memory.new (some c) none k enabled).read address = Mapper.repeatedByte image address := by
  have hmapped : Memory.mapsBootRom enabled none k = false := by
    simp [Memory.mapsBootRom]
  unfold Memory.read Memory.new Memory.mapperOf
  dsimp only
  rw [if_neg ha, hmapped, if_neg (by decide)]
  unfold Memory.cartridgeByte
  dsimp only
  rw [hboard, hrom]
  rfl

end

/-! ### A program that waits -/

/-- A cartridge on which every instruction is `HALT`. -/
def haltingImage : Array UInt8 := Array.replicate 0x2000 0x76

theorem haltingImage_size : haltingImage.size = 0x2000 := Array.size_replicate

theorem haltingImage_byte (address : UInt16) : Mapper.repeatedByte haltingImage address = 0x76 := by
  have hlt : address.toNat % 0x2000 < 0x2000 := Nat.mod_lt _ (by decide)
  unfold Mapper.repeatedByte haltingImage
  rw [Array.size_replicate, Array.getD_eq_getD_getElem?, Array.getElem?_replicate, if_pos hlt]
  rfl

/-- A machine of the default settings that was loaded with it. -/
theorem insert_haltingImage : ∃ (c : Cartridge) (m₀ : Machine),
    (Machine.new {}).insert haltingImage
      { console := .master, zone := .exportNtsc, board := .romOnly } none = (m₀, .ok ()) ∧
    c.rom = haltingImage ∧ c.info.board = .romOnly ∧ m₀.cpu.bus = .new (some c) none {} ∧
    m₀.cpu.regs = {} ∧ m₀.settings = {} ∧ m₀.frameCount = 0 ∧ m₀.frameCycle = 0 := by
  obtain ⟨c, m₀, hm₀, hrom, hboard, hbus, hregs, -, hrest⟩ :=
    insert_small haltingImage_size {} rfl
  exact ⟨c, m₀, hm₀, hrom, hboard, hbus, hregs, hrest⟩

/-- The program of nothing but `HALT` waits. -/
theorem haltingImage_waits {c : Cartridge} (hrom : c.rom = haltingImage)
    (hboard : c.info.board = .romOnly) {z : Processor Mainboard} (hregs : z.regs = {})
    (s : Settings) (hbus : z.bus = .new (some c) none s) : z.Waits := by
  refine ⟨by rw [hregs], by rw [hregs], .inr ?_⟩
  rw [hregs]
  unfold Processor.peek
  rw [hbus]
  exact (read_small hrom hboard _ s.bootRom (by decide)).trans (haltingImage_byte 0)

end MasterSystem
