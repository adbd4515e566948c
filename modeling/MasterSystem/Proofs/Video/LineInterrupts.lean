import MasterSystem.Proofs.Video.Time

/-! # When the line interrupt is raised

The line counter counts the lines of the picture and the one after it, and is set again below.

* **Lines.**  What the start of a line makes of the counter and of the flag (`nextLine_meter`).
* **Programs.**  `eves` are the chips that a program brings about just before a line starts.
  Whatever happens between two lines, the next one finds the counter as the one before has left it
  (`linked_eves`).  Between two reads of the status, the flag goes up with the first line that
  raises it (`foldl_lineIrq`).
* **Fields.**  Once a line below the picture has started, the counter is in step with the lines
  (`InStep`), and stays so as long as its register and the height of the picture do
  (`InStep.nextLine`).  Hence it runs out at every `n + 1`st line of the picture
  (`line_interrupts`). -/

namespace MasterSystem.Video

namespace Vdp

/-! ### One line -/

/-- What the line interrupt depends on. -/
def meter (v : Vdp) : Vector UInt8 16 × UInt8 × Bool := (v.regs, v.lineCounter, v.lineIrq)

theorem senseLight_meter (v : Vdp) (line : Nat) (row : Array Color) :
    (v.senseLight line row).meter = v.meter := by
  rw [senseLight_eq]
  rfl

theorem scratch_meter (v : Vdp) (f : Frame) : ({ v with scratch := f } : Vdp).meter = v.meter :=
  rfl

theorem renderLine_meter (v : Vdp) (line : Nat) : (v.renderLine line).meter = v.meter := by
  rw [renderLine_eq]
  dsimp only
  rw [scratch_meter, senseLight_meter, paint_status]
  rfl

theorem poised_meter (v : Vdp) : v.poised.meter = v.meter := by
  rw [poised_eq]
  rfl

theorem traced_meter (v : Vdp) :
    v.traced.meter =
      (v.regs,
        if v.line ≤ v.activeHeight ∧ v.lineCounter ≠ 0 then v.lineCounter - 1 else v.register 10,
        v.lineIrq || decide (v.line ≤ v.activeHeight ∧ v.lineCounter = 0)) := by
  have hdrawn : (if v.line < v.activeHeight then v.poised.renderLine v.line
      else v.poised).meter = v.meter := by
    split
    · rw [renderLine_meter, poised_meter]
    · exact poised_meter v
  rw [traced_eq]
  dsimp only
  generalize (if v.line < v.activeHeight then v.poised.renderLine v.line else v.poised) = w
    at hdrawn
  simp only [meter, Prod.mk.injEq] at hdrawn
  obtain ⟨hregs, hcounter, hirq⟩ := hdrawn
  by_cases hline : v.line ≤ v.activeHeight
  · rw [if_pos hline]
    rw [countLine_eq]
    by_cases hzero : v.lineCounter = 0
    · simp [meter, register, hregs, hcounter, hline, hzero]
    · simp [meter, hregs, hcounter, hirq, hline, hzero]
  · rw [if_neg hline]
    simp [meter, register, hregs, hirq, hline]

theorem startLine_meter (v : Vdp) : v.startLine.2.meter = v.traced.meter := by
  rw [startLine_eq]
  split
  · rw [finishField_eq]
    rfl
  · rfl

/-- What the next line makes of the counter and the flag. -/
theorem nextLine_meter (v : Vdp) :
    v.nextLine.2.meter =
      (v.regs,
        if v.enter.line ≤ v.enter.height ∧ v.lineCounter ≠ 0 then v.lineCounter - 1
          else v.register 10,
        v.lineIrq || decide (v.enter.line ≤ v.enter.height ∧ v.lineCounter = 0)) :=
  (startLine_meter { v with line := v.enter.line }).trans
    (traced_meter { v with line := v.enter.line })

theorem nextLine_lineCounter (v : Vdp) :
    v.nextLine.2.lineCounter =
      if v.enter.line ≤ v.enter.height ∧ v.lineCounter ≠ 0 then v.lineCounter - 1
      else v.register 10 :=
  congrArg (·.2.1) (nextLine_meter v)

/-- The line that is about to start raises the interrupt. -/
def raises (v : Vdp) : Bool := ({ v with lineIrq := false } : Vdp).nextLine.2.lineIrq

/-- It does so when it counts and the counter is at zero. -/
theorem raises_eq (v : Vdp) :
    v.raises = decide (v.enter.line ≤ v.enter.height ∧ v.lineCounter = 0) := by
  have hirq := congrArg (·.2.2) (nextLine_meter { v with lineIrq := false })
  exact hirq.trans (Bool.false_or _)

/-- The flag stays up once it has been raised. -/
theorem nextLine_lineIrq (v : Vdp) : v.nextLine.2.lineIrq = (v.lineIrq || v.raises) := by
  rw [raises_eq]
  exact congrArg (·.2.2) (nextLine_meter v)

/-! ### Programs -/

/-- The chips just before each of the next `n` lines starts. -/
def evesWithin : Nat → Vdp → List Vdp
  | 0, _ => []
  | n + 1, v => v :: evesWithin n v.nextLine.2

/-- The chips just before each line starts that starts during an access. -/
def evesOf (v : Vdp) : Access → List Vdp
  | .advance cycles =>
    evesWithin ((v.lineCycles + cycles) / cyclesPerLine)
      (v.atCycle ((v.lineCycles + cycles) % cyclesPerLine))
  | _ => []

/-- The chips just before each line starts that starts during some accesses. -/
def eves : Vdp → List Access → List Vdp
  | _, [] => []
  | v, a :: as => v.evesOf a ++ eves (v.access a) as

theorem evesWithin_enter : ∀ (n : Nat) (v : Vdp), (evesWithin n v).map enter = enters n v
  | 0, _ => rfl
  | n + 1, v => congrArg (v.enter :: ·) (evesWithin_enter n v.nextLine.2)

/-- The record of a program is that of the lines about to start. -/
theorem eves_enter : ∀ (as : List Access) (v : Vdp), (v.eves as).map enter = v.log as
  | [], _ => rfl
  | a :: as, v => by
      have hfirst : (v.evesOf a).map enter = v.startsOf a := by
        cases a with
        | advance cycles => exact evesWithin_enter _ _
        | _ => rfl
      rw [eves, List.map_append, hfirst, eves_enter as, log]

theorem nextLines_lineIrq : ∀ (n : Nat) (v : Vdp),
    (nextLines n v).2.lineIrq = (v.lineIrq || (evesWithin n v).any raises)
  | 0, v => (Bool.or_false v.lineIrq).symm
  | n + 1, v => by
      rw [nextLines_succ, nextLines_lineIrq n, nextLine_lineIrq, evesWithin, List.any_cons,
        Bool.or_assoc]

/-- Unless the status is read, the flag is up if it was, or if a line has raised it. -/
theorem foldl_lineIrq : ∀ {as : List Access}, (∀ a ∈ as, a ≠ .readStatus) → ∀ v : Vdp,
    (as.foldl access v).lineIrq = (v.lineIrq || (v.eves as).any raises)
  | [], _, v => (Bool.or_false v.lineIrq).symm
  | a :: as, h, v => by
      have hrest := foldl_lineIrq (fun x hx => h x (List.mem_cons_of_mem _ hx)) (v.access a)
      have hfirst : (v.access a).lineIrq = (v.lineIrq || (v.evesOf a).any raises) := by
        cases a with
        | readStatus => exact absurd rfl (h .readStatus (List.mem_cons_self ..))
        | advance cycles =>
            exact nextLines_lineIrq _ (v.atCycle ((v.lineCycles + cycles) % cyclesPerLine))
        | writeData b =>
            obtain ⟨vram, cram, latch, palette, heq⟩ := writeData_eq v b
            exact (congrArg lineIrq heq).trans (Bool.or_false v.lineIrq).symm
        | writeControl b =>
            obtain ⟨regs, notes, low, code, address, buffer, heq⟩ := writeControl_eq v b
            exact (congrArg lineIrq heq).trans (Bool.or_false v.lineIrq).symm
        | _ => exact (Bool.or_false v.lineIrq).symm
      rw [List.foldl_cons, hrest, hfirst, Bool.or_assoc, eves, List.any_append]

/-- What the next line needs to know of the one before. -/
def dial (v : Vdp) : Standard × Nat × UInt8 := (v.timing, v.line, v.lineCounter)

/-- Each chip has its line and counter from the start of the line before. -/
def Linked : Vdp → List Vdp → Prop
  | _, [] => True
  | v, u :: us => u.dial = v.dial ∧ Linked u.nextLine.2 us

theorem Linked.congr {v w : Vdp} {us : List Vdp} (hv : Linked v us) (h : w.dial = v.dial) :
    Linked w us := by
  cases us with
  | nil => trivial
  | cons u us => exact ⟨hv.1.trans h.symm, hv.2⟩

theorem linked_evesWithin {us : List Vdp} : ∀ (n : Nat) {v : Vdp}, Linked (nextLines n v).2 us →
    Linked v (evesWithin n v ++ us)
  | 0, _, h => h
  | n + 1, v, h => ⟨rfl, linked_evesWithin n (v := v.nextLine.2) h⟩

theorem writeData_dial (v : Vdp) (b : UInt8) : (v.writeData b).dial = v.dial := by
  obtain ⟨vram, cram, latch, palette, h⟩ := writeData_eq v b
  rw [h]
  rfl

theorem writeControl_dial (v : Vdp) (b : UInt8) : (v.writeControl b).dial = v.dial := by
  obtain ⟨regs, notes, low, code, address, buffer, h⟩ := writeControl_eq v b
  rw [h]
  rfl

/-- Nothing but lines that start concerns the next line. -/
theorem linked_eves : ∀ (as : List Access) (v : Vdp), Linked v (v.eves as)
  | [], _ => trivial
  | a :: as, v => by
      have hrest := linked_eves as (v.access a)
      -- The lines of a wait follow each other; a port leaves the line and the counter alone.
      cases a with
      | advance cycles =>
          have hlines := linked_evesWithin _
            (v := v.atCycle ((v.lineCycles + cycles) % cyclesPerLine)) hrest
          exact hlines.congr (w := v) rfl
      | writeData b => exact hrest.congr (writeData_dial v b).symm
      | writeControl b => exact hrest.congr (writeControl_dial v b).symm
      | _ => exact hrest.congr (w := v) rfl

theorem Linked.of_append : ∀ {pre : List Vdp} {v w : Vdp} {post : List Vdp},
    Linked v (pre ++ w :: post) → Linked w.nextLine.2 post
  | [], _, _, _, h => h.2
  | _ :: _, _, _, _, h => Linked.of_append h.2

/-! ### Fields -/

/-- The counter is in step with the lines: when its register is `n` and the picture has `h` lines,
it is at `n` below the picture, and one less with every line, but `n` again after each run of
`n + 1` lines. -/
structure InStep (n h : Nat) (v : Vdp) : Prop where
  line : v.line < v.timing.linesPerFrame
  counter : v.lineCounter.toNat = if v.line ≤ h then n - (v.line + 1) % (n + 1) else n

theorem InStep.congr {n h : Nat} {v w : Vdp} (hdial : w.dial = v.dial) (hv : InStep n h v) :
    InStep n h w := by
  simp only [dial, Prod.mk.injEq] at hdial
  obtain ⟨htiming, hline, hcounter⟩ := hdial
  constructor
  · rw [hline, htiming]
    exact hv.line
  · rw [hline, hcounter]
    exact hv.counter

theorem succ_mod (k n : Nat) :
    (k + 1) % (n + 1) = if k % (n + 1) = n then 0 else k % (n + 1) + 1 := by
  have hlt : k % (n + 1) < n + 1 := Nat.mod_lt k (Nat.succ_pos n)
  rw [← Nat.mod_add_mod]
  split
  · rename_i h
    rw [h, Nat.mod_self]
  · rename_i h
    exact Nat.mod_eq_of_lt (by omega)

/-- The counter is at zero at every `n + 1`st line. -/
theorem countdown_eq_zero (n k : Nat) : n - k % (n + 1) = 0 ↔ n + 1 ∣ k + 1 := by
  have hlt : k % (n + 1) < n + 1 := Nat.mod_lt k (Nat.succ_pos n)
  rw [Nat.dvd_iff_mod_eq_zero, succ_mod]
  split <;> omega

theorem countdown_succ {n k : Nat} (h : n - k % (n + 1) ≠ 0) :
    n - k % (n + 1) - 1 = n - (k + 1) % (n + 1) := by
  rw [succ_mod, if_neg (by omega)]
  omega

section

variable {n : UInt8} {h : Nat} {u : Vdp}

theorem nextLine_line_lt (u : Vdp) : u.nextLine.2.line < u.nextLine.2.timing.linesPerFrame := by
  rw [nextLine_line, nextLine_timing]
  exact Nat.mod_lt _ (by cases u.timing <;> decide)

/-- A line below the picture sets the counter. -/
theorem inStep_of_border (hreg : u.register 10 = n) (hheight : u.activeHeight = h)
    (hborder : h < u.enter.line) : InStep n.toNat h u.nextLine.2 where
  line := nextLine_line_lt u
  counter := by
    have hbelow : ¬ u.enter.line ≤ u.enter.height := by
      show ¬ u.enter.line ≤ u.activeHeight
      omega
    have hline : u.nextLine.2.line = u.enter.line := nextLine_line u
    rw [nextLine_lineCounter, if_neg fun hc => hbelow hc.1, hline, if_neg (by omega), hreg]

/-- What a line of the picture, or the one after it, finds the counter at. -/
theorem InStep.before (hu : InStep n.toNat h u) (hheight : u.activeHeight = h)
    (hline : u.enter.line ≤ h) : u.lineCounter.toNat = n.toNat - u.enter.line % (n.toNat + 1) := by
  have hshort : h + 1 < u.timing.linesPerFrame := by
    have htall := u.activeHeight_cases
    cases u.timing <;> simp only [Standard.linesPerFrame] <;> omega
  have hnext : u.enter.line = (u.line + 1) % u.timing.linesPerFrame := rfl
  have hlt := hu.line
  rw [hu.counter]
  -- The first line of a field comes after one below the picture, which has left the counter at `n`.
  by_cases hlast : u.line + 1 = u.timing.linesPerFrame
  · have hfirst : u.enter.line = 0 := by rw [hnext, hlast, Nat.mod_self]
    rw [if_neg (by omega), hfirst, Nat.zero_mod]
    rfl
  · have hsucc : u.enter.line = u.line + 1 := by rw [hnext, Nat.mod_eq_of_lt (by omega)]
    rw [if_pos (by omega), hsucc]

theorem InStep.raises (hu : InStep n.toNat h u) (hheight : u.activeHeight = h) :
    u.raises = decide (u.enter.line ≤ h ∧ n.toNat + 1 ∣ u.enter.line + 1) := by
  have htall : u.enter.height = h := hheight
  rw [raises_eq, htall]
  apply decide_eq_decide.2
  refine and_congr_right fun hline => ?_
  rw [← UInt8.toNat_inj, hu.before hheight hline]
  exact countdown_eq_zero n.toNat u.enter.line

/-- The counter stays in step. -/
theorem InStep.nextLine (hu : InStep n.toNat h u) (hreg : u.register 10 = n)
    (hheight : u.activeHeight = h) : InStep n.toNat h u.nextLine.2 := by
  rcases Nat.lt_or_ge h u.enter.line with hborder | hline
  · exact inStep_of_border hreg hheight hborder
  refine ⟨nextLine_line_lt u, ?_⟩
  have hbefore := hu.before hheight hline
  have hnext : u.nextLine.2.line = u.enter.line := nextLine_line u
  have htall : u.enter.height = h := hheight
  rw [nextLine_lineCounter, hnext, if_pos hline, htall]
  by_cases hzero : u.lineCounter = 0
  · rw [if_neg fun hc => hc.2 hzero, hreg]
    have hround : n.toNat + 1 ∣ u.enter.line + 1 := by
      rw [← countdown_eq_zero, ← hbefore, hzero]
      rfl
    rw [Nat.mod_eq_zero_of_dvd hround]
    rfl
  · have hpos : u.lineCounter.toNat ≠ 0 := fun hc => hzero (UInt8.toNat_inj.1 hc)
    have hone : (1 : UInt8) ≤ u.lineCounter := UInt8.le_iff_toNat_le.2 (Nat.pos_of_ne_zero hpos)
    rw [if_pos ⟨hline, hzero⟩, UInt8.toNat_sub_of_le _ _ hone]
    show u.lineCounter.toNat - 1 = _
    rw [hbefore] at hpos ⊢
    exact countdown_succ hpos

/-- In step once, a chip is in step before every later line. -/
theorem Linked.inStep : ∀ {us : List Vdp} {v : Vdp}, Linked v us → InStep n.toNat h v →
    (∀ u ∈ us, u.register 10 = n ∧ u.activeHeight = h) → ∀ u ∈ us, InStep n.toNat h u
  | [], _, _, _, _ => fun _ hu => absurd hu List.not_mem_nil
  | w :: us, v, hlinked, hv, hkept => by
      have hw : InStep n.toNat h w := hv.congr hlinked.1
      obtain ⟨hreg, hheight⟩ := hkept w (List.mem_cons_self ..)
      have hrest := hlinked.2.inStep (hw.nextLine hreg hheight) fun u hu =>
        hkept u (List.mem_cons_of_mem _ hu)
      intro u hu
      rcases List.mem_cons.1 hu with rfl | hu
      · exact hw
      · exact hrest u hu

end

/-- The lines that start after one of a program. -/
theorem eves_line {v w : Vdp} {as : List Access} {pre post : List Vdp}
    (h : v.eves as = pre ++ w :: post) :
    w.enter.line < v.timing.linesPerFrame ∧
      post.map (·.enter.line) = (List.range post.length).map fun k =>
        (w.enter.line + 1 + k) % v.timing.linesPerFrame := by
  let place (k : Nat) : Nat := (v.line + 1 + k) % v.timing.linesPerFrame
  have hlines : (pre ++ [w]).map (·.enter.line) ++ post.map (·.enter.line) =
      (List.range (pre.length + 1)).map place ++
        ((List.range post.length).map (pre.length + 1 + ·)).map place := by
    have hlog := lines_eq v as
    have hlength : (pre ++ w :: post).length = pre.length + 1 + post.length := by
      rw [List.length_append, List.length_cons]
      omega
    rw [← eves_enter, h, List.map_map, List.length_map, hlength] at hlog
    rw [← List.map_append, ← List.map_append, ← List.range_add, List.append_assoc]
    exact hlog
  obtain ⟨hbefore, hafter⟩ := List.append_inj hlines (by simp)
  rw [List.range_succ, List.map_append, List.map_append] at hbefore
  obtain ⟨-, hlast⟩ := List.append_inj hbefore (by simp)
  have hplace : w.enter.line = place pre.length := (List.cons.inj hlast).1
  refine ⟨hplace ▸ Nat.mod_lt _ (by cases v.timing <;> decide), hafter.trans ?_⟩
  rw [List.map_map]
  apply List.map_congr_left
  intro k _
  rw [hplace]
  show (v.line + 1 + (pre.length + 1 + k)) % _ = ((v.line + 1 + pre.length) % _ + 1 + k) % _
  rw [Nat.add_assoc (_ % _), Nat.mod_add_mod]
  congr 1
  omega

/-- The lines of the next field among those that start after a line. -/
theorem field_eq {line lines : Nat} (hline : line < lines) {us : List Vdp}
    (hus : us.map (·.enter.line) = (List.range us.length).map fun k => (line + 1 + k) % lines)
    (hlong : lines - 1 - line + lines ≤ us.length) :
    ((us.drop (lines - 1 - line)).take lines).map (·.enter.line) = List.range lines := by
  rw [List.map_take, List.map_drop, hus]
  apply List.ext_getElem
  · simp
    omega
  · intro k hk _
    rw [List.length_take] at hk
    rw [List.getElem_take, List.getElem_drop, List.getElem_map, List.getElem_range,
      List.getElem_range, show line + 1 + (lines - 1 - line + k) = k + lines by omega,
      Nat.add_mod_right, Nat.mod_eq_of_lt (by omega)]

theorem evesWithin_regs : ∀ (n : Nat) {v u : Vdp}, u ∈ evesWithin n v →
    u.regs = v.regs ∧ u.model = v.model
  | 0, _, _, hu => absurd hu List.not_mem_nil
  | n + 1, v, u, hu => by
      have hbare := bare_nextLine v
      have hregs : v.nextLine.2.regs = v.regs := by
        have h := congrArg Vdp.regs hbare
        exact h
      have hmodel : v.nextLine.2.model = v.model := by
        have h := congrArg Vdp.model hbare
        exact h
      rcases List.mem_cons.1 hu with rfl | hu
      · exact ⟨rfl, rfl⟩
      · obtain ⟨hr, hm⟩ := evesWithin_regs n hu
        exact ⟨hr.trans hregs, hm.trans hmodel⟩

/-- A program that leaves the control port alone leaves the registers alone. -/
theorem eves_regs : ∀ (as : List Access), (∀ a ∈ as, ∀ b, a ≠ .writeControl b) → ∀ {v u : Vdp},
    u ∈ v.eves as → u.regs = v.regs ∧ u.model = v.model
  | [], _, _, _, hu => absurd hu List.not_mem_nil
  | a :: as, has, v, u, hu => by
      have hstep : (v.access a).regs = v.regs ∧ (v.access a).model = v.model := by
        cases a with
        | writeControl b => exact absurd rfl (has _ (List.mem_cons_self ..) b)
        | writeData b =>
            obtain ⟨vram, cram, latch, palette, h⟩ := writeData_eq v b
            show (v.writeData b).regs = v.regs ∧ (v.writeData b).model = v.model
            rw [h]
            exact ⟨rfl, rfl⟩
        | advance cycles => exact ⟨advance_regs v cycles, advance_model v cycles⟩
        | _ => exact ⟨rfl, rfl⟩
      rcases List.mem_append.1 hu with hu | hu
      · cases a with
        | advance cycles =>
            exact evesWithin_regs _ (v := v.atCycle ((v.lineCycles + cycles) % cyclesPerLine)) hu
        | _ => exact absurd hu List.not_mem_nil
      · obtain ⟨hregs, hmodel⟩ := eves_regs as (fun x hx => has x (List.mem_cons_of_mem _ hx)) hu
        exact ⟨hregs.trans hstep.1, hmodel.trans hstep.2⟩

/-- **The schedule of the line interrupt.**  From a line below the picture on, while register 10
is `n` and the picture has `h` lines whenever a line starts, a line raises the interrupt iff it is
at most line `h` and its number, counted from 1, is divisible by `n + 1`.  So the next field, when
all of it has passed, has had the interrupt raised by just these lines. -/
theorem line_interrupts (v : Vdp) (as : List Access) (pre post : List Vdp) (w : Vdp) (n : UInt8)
    (h : Nat) (hruns : v.eves as = pre ++ w :: post) (hborder : h < w.enter.line)
    (hkept : ∀ u ∈ w :: post, u.register 10 = n ∧ u.activeHeight = h) :
    (∀ u ∈ w :: post,
        u.raises = decide (u.enter.line ≤ h ∧ n.toNat + 1 ∣ u.enter.line + 1) ∧
          u.nextLine.2.lineIrq = (u.lineIrq || u.raises)) ∧
      (v.timing.linesPerFrame - 1 - w.enter.line + v.timing.linesPerFrame ≤ post.length →
        let field := (post.drop (v.timing.linesPerFrame - 1 - w.enter.line)).take
          v.timing.linesPerFrame
        field.map (·.enter.line) = List.range v.timing.linesPerFrame ∧
          (field.filter raises).map (·.enter.line) =
            (List.range v.timing.linesPerFrame).filter fun line =>
              decide (line ≤ h ∧ n.toNat + 1 ∣ line + 1)) := by
  obtain ⟨hwreg, hwheight⟩ := hkept w (List.mem_cons_self ..)
  have hlinked : Linked w.nextLine.2 post := Linked.of_append (hruns ▸ linked_eves as v)
  have hstep := hlinked.inStep (inStep_of_border hwreg hwheight hborder) fun u hu =>
    hkept u (List.mem_cons_of_mem _ hu)
  have hraised : ∀ u ∈ w :: post,
      u.raises = decide (u.enter.line ≤ h ∧ n.toNat + 1 ∣ u.enter.line + 1) := by
    intro u hu
    rcases List.mem_cons.1 hu with rfl | hpost
    · have hbelow : ¬ u.enter.line ≤ h := by omega
      have hheight : u.enter.height = h := hwheight
      rw [raises_eq, hheight]
      simp [hbelow]
    · exact (hstep u hpost).raises (hkept u hu).2
  refine ⟨fun u hu => ⟨hraised u hu, nextLine_lineIrq u⟩, fun hlong => ?_⟩
  obtain ⟨hline, hpost⟩ := eves_line hruns
  have hfield := field_eq hline hpost hlong
  refine ⟨hfield, ?_⟩
  rw [← hfield, List.filter_map]
  congr 1
  apply List.filter_congr
  intro u hu
  exact hraised u (List.mem_cons_of_mem _ (List.mem_of_mem_drop (List.mem_of_mem_take hu)))

theorem length_eves_status (v : Vdp) (a b : Nat) :
    (v.eves [.advance a, .readStatus, .advance b]).length =
      (v.lineCycles + a) / cyclesPerLine +
        ((v.lineCycles + a) % cyclesPerLine + b) / cyclesPerLine := by
  have hcycles : (v.advance a).2.readStatus.2.lineCycles = (v.lineCycles + a) % cyclesPerLine :=
    advance_lineCycles v a
  rw [← List.length_map, eves_enter, log, log, log, log, List.length_append, List.length_append,
    List.append_nil]
  show (v.starts a).length + (0 + ((v.advance a).2.readStatus.2.starts b).length) = _
  rw [length_starts, length_starts, hcycles, Nat.zero_add]

/-- Every tenth line, with the status read in the middle of the field. -/
theorem line_interrupts_every_tenth :
    let v := ((new .master .ntsc).writeControl 9).writeControl 0x8A
    let starting := v.eves [.advance 40000, .readStatus, .advance 40000]
    (((starting.drop 69).take 262).filter raises).map (·.enter.line) =
      [9, 19, 29, 39, 49, 59, 69, 79, 89, 99, 109, 119, 129, 139, 149, 159, 169, 179, 189] := by
  intro v
  obtain ⟨hregs, -, hmodel⟩ :=
    writeControl_pair (new .master .ntsc) rfl 9 0x8A (by decide) (by decide)
  have hbeam : v.beam = (.ntsc, 192, 0) := by
    show (((new .master .ntsc).writeControl 9).writeControl 0x8A).beam = _
    rw [writeControl_beam, writeControl_beam]
    rfl
  have hreg : v.register 10 = 9 := by
    rw [register, hregs]
    decide
  have hheight : v.activeHeight = 192 := by
    have h := activeHeight_congr (v := v)
      (w := { new .master .ntsc with regs := #v[0, 0, 0, 0, 0, 0, 0, 0, 0, 0, 9, 0, 0, 0, 0, 0] })
    rw [h hmodel (hregs.trans (by decide))]
    decide
  clear_value v
  simp only [beam, Prod.mk.injEq] at hbeam
  obtain ⟨htiming, hline, hcycles⟩ := hbeam
  have hlength := length_eves_status v 40000 40000
  have hlinked := linked_eves [.advance 40000, .readStatus, .advance 40000] v
  have hsteady (u : Vdp) := eves_regs [.advance 40000, .readStatus, .advance 40000] (by simp)
    (v := v) (u := u)
  have hschedule := line_interrupts v [.advance 40000, .readStatus, .advance 40000] []
  rw [hcycles] at hlength
  rw [htiming] at hschedule
  generalize v.eves [.advance 40000, .readStatus, .advance 40000] = starting at *
  intro _
  cases starting with
  | nil => cases hlength
  | cons w post =>
      have hkept : ∀ u ∈ w :: post, u.register 10 = 9 ∧ u.activeHeight = 192 := by
        intro u hu
        obtain ⟨hr, hm⟩ := hsteady u hu
        refine ⟨?_, (activeHeight_congr hm hr).trans hheight⟩
        rw [register, hr]
        exact hreg
      have hfirst : w.enter.line = 193 := by
        have hdial := hlinked.1
        simp only [dial, Prod.mk.injEq, htiming, hline] at hdial
        show (w.line + 1) % w.timing.linesPerFrame = 193
        rw [hdial.1, hdial.2.1]
        rfl
      obtain ⟨-, hfield⟩ := hschedule post w 9 192 rfl (by omega) hkept
      rw [hfirst] at hfield
      refine (hfield ?_).2.trans (by decide +kernel)
      rw [List.length_cons] at hlength
      simp only [Standard.linesPerFrame]
      unfold cyclesPerLine at hlength
      omega

end Vdp

end MasterSystem.Video
