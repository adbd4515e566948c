import MasterSystem.Proofs.Video.Pictures

/-! # Time adds up

Only what is done at the ports tells one wait of a program from two.

* **Lines.**  The beam's place in its line is of no concern to the lines that start
  (`nextLines_atCycle`), and lines that start in a row can be split anywhere (`nextLines_add`).
* **Waiting.**  `advance` goes from line to line (`advance_of_lt`, `advance_of_le`).  It adds up,
  and so does the record of the lines started (`advance_split`, `starts_split`).
* **Programs.**  What a program is told, the lines that start and the chip that it leaves are the
  same however its waiting is cut into pieces (`outcome_fuse`, `advance_add`). -/

namespace MasterSystem.Video

namespace Vdp

/-! ### The place in a line -/

/-- The chip with the beam at another place in its line. -/
def atCycle (v : Vdp) (c : Nat) : Vdp := { v with lineCycles := c }

section

variable (v : Vdp) (c : Nat)

theorem atCycle_lineCycles : (v.atCycle c).lineCycles = c := rfl

theorem senseLight_atCycle (line : Nat) (row : Array Color) :
    (v.atCycle c).senseLight line row = (v.senseLight line row).atCycle c := by
  rw [senseLight_eq, senseLight_eq]
  rfl

theorem renderLine_atCycle (line : Nat) :
    (v.atCycle c).renderLine line = (v.renderLine line).atCycle c := by
  have hpaint : (v.atCycle c).paint line = ((v.paint line).1, (v.paint line).2.atCycle c) := by
    rw [paint_congr (v := v) rfl, v.paint_status line]
    rfl
  rw [renderLine_eq, renderLine_eq, hpaint]
  dsimp only
  rw [senseLight_atCycle]
  rfl

theorem countLine_atCycle : (v.atCycle c).countLine = v.countLine.atCycle c := by
  rw [countLine_eq, countLine_eq]
  rfl

theorem poised_atCycle : (v.atCycle c).poised = v.poised.atCycle c := by
  rw [poised_eq, poised_eq]
  rfl

theorem traced_atCycle : (v.atCycle c).traced = v.traced.atCycle c := by
  have hline : (v.atCycle c).line = v.line := rfl
  have hheight : (v.atCycle c).activeHeight = v.activeHeight := rfl
  rw [traced_eq, traced_eq, hline, hheight, poised_atCycle]
  have hdraw : (if v.line < v.activeHeight then (v.poised.atCycle c).renderLine v.line
      else v.poised.atCycle c) =
      (if v.line < v.activeHeight then v.poised.renderLine v.line else v.poised).atCycle c := by
    split
    · exact renderLine_atCycle v.poised c v.line
    · rfl
  dsimp only
  rw [hdraw]
  generalize (if v.line < v.activeHeight then v.poised.renderLine v.line else v.poised) = w
  split
  · exact countLine_atCycle w c
  · rfl

theorem finishField_atCycle (height : Nat) :
    (v.atCycle c).finishField height = (v.finishField height).atCycle c := by
  rw [finishField_eq, finishField_eq]
  rfl

theorem startLine_atCycle :
    (v.atCycle c).startLine = (v.startLine.1, v.startLine.2.atCycle c) := by
  have hline : (v.atCycle c).line = v.line := rfl
  have hheight : (v.atCycle c).activeHeight = v.activeHeight := rfl
  have hfinish := finishField_atCycle
    ({ v.traced with status := v.traced.status ||| Status.vblank } : Vdp) c v.activeHeight
  rw [startLine_eq, startLine_eq, hline, hheight, traced_atCycle]
  split
  · exact congrArg (Prod.mk true) hfinish
  · rfl

/-- A line starts in the same way wherever the beam is in the line before. -/
theorem nextLine_atCycle : (v.atCycle c).nextLine = (v.nextLine.1, v.nextLine.2.atCycle c) :=
  startLine_atCycle { v with line := (v.line + 1) % v.timing.linesPerFrame } c

theorem enter_atCycle : (v.atCycle c).enter = v.enter := by
  have hblank : (v.atCycle c).nextLine.1 = v.nextLine.1 := by rw [nextLine_atCycle]
  unfold enter
  rw [hblank]
  rfl

end

/-! ### Lines in a row -/

theorem nextLines_succ (n : Nat) (v : Vdp) :
    nextLines (n + 1) v =
      (v.nextLine.1 || (nextLines n v.nextLine.2).1, (nextLines n v.nextLine.2).2) := rfl

theorem nextLines_atCycle (c : Nat) : ∀ (n : Nat) (v : Vdp),
    nextLines n (v.atCycle c) = ((nextLines n v).1, (nextLines n v).2.atCycle c)
  | 0, _ => rfl
  | n + 1, v => by
      rw [nextLines_succ, nextLines_succ, nextLine_atCycle, nextLines_atCycle c n]

theorem enters_atCycle (c : Nat) : ∀ (n : Nat) (v : Vdp), enters n (v.atCycle c) = enters n v
  | 0, _ => rfl
  | n + 1, v => by
      unfold enters
      rw [enter_atCycle, nextLine_atCycle, enters_atCycle c n]

theorem nextLines_add (n : Nat) : ∀ (m : Nat) (v : Vdp),
    nextLines (m + n) v =
      ((nextLines m v).1 || (nextLines n (nextLines m v).2).1,
        (nextLines n (nextLines m v).2).2)
  | 0, v => by
      rw [Nat.zero_add]
      rfl
  | m + 1, v => by
      rw [Nat.succ_add, nextLines_succ, nextLines_succ, nextLines_add n m, Bool.or_assoc]

theorem enters_add (n : Nat) : ∀ (m : Nat) (v : Vdp),
    enters (m + n) v = enters m v ++ enters n (nextLines m v).2
  | 0, v => by
      rw [Nat.zero_add]
      rfl
  | m + 1, v => by
      rw [Nat.succ_add, nextLines_succ, enters, enters, enters_add n m]
      rfl

/-! ### Waiting -/

theorem advance_eq (v : Vdp) (cycles : Nat) :
    v.advance cycles =
      ((nextLines ((v.lineCycles + cycles) / cyclesPerLine) v).1,
        (nextLines ((v.lineCycles + cycles) / cyclesPerLine) v).2.atCycle
          ((v.lineCycles + cycles) % cyclesPerLine)) :=
  nextLines_atCycle ((v.lineCycles + cycles) % cyclesPerLine) _ v

theorem starts_eq (v : Vdp) (cycles : Nat) :
    v.starts cycles = enters ((v.lineCycles + cycles) / cyclesPerLine) v :=
  enters_atCycle ((v.lineCycles + cycles) % cyclesPerLine) _ v

/-- A wait that does not reach the end of the line starts nothing. -/
theorem advance_of_lt {v : Vdp} {cycles : Nat} (h : v.lineCycles + cycles < cyclesPerLine) :
    v.advance cycles = (false, v.atCycle (v.lineCycles + cycles)) := by
  rw [advance_eq, Nat.div_eq_of_lt h, Nat.mod_eq_of_lt h]
  rfl

/-- Any other starts the next line, and the rest of it passes from there. -/
theorem advance_of_le {v : Vdp} {cycles : Nat} (h : cyclesPerLine ≤ v.lineCycles + cycles) :
    v.advance cycles =
      (v.nextLine.1 ||
          ((v.nextLine.2.atCycle 0).advance (v.lineCycles + cycles - cyclesPerLine)).1,
        ((v.nextLine.2.atCycle 0).advance (v.lineCycles + cycles - cyclesPerLine)).2) := by
  have hlines : (v.lineCycles + cycles) / cyclesPerLine =
      (v.lineCycles + cycles - cyclesPerLine) / cyclesPerLine + 1 :=
    Nat.div_eq_sub_div (by decide) h
  have hplace : (v.lineCycles + cycles) % cyclesPerLine =
      (v.lineCycles + cycles - cyclesPerLine) % cyclesPerLine := Nat.mod_eq_sub_mod h
  rw [v.advance_eq, hlines, hplace, nextLines_succ, (v.nextLine.2.atCycle 0).advance_eq,
    atCycle_lineCycles, Nat.zero_add, nextLines_atCycle]
  rfl

/-- The whole lines in a wait, and what is left of it, when it is cut in two. -/
theorem cut_wait (start a b : Nat) :
    (start + (a + b)) / cyclesPerLine =
        (start + a) / cyclesPerLine + ((start + a) % cyclesPerLine + b) / cyclesPerLine ∧
      (start + (a + b)) % cyclesPerLine = ((start + a) % cyclesPerLine + b) % cyclesPerLine := by
  unfold cyclesPerLine
  omega

/-- Waiting once is waiting twice. -/
theorem advance_split (v : Vdp) (a b : Nat) :
    v.advance (a + b) =
      ((v.advance a).1 || ((v.advance a).2.advance b).1, ((v.advance a).2.advance b).2) := by
  obtain ⟨hlines, hplace⟩ := cut_wait v.lineCycles a b
  rw [(v.advance a).2.advance_eq b, advance_lineCycles, v.advance_eq (a + b), hlines, hplace,
    nextLines_add, v.advance_eq a, nextLines_atCycle]
  rfl

/-- The lines of a wait are those of its first part and those of its second part. -/
theorem starts_split (v : Vdp) (a b : Nat) :
    v.starts (a + b) = v.starts a ++ (v.advance a).2.starts b := by
  rw [v.starts_eq, v.starts_eq, starts_eq, advance_lineCycles, v.advance_eq a, enters_atCycle,
    (cut_wait v.lineCycles a b).1, enters_add]

/-! ### Programs -/

/-- What a program is told by an access: the byte that it reads. -/
def told (v : Vdp) : Access → Option UInt8
  | .readData => some v.readData.1
  | .readStatus => some v.readStatus.1
  | _ => none

/-- Everything that a program is told. -/
def answers : Vdp → List Access → List UInt8
  | _, [] => []
  | v, a :: as => (v.told a).toList ++ answers (v.access a) as

/-- A wait of some T-states, if there is one. -/
def wait : Option Nat → List Access
  | none => []
  | some cycles => [.advance cycles]

/-- The accesses after a wait that may have begun, with all waiting between two others in one
piece. -/
def fuse : Option Nat → List Access → List Access
  | begun, [] => wait begun
  | begun, .advance cycles :: as => fuse (some (begun.getD 0 + cycles)) as
  | begun, a :: as => wait begun ++ a :: fuse none as

/-- What becomes of the chip in a program: how it ends, the lines that start and the bytes read. -/
def outcome (v : Vdp) (as : List Access) : Vdp × List LineStart × List UInt8 :=
  (as.foldl access v, v.log as, v.answers as)

theorem outcome_cons (v : Vdp) (a : Access) (as : List Access) :
    v.outcome (a :: as) =
      (((v.access a).outcome as).1, v.startsOf a ++ ((v.access a).outcome as).2.1,
        (v.told a).toList ++ ((v.access a).outcome as).2.2) := rfl

theorem outcome_congr {as bs : List Access} (h : ∀ w : Vdp, w.outcome as = w.outcome bs) :
    ∀ (pre : List Access) (v : Vdp), v.outcome (pre ++ as) = v.outcome (pre ++ bs)
  | [], v => h v
  | a :: pre, v => by
      rw [List.cons_append, List.cons_append, outcome_cons, outcome_cons,
        outcome_congr h pre (v.access a)]

theorem outcome_wait_wait (v : Vdp) (a b : Nat) (as : List Access) :
    v.outcome (.advance a :: .advance b :: as) = v.outcome (.advance (a + b) :: as) := by
  have hchip : v.access (.advance (a + b)) = (v.access (.advance a)).access (.advance b) := by
    have hsplit := congrArg (·.2) (advance_split v a b)
    exact hsplit
  have hlines : v.startsOf (.advance (a + b)) =
      v.startsOf (.advance a) ++ (v.access (.advance a)).startsOf (.advance b) :=
    starts_split v a b
  rw [outcome_cons, outcome_cons, outcome_cons, hchip, hlines, List.append_assoc]
  rfl

/-- The waits between two other accesses can be made one. -/
theorem outcome_fuse : ∀ (as : List Access) (begun : Option Nat) (v : Vdp),
    v.outcome (fuse begun as) = v.outcome (wait begun ++ as)
  | [], begun, v => by rw [fuse, List.append_nil]
  | a :: as, begun, v => by
      have hrest : ∀ w : Vdp, w.outcome (a :: fuse none as) = w.outcome (a :: as) :=
        outcome_congr (outcome_fuse as none) [a]
      cases a with
      -- Another wait is added to the one that has begun; anything else ends that.
      | advance cycles =>
          rw [fuse, outcome_fuse as]
          cases begun with
          | none =>
              rw [Option.getD_none, Nat.zero_add]
              rfl
          | some c => exact (outcome_wait_wait v c cycles as).symm
      | _ => exact outcome_congr hrest (wait begun) v

/-- **Time is additive.**  Waiting for `a` and then for `b` T-states leaves the chip that waiting
for `a + b` leaves, and one of both waits reports the vertical blank iff the long one does.  Hence a
program is told the same, starts the same lines and leaves the same chip when a wait of it is cut in
two. -/
theorem advance_add (v : Vdp) (a b : Nat) (before after : List Access) :
    v.advance (a + b) =
        ((v.advance a).1 || ((v.advance a).2.advance b).1, ((v.advance a).2.advance b).2) ∧
      v.outcome (before ++ .advance (a + b) :: after) =
        v.outcome (before ++ .advance a :: .advance b :: after) :=
  ⟨advance_split v a b,
    outcome_congr (fun w => (outcome_wait_wait w a b after).symm) before v⟩

end Vdp

end MasterSystem.Video
