import MasterSystem.Proofs.Video.Pictures
import MasterSystem.Proofs.Video.Representation

/-! # When the glasses matter

Which eye the glasses show, and for which eye the shutter is open, is looked at when a field starts
and at no other time.

* **Independence.**  `withViewer` replaces the glasses, the shutter and the verdict on the field.
  Every port commutes with it, and so does every line but the first of a field, where the verdict
  is made, and the one after the picture, where it is carried out (`nextLine_withViewer`).
* **Two programs.**  Programs that differ in what they do to the glasses and the shutter run in
  parallel (`Parallel.step`, `Parallel.views`), and start the same lines (`entered_line`).
* **Fields.**  Hence both see the same until the next field has started, and a field that was
  rejected leaves the picture shown (`glasses_wait`). -/

namespace MasterSystem.Video

namespace Vdp

/-! ### Independence -/

/-- The chip with other glasses, another shutter and another verdict on the field being drawn. -/
def withViewer (v : Vdp) (glasses : Glasses) (right accepted : Bool) : Vdp :=
  { v with glasses := glasses, shutterRight := right, fieldAccepted := accepted }

section

variable (v : Vdp) (g : Glasses) (r a : Bool)

theorem paint_withViewer (line : Nat) :
    (v.withViewer g r a).paint line =
      ((v.paint line).1, (v.paint line).2.withViewer g r a) := by
  rw [paint_congr (v := v) rfl, v.paint_status line]
  rfl

theorem senseLight_withViewer (line : Nat) (row : Array Color) :
    (v.withViewer g r a).senseLight line row = (v.senseLight line row).withViewer g r a := by
  rw [senseLight_eq, senseLight_eq]
  rfl

theorem renderLine_withViewer (line : Nat) :
    (v.withViewer g r a).renderLine line = (v.renderLine line).withViewer g r a := by
  rw [renderLine_eq, renderLine_eq, paint_withViewer]
  dsimp only
  rw [senseLight_withViewer]
  rfl

theorem countLine_withViewer :
    (v.withViewer g r a).countLine = v.countLine.withViewer g r a := by
  rw [countLine_eq, countLine_eq]
  rfl

/-- The verdict on a field is made when its first line starts. -/
theorem poised_withViewer : (v.withViewer g r a).poised =
    v.poised.withViewer g r (if v.line = 0 then g.accepts r else a) := by
  rw [poised_eq, poised_eq]
  rfl

theorem traced_withViewer : (v.withViewer g r a).traced =
    v.traced.withViewer g r (if v.line = 0 then g.accepts r else a) := by
  have hline : (v.withViewer g r a).line = v.line := rfl
  have hheight : (v.withViewer g r a).activeHeight = v.activeHeight := rfl
  rw [traced_eq, traced_eq, hline, hheight, poised_withViewer]
  generalize (if v.line = 0 then g.accepts r else a) = a'
  have hdraw : (if v.line < v.activeHeight then (v.poised.withViewer g r a').renderLine v.line
      else v.poised.withViewer g r a') =
      (if v.line < v.activeHeight then v.poised.renderLine v.line else v.poised).withViewer
        g r a' := by
    split
    · exact renderLine_withViewer v.poised g r a' v.line
    · rfl
  dsimp only
  rw [hdraw]
  generalize (if v.line < v.activeHeight then v.poised.renderLine v.line else v.poised) = w
  split
  · exact countLine_withViewer w g r a'
  · rfl

theorem finishField_withViewer (height : Nat) :
    (v.withViewer g r v.fieldAccepted).finishField height =
      (v.finishField height).withViewer g r v.fieldAccepted := by
  rw [finishField_eq, finishField_eq]
  rfl

/-- A line does not depend on the glasses and the shutter, and on the verdict only if it ends the
picture. -/
theorem startLine_withViewer (h : v.line = v.activeHeight → a = v.fieldAccepted) :
    (v.withViewer g r a).startLine =
      (v.startLine.1, v.startLine.2.withViewer g r (if v.line = 0 then g.accepts r else a)) := by
  have hline : (v.withViewer g r a).line = v.line := rfl
  have hheight : (v.withViewer g r a).activeHeight = v.activeHeight := rfl
  rw [startLine_eq, startLine_eq, hline, hheight, traced_withViewer]
  by_cases he : v.line = v.activeHeight
  · have hpos : v.line ≠ 0 := by
      have := v.activeHeight_cases
      omega
    have haccepted := traced_fieldAccepted v he
    have hfinish := finishField_withViewer
      ({ v.traced with status := v.traced.status ||| Status.vblank } : Vdp) g r v.activeHeight
    rw [if_pos he, if_pos he, if_neg hpos, h he, ← haccepted]
    exact congrArg (Prod.mk true) hfinish
  · rw [if_neg he, if_neg he]

theorem nextLine_withViewer
    (h : (v.line + 1) % v.timing.linesPerFrame = v.activeHeight → a = v.fieldAccepted) :
    (v.withViewer g r a).nextLine = (v.nextLine.1, v.nextLine.2.withViewer g r
      (if (v.line + 1) % v.timing.linesPerFrame = 0 then g.accepts r else a)) :=
  startLine_withViewer { v with line := (v.line + 1) % v.timing.linesPerFrame } g r a h

/-- The verdict stays until the next field starts. -/
theorem nextLine_fieldAccepted (h : (v.line + 1) % v.timing.linesPerFrame ≠ 0) :
    v.nextLine.2.fieldAccepted = v.fieldAccepted := by
  have hself := congrArg (fun p => p.2.fieldAccepted)
    (v.nextLine_withViewer v.glasses v.shutterRight v.fieldAccepted fun _ => rfl)
  rw [if_neg h] at hself
  exact hself

/-- A field that is not to be shown leaves the picture shown. -/
theorem nextLine_display (h : v.fieldAccepted = false) : v.nextLine.2.display = v.display := by
  refine (startLine_display _).trans ?_
  unfold shown
  rw [if_neg fun hc => by simp [h] at hc]

/-! ### Ports -/

theorem writeData_withViewer (b : UInt8) :
    (v.withViewer g r a).writeData b = (v.writeData b).withViewer g r a := by
  have hcram (w : Vdp) : (w.withViewer g r a).writeCram b = (w.writeCram b).withViewer g r a := by
    have hmodel : (w.withViewer g r a).model = w.model := rfl
    have haddress : (w.withViewer g r a).address = w.address := rfl
    unfold writeCram
    rw [hmodel, haddress]
    split
    · dsimp only
      split <;> rfl
    · rfl
  have hcode : (v.withViewer g r a).code = v.code := rfl
  have hmodel : (v.withViewer g r a).model = v.model := rfl
  unfold writeData
  rw [hcode, hmodel, hcram]
  split <;> rfl

theorem writeRegister_withViewer (i b : UInt8) :
    (v.withViewer g r a).writeRegister i b = (v.writeRegister i b).withViewer g r a := by
  have hnote (w : Vdp) (before : Nat) :
      (if (w.withViewer g r a).activeHeight = before then w.withViewer g r a
        else { w.withViewer g r a with
          notes := w.notes.push (.activeHeight before w.activeHeight) }) =
      (if w.activeHeight = before then w
        else { w with
          notes := w.notes.push (.activeHeight before w.activeHeight) }).withViewer g r a := by
    have hheight : (w.withViewer g r a).activeHeight = w.activeHeight := rfl
    rw [hheight]
    split <;> rfl
  unfold writeRegister
  dsimp only
  split
  · rfl
  · exact hnote { v with
      notes := v.notes.push (.videoRegister i b v.line)
      regs := v.regs.setIfInBounds i.toNat b } _

theorem writeControl_withViewer (b : UInt8) :
    (v.withViewer g r a).writeControl b = (v.writeControl b).withViewer g r a := by
  have hlow : (v.withViewer g r a).controlLow = v.controlLow := rfl
  unfold writeControl
  rw [hlow]
  split
  · rfl
  · dsimp only
    split
    · rfl
    · split
      · exact writeRegister_withViewer ({ v with
          controlLow := none, code := b >>> 6, address := Word.ofBytes (b &&& 0x3F) _ } : Vdp)
          g r a _ _
      · rfl

end

/-! ### Two programs -/

/-- What shows of the chip. -/
structure View where
  display : Frame
  status : UInt8
  line : Nat
  lineCounter : UInt8
  irq : Bool

/-- What shows of the chip now. -/
def view (v : Vdp) : View := ⟨v.display, v.status, v.line, v.lineCounter, v.irq⟩

/-- Whether an operation is about the glasses or their shutter. -/
def Operation.concernsViewer : Operation → Bool
  | .setGlasses _ | .access (.setShutter _) => true
  | _ => false

/-- What shows of the chip before each operation that is not about the glasses, and in the end. -/
def views (v : Vdp) : List Operation → List View
  | [] => [v.view]
  | o :: os =>
    if o.concernsViewer then (v.operate o).views os else v.view :: (v.operate o).views os

/-- The lines that an operation starts. -/
def startsDuring (v : Vdp) : Operation → List LineStart
  | .access a => v.startsOf a
  | _ => []

/-- The lines that some operations start. -/
def entered (v : Vdp) : List Operation → List LineStart
  | [] => []
  | o :: os => v.startsDuring o ++ (v.operate o).entered os

/-- Two chips that are drawing the same field. -/
def SameField (v w : Vdp) : Prop := ∃ g r, w = v.withViewer g r v.fieldAccepted

/-- Two chips of which the same shows. -/
def SameView (v w : Vdp) : Prop := ∃ g r a, w = v.withViewer g r a

theorem SameField.sameView {v w : Vdp} (h : SameField v w) : SameView v w := by
  obtain ⟨g, r, rfl⟩ := h
  exact ⟨g, r, _, rfl⟩

theorem SameView.view {v w : Vdp} (h : SameView v w) : w.view = v.view := by
  obtain ⟨g, r, a, rfl⟩ := h
  rfl

/-- What is done to the glasses and the shutter shows nowhere. -/
theorem view_of_concernsViewer {o : Operation} (h : o.concernsViewer = true) (v : Vdp) :
    (v.operate o).view = v.view := by
  match o, h with
  | .setGlasses _, _ => rfl
  | .access (.setShutter _), _ => rfl

theorem SameField.nextLine {v w : Vdp} (h : SameField v w)
    (hline : (v.line + 1) % v.timing.linesPerFrame ≠ 0) :
    SameField v.nextLine.2 w.nextLine.2 := by
  obtain ⟨g, r, rfl⟩ := h
  refine ⟨g, r, ?_⟩
  rw [nextLine_withViewer v g r _ fun _ => rfl, if_neg hline, nextLine_fieldAccepted v hline]

theorem SameField.nextLines (n : Nat) {v w : Vdp} (h : SameField v w)
    (hlines : ∀ s ∈ enters n v, s.line ≠ 0) : SameField (nextLines n v).2 (nextLines n w).2 := by
  induction n generalizing v w with
  | zero => exact h
  | succ n ih =>
      exact ih (h.nextLine (hlines v.enter (List.mem_cons_self ..)))
        fun s hs => hlines s (List.mem_cons_of_mem _ hs)

/-- The line that starts the next field shows the same as well. -/
theorem SameField.sameView_nextLines (n : Nat) {v w : Vdp} (h : SameField v w)
    (hlines : ∀ s ∈ (enters n v).dropLast, s.line ≠ 0) :
    SameView (Vdp.nextLines n v).2 (Vdp.nextLines n w).2 := by
  induction n generalizing v w with
  | zero => exact h.sameView
  | succ n ih =>
      cases n with
      | zero =>
          -- The last line may be the first of the next field, whose verdicts may differ.
          obtain ⟨g, r, rfl⟩ := h
          exact ⟨g, r, _, congrArg Prod.snd (nextLine_withViewer v g r _ fun _ => rfl)⟩
      | succ n =>
          exact ih (h.nextLine (hlines v.enter (List.mem_cons_self ..)))
            fun s hs => hlines s (List.mem_cons_of_mem _ hs)

/-- The cases of a property of all but the last entry of a list in two parts. -/
theorem forall_mem_dropLast_append {α : Type} {P : α → Prop} {xs ys : List α}
    (h : ∀ x ∈ (xs ++ ys).dropLast, P x) :
    ((∀ x ∈ xs, P x) ∧ ∀ y ∈ ys.dropLast, P y) ∨ (∀ x ∈ xs.dropLast, P x) ∧ ys = [] := by
  by_cases hys : ys = []
  · subst hys
    rw [List.append_nil] at h
    exact .inr ⟨h, rfl⟩
  · rw [List.dropLast_append_of_ne_nil hys] at h
    exact .inl ⟨fun x hx => h x (List.mem_append_left _ hx),
      fun y hy => h y (List.mem_append_right _ hy)⟩

/-- Two chips of which the same shows as long as at most the first line of one more field starts
during some operations. -/
def Parallel (v w : Vdp) (os : List Operation) : Prop :=
  (SameField v w ∧ ∀ s ∈ (v.entered os).dropLast, s.line ≠ 0) ∨ SameView v w ∧ v.entered os = []

theorem Parallel.sameView {v w : Vdp} {os : List Operation} (h : Parallel v w os) :
    SameView v w := by
  rcases h with ⟨h, -⟩ | ⟨h, -⟩
  · exact h.sameView
  · exact h

/-- A step of the first program that is about the glasses. -/
theorem Parallel.viewer {v w : Vdp} {o : Operation} {os : List Operation}
    (h : Parallel v w (o :: os)) (ho : o.concernsViewer = true) :
    Parallel (v.operate o) w os := by
  match o, ho with
  | .setGlasses _, _ =>
      rcases h with ⟨⟨g, r, rfl⟩, hlines⟩ | ⟨⟨g, r, a, rfl⟩, hlines⟩
      · exact .inl ⟨⟨g, r, rfl⟩, hlines⟩
      · exact .inr ⟨⟨g, r, a, rfl⟩, hlines⟩
  | .access (.setShutter _), _ =>
      rcases h with ⟨⟨g, r, rfl⟩, hlines⟩ | ⟨⟨g, r, a, rfl⟩, hlines⟩
      · exact .inl ⟨⟨g, r, rfl⟩, hlines⟩
      · exact .inr ⟨⟨g, r, a, rfl⟩, hlines⟩

theorem SameField.advance {v w : Vdp} (h : SameField v w) (cycles : Nat)
    (hlines : ∀ s ∈ v.starts cycles, s.line ≠ 0) :
    SameField (v.advance cycles).2 (w.advance cycles).2 := by
  obtain ⟨g, r, rfl⟩ := h
  exact SameField.nextLines _ ⟨g, r, rfl⟩ hlines

theorem SameField.sameView_advance {v w : Vdp} (h : SameField v w) (cycles : Nat)
    (hlines : ∀ s ∈ (v.starts cycles).dropLast, s.line ≠ 0) :
    SameView (v.advance cycles).2 (w.advance cycles).2 := by
  obtain ⟨g, r, rfl⟩ := h
  exact SameField.sameView_nextLines _ ⟨g, r, rfl⟩ hlines

/-- T-states in which no line starts make up no line. -/
theorem lines_eq_zero {v : Vdp} {cycles : Nat} (h : v.starts cycles = []) :
    (v.lineCycles + cycles) / cyclesPerLine = 0 := by
  rw [← length_starts, h]
  rfl

theorem SameView.advance {v w : Vdp} (h : SameView v w) (cycles : Nat)
    (hlines : v.starts cycles = []) : SameView (v.advance cycles).2 (w.advance cycles).2 := by
  obtain ⟨g, r, a, rfl⟩ := h
  have hnone := lines_eq_zero hlines
  have hnone' : ((v.withViewer g r a).lineCycles + cycles) / cyclesPerLine = 0 := hnone
  unfold Vdp.advance
  dsimp only
  rw [hnone, hnone']
  exact ⟨g, r, a, rfl⟩

/-- A step of both programs that commutes with a change of the glasses and starts no line. -/
theorem Parallel.port {v w : Vdp} {o : Operation} {os : List Operation}
    (h : Parallel v w (o :: os))
    (ho : ∀ v g r a, (withViewer v g r a).operate o = (v.operate o).withViewer g r a)
    (hlines : v.startsDuring o = []) : Parallel (v.operate o) (w.operate o) os := by
  have hentered : v.entered (o :: os) = (v.operate o).entered os := by
    rw [entered, hlines, List.nil_append]
  have haccepted : (v.operate o).fieldAccepted = v.fieldAccepted :=
    congrArg (fun w => w.fieldAccepted) (ho v v.glasses v.shutterRight v.fieldAccepted)
  unfold Parallel at h ⊢
  rw [hentered] at h
  rcases h with ⟨⟨g, r, rfl⟩, hlater⟩ | ⟨⟨g, r, a, rfl⟩, hlater⟩
  · exact .inl ⟨⟨g, r, by rw [ho, haccepted]⟩, hlater⟩
  · exact .inr ⟨⟨g, r, a, ho v g r a⟩, hlater⟩

/-- A step of both programs. -/
theorem Parallel.step {v w : Vdp} {o : Operation} {os : List Operation}
    (h : Parallel v w (o :: os)) (ho : o.concernsViewer = false) :
    Parallel (v.operate o) (w.operate o) os := by
  match o, ho with
  | .reset, _ =>
      rcases h with ⟨⟨g, r, rfl⟩, hlines⟩ | ⟨⟨g, r, a, rfl⟩, hlines⟩
      · exact .inl ⟨⟨g, false, rfl⟩, hlines⟩
      · exact .inr ⟨⟨g, false, true, rfl⟩, hlines⟩
  | .access (.advance n), _ =>
      rcases h with ⟨h, hlines⟩ | ⟨h, hlines⟩
      · rcases forall_mem_dropLast_append hlines with ⟨hnow, hlater⟩ | ⟨hnow, hlater⟩
        · exact .inl ⟨h.advance n hnow, hlater⟩
        · exact .inr ⟨h.sameView_advance n hnow, hlater⟩
      · obtain ⟨hnow, hlater⟩ := List.append_eq_nil_iff.1 hlines
        exact .inr ⟨h.advance n hnow, hlater⟩
  | .access .readData, _ => exact h.port (fun v g r a => rfl) rfl
  | .access (.writeData b), _ => exact h.port (fun v g r a => writeData_withViewer v g r a b) rfl
  | .access .readStatus, _ => exact h.port (fun v g r a => rfl) rfl
  | .access (.writeControl b), _ =>
      exact h.port (fun v g r a => writeControl_withViewer v g r a b) rfl
  | .access .latchHCounter, _ => exact h.port (fun v g r a => rfl) rfl
  | .access (.setPhaserTarget _), _ => exact h.port (fun v g r a => rfl) rfl

/-- What shows does not depend on what is done to the glasses and the shutter. -/
theorem Parallel.views {v w : Vdp} {os : List Operation} (h : Parallel v w os) :
    v.views os = w.views (os.filter fun o => !o.concernsViewer) := by
  induction os generalizing v w with
  | nil => exact congrArg (fun x => [x]) h.sameView.view.symm
  | cons o os ih =>
      cases ho : o.concernsViewer with
      | true =>
          rw [List.filter_cons_of_neg (by simp [ho]), Vdp.views, if_pos ho]
          exact ih (h.viewer ho)
      | false =>
          rw [List.filter_cons_of_pos (by simp [ho]), Vdp.views, Vdp.views,
            if_neg (by simp [ho]), if_neg (by simp [ho]), ih (h.step ho), h.sameView.view]

/-! ### Rejected fields -/

theorem nextLines_fieldAccepted (n : Nat) {v : Vdp} (hlines : ∀ s ∈ enters n v, s.line ≠ 0) :
    (nextLines n v).2.fieldAccepted = v.fieldAccepted := by
  induction n generalizing v with
  | zero => rfl
  | succ n ih =>
      exact (ih fun s hs => hlines s (List.mem_cons_of_mem _ hs)).trans
        (nextLine_fieldAccepted v (hlines v.enter (List.mem_cons_self ..)))

theorem nextLines_display (n : Nat) {v : Vdp} (h : v.fieldAccepted = false)
    (hlines : ∀ s ∈ (enters n v).dropLast, s.line ≠ 0) :
    (nextLines n v).2.display = v.display := by
  induction n generalizing v with
  | zero => rfl
  | succ n ih =>
      cases n with
      | zero => exact nextLine_display v h
      | succ n =>
          have hfirst := nextLine_fieldAccepted v (hlines v.enter (List.mem_cons_self ..))
          exact (ih (hfirst.trans h) fun s hs => hlines s (List.mem_cons_of_mem _ hs)).trans
            (nextLine_display v h)

/-- The picture shown stays during some operations: the field is rejected until the next one starts,
or no line starts at all. -/
def Unshown (v : Vdp) (os : List Operation) : Prop :=
  (v.fieldAccepted = false ∧ ∀ s ∈ (v.entered os).dropLast, s.line ≠ 0) ∨ v.entered os = []

theorem Unshown.port {v : Vdp} {o : Operation} {os : List Operation} (h : Unshown v (o :: os))
    (haccepted : (v.operate o).fieldAccepted = v.fieldAccepted)
    (hlines : v.startsDuring o = []) : Unshown (v.operate o) os := by
  have hentered : v.entered (o :: os) = (v.operate o).entered os := by
    rw [entered, hlines, List.nil_append]
  unfold Unshown at h ⊢
  rw [hentered] at h
  rwa [haccepted]

theorem Unshown.advance {v : Vdp} {n : Nat} {os : List Operation}
    (h : Unshown v (.access (.advance n) :: os)) :
    (v.advance n).2.display = v.display ∧ Unshown (v.advance n).2 os := by
  rcases h with ⟨hv, hlines⟩ | hlines
  · rcases forall_mem_dropLast_append hlines with ⟨hnow, hlater⟩ | ⟨hnow, hlater⟩
    · have haccepted : (v.advance n).2.fieldAccepted = v.fieldAccepted :=
        nextLines_fieldAccepted _ hnow
      exact ⟨nextLines_display _ hv fun s hs => hnow s (List.dropLast_subset _ hs),
        .inl ⟨haccepted.trans hv, hlater⟩⟩
    · exact ⟨nextLines_display _ hv hnow, .inr hlater⟩
  · obtain ⟨hnow, hlater⟩ := List.append_eq_nil_iff.1 hlines
    refine ⟨?_, .inr hlater⟩
    unfold Vdp.advance
    dsimp only
    rw [lines_eq_zero hnow]
    rfl

theorem writeData_fieldAccepted (v : Vdp) (b : UInt8) :
    (v.writeData b).fieldAccepted = v.fieldAccepted := by
  obtain ⟨vram, cram, latch, palette, h⟩ := writeData_eq v b
  rw [h]

theorem writeControl_fieldAccepted (v : Vdp) (b : UInt8) :
    (v.writeControl b).fieldAccepted = v.fieldAccepted := by
  obtain ⟨regs, notes, low, code, address, buffer, h⟩ := writeControl_eq v b
  rw [h]

theorem Unshown.step {v : Vdp} {o : Operation} {os : List Operation} (h : Unshown v (o :: os))
    (ho : o ≠ .reset) : (v.operate o).display = v.display ∧ Unshown (v.operate o) os := by
  match o with
  | .reset => exact absurd rfl ho
  | .setGlasses _ => exact ⟨rfl, h.port rfl rfl⟩
  | .access (.advance n) => exact h.advance
  | .access .readData => exact ⟨rfl, h.port rfl rfl⟩
  | .access (.writeData b) =>
      exact ⟨(writeData_pictures v b).2, h.port (writeData_fieldAccepted v b) rfl⟩
  | .access .readStatus => exact ⟨rfl, h.port rfl rfl⟩
  | .access (.writeControl b) =>
      exact ⟨(writeControl_pictures v b).2, h.port (writeControl_fieldAccepted v b) rfl⟩
  | .access .latchHCounter => exact ⟨rfl, h.port rfl rfl⟩
  | .access (.setShutter _) => exact ⟨rfl, h.port rfl rfl⟩
  | .access (.setPhaserTarget _) => exact ⟨rfl, h.port rfl rfl⟩

/-- A rejected field leaves the picture shown. -/
theorem Unshown.display {v : Vdp} {os : List Operation} (h : Unshown v os)
    (hreset : ∀ o ∈ os, o ≠ .reset) : ∀ x ∈ v.views os, x.display = v.display := by
  induction os generalizing v with
  | nil =>
      intro x hx
      rw [List.mem_singleton.1 hx]
      rfl
  | cons o os ih =>
      obtain ⟨hdisplay, hnext⟩ := h.step (hreset o (List.mem_cons_self ..))
      have hlater := ih hnext fun o ho => hreset o (List.mem_cons_of_mem _ ho)
      intro x hx
      rw [views] at hx
      split at hx
      · exact (hlater x hx).trans hdisplay
      · rcases List.mem_cons.1 hx with rfl | hx
        · rfl
        · exact (hlater x hx).trans hdisplay

/-! ### Fields -/

theorem advance_beam_congr {v w : Vdp} (h : v.beam = w.beam) (n : Nat) :
    (v.advance n).2.beam = (w.advance n).2.beam ∧
      (v.starts n).map LineStart.line = (w.starts n).map LineStart.line := by
  simp only [beam, Prod.mk.injEq] at h
  obtain ⟨htiming, hline, hcycles⟩ := h
  simp only [beam, advance_timing, advance_line, advance_lineCycles, starts_line, length_starts,
    htiming, hline, hcycles, and_self]

/-- Which lines start does not depend on what is done to the glasses and the shutter. -/
theorem entered_line {v w : Vdp} (h : v.beam = w.beam) (os : List Operation) :
    (v.entered os).map LineStart.line =
      (w.entered (os.filter fun o => !o.concernsViewer)).map LineStart.line := by
  induction os generalizing v w with
  | nil => rfl
  | cons o os ih =>
      match o with
      | .reset =>
          have htiming : v.timing = w.timing := congrArg Prod.fst h
          have hbeam : v.reset.beam = w.reset.beam := by
            show (v.timing, 192, 0) = (w.timing, 192, 0)
            rw [htiming]
          exact ih hbeam
      | .setGlasses _ => exact ih h
      | .access (.setShutter _) => exact ih h
      | .access (.advance n) =>
          obtain ⟨hbeam, hnow⟩ := advance_beam_congr h n
          have hlater := ih (v := v.operate (.access (.advance n)))
            (w := w.operate (.access (.advance n))) hbeam
          show List.map _ (v.starts n ++ _) = List.map _ (w.starts n ++ _)
          rw [List.map_append, List.map_append, hnow, hlater]
      | .access .readData => exact ih h
      | .access (.writeData b) =>
          exact ih (((writeData_beam v b).trans h).trans (writeData_beam w b).symm)
      | .access .readStatus => exact ih h
      | .access (.writeControl b) =>
          exact ih (((writeControl_beam v b).trans h).trans (writeControl_beam w b).symm)
      | .access .latchHCounter => exact ih h
      | .access (.setPhaserTarget _) => exact ih h

/-- Whether the lines of a record but the last are none that a field starts with. -/
theorem forall_dropLast_line {xs ys : List LineStart}
    (h : xs.map LineStart.line = ys.map LineStart.line)
    (hx : ∀ s ∈ xs.dropLast, s.line ≠ 0) : ∀ s ∈ ys.dropLast, s.line ≠ 0 := by
  have hmap : xs.dropLast.map LineStart.line = ys.dropLast.map LineStart.line := by
    rw [List.map_dropLast, List.map_dropLast, h]
  intro s hs
  have hline : s.line ∈ ys.dropLast.map LineStart.line := List.mem_map_of_mem hs
  rw [← hmap] at hline
  obtain ⟨t, ht, he⟩ := List.mem_map.1 hline
  exact he ▸ hx t ht

/-- **Glasses wait for the next field.**  When the first line of a field has started, two programs
that differ in what they do to the glasses and the shutter alone see the same picture, status, line,
line counter and interrupt line until the next field has started: before each of the other
operations and in the end, and what is done to the glasses changes nothing of it in between.  If the
field was rejected, the picture stays all the time. -/
theorem glasses_wait (u : Vdp) (hu : u.line = 0) (xs ys : List Operation)
    (hsame : (xs.filter fun o => !o.concernsViewer) = ys.filter fun o => !o.concernsViewer)
    (hfield : ∀ s ∈ (u.startLine.2.entered xs).dropLast, s.line ≠ 0) :
    u.startLine.2.views xs = u.startLine.2.views ys ∧
      (∀ (v : Vdp) (o : Operation), o.concernsViewer = true → (v.operate o).view = v.view) ∧
      (u.glasses.accepts u.shutterRight = false → (∀ o ∈ xs, o ≠ .reset) →
        ∀ x ∈ u.startLine.2.views xs, x.display = u.startLine.2.display) := by
  have hself (v : Vdp) : SameField v v := ⟨v.glasses, v.shutterRight, rfl⟩
  have hlines : (u.startLine.2.entered xs).map LineStart.line =
      (u.startLine.2.entered ys).map LineStart.line := by
    rw [entered_line rfl xs, hsame, ← entered_line rfl ys]
  have hx : Parallel u.startLine.2 u.startLine.2 xs := .inl ⟨hself _, hfield⟩
  have hy : Parallel u.startLine.2 u.startLine.2 ys :=
    .inl ⟨hself _, forall_dropLast_line hlines hfield⟩
  refine ⟨?_, fun v o ho => view_of_concernsViewer ho v, fun hrejected hreset => ?_⟩
  · rw [hx.views, hy.views, hsame]
  · have hverdict := congrArg (fun p => p.2.fieldAccepted)
      (u.startLine_withViewer u.glasses u.shutterRight u.fieldAccepted fun _ => rfl)
    rw [if_pos hu] at hverdict
    exact Unshown.display (.inl ⟨hverdict.trans hrejected, hfield⟩) hreset

/-- A field that the glasses for the left eye reject, seen to its last line by two programs, one of
which lets both eyes see as soon as it has started. -/
theorem glasses_wait_of_left :
    let u : Vdp := { new .master .ntsc with line := 0, glasses := .left, shutterRight := true }
    u.startLine.2.views [.setGlasses .both, .access (.advance 59508)] =
        u.startLine.2.views [.access (.advance 59508)] ∧
      ∀ x ∈ u.startLine.2.views [.setGlasses .both, .access (.advance 59508)],
        x.display = u.startLine.2.display := by
  intro u
  have hbare := bare_startLine u
  have htiming : u.startLine.2.timing = .ntsc := congrArg Vdp.timing hbare
  have hline : u.startLine.2.line = 0 := congrArg Vdp.line hbare
  have hcycles : u.startLine.2.lineCycles = 0 := congrArg Vdp.lineCycles hbare
  have hfield : ∀ s ∈ u.startLine.2.entered [.setGlasses .both, .access (.advance 59508)],
      s.line ≠ 0 := by
    intro s hs
    have hs : s ∈ ({ u.startLine.2 with glasses := .both } : Vdp).starts 59508 := by
      rw [entered, entered, entered, List.append_nil] at hs
      exact hs
    obtain ⟨⟨k, hk, he⟩, -⟩ := mem_starts hs
    rw [length_starts] at hk
    dsimp only at hk he
    rw [hcycles] at hk
    have hk : k < 261 := hk
    rw [hline, htiming] at he
    have he : s.line = (0 + 1 + k) % 262 := he
    omega
  obtain ⟨hviews, -, hrejected⟩ := glasses_wait u rfl
    [.setGlasses .both, .access (.advance 59508)] [.access (.advance 59508)] rfl
    fun s hs => hfield s (List.dropLast_subset _ hs)
  exact ⟨hviews, hrejected rfl (by simp)⟩

end Vdp

end MasterSystem.Video
