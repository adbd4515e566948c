import MasterSystem.Proofs.Video.Lines

/-! # What is drawn

The two pictures of the chip are output only: nothing that the chip does depends on what they hold
(`nextLine_withPictures`).  A line of the picture is drawn into the scratch picture when the beam
enters it, over all of its columns, and the vertical blank shows the scratch picture.

* **Independence.**  `withPictures` replaces the pictures; every part of the chip commutes with it.
* **Rows.**  Starting a line replaces its row of the scratch picture and no other
  (`startLine_scratch`), and shows the field where the vertical blank begins
  (`startLine_display`). -/

namespace MasterSystem.Video

/-! ### Rows of pixels -/

namespace Vdp

theorem copyRow_size (row : Array Color) : ∀ (n k i : Nat) (pixels : Array Color),
    (copyRow row n k i pixels).size = pixels.size
  | 0, _, _, _ => rfl
  | n + 1, k, i, pixels => by
      rw [copyRow, copyRow_size row n, Array.size_setIfInBounds]

theorem copyRow_get (row : Array Color) : ∀ (n k i : Nat) (pixels : Array Color) (j : Nat),
    j < pixels.size → (copyRow row n k i pixels)[j]? =
      if i ≤ j ∧ j < i + n then some (row.getD (k + (j - i)) 0) else pixels[j]?
  | 0, k, i, pixels, j, _ => by
      rw [copyRow, if_neg (by omega)]
  | n + 1, k, i, pixels, j, h => by
      rw [copyRow, copyRow_get row n (k + 1) (i + 1) _ j (by rwa [Array.size_setIfInBounds])]
      by_cases hij : i = j
      · subst hij
        rw [if_neg (by omega), if_pos (by omega), Nat.sub_self, Nat.add_zero,
          Array.getElem?_setIfInBounds_self_of_lt h]
      · rw [Array.getElem?_setIfInBounds_ne hij]
        by_cases hin : i + 1 ≤ j ∧ j < i + 1 + n
        · rw [if_pos hin, if_pos (by omega), show k + 1 + (j - (i + 1)) = k + (j - i) by omega]
        · rw [if_neg hin, if_neg (by omega)]

/-! ### Independence -/

/-- The chip `w`, with what `v` draws its lines from. -/
def lend (v w : Vdp) : Vdp :=
  { w with
    model := v.model, regs := v.regs, vram := v.vram, palette := v.palette, status := v.status
    vscroll := v.vscroll }

section

variable (v w : Vdp)

theorem backgroundFrom_lend (line : Nat) : ∀ (n x : Nat) (held : Option (Nat × TileRow))
    (out : Array UInt8), (v.lend w).backgroundFrom line n x held out =
      v.backgroundFrom line n x held out
  | 0, _, _, _ => rfl
  | n + 1, x, _, _ => backgroundFrom_lend line n (x + 1) _ _

theorem colorsFrom_lend (masked : Bool) (backdrop : Color) (bg sprites : Array UInt8) :
    ∀ (n x : Nat) (out : Array Color),
      (v.lend w).colorsFrom masked backdrop bg sprites n x out =
        v.colorsFrom masked backdrop bg sprites n x out
  | 0, _, _ => rfl
  | n + 1, x, _ => colorsFrom_lend masked backdrop bg sprites n (x + 1) _

theorem spriteLine_lend (line : Nat) : (v.lend w).spriteLine line = v.spriteLine line := by
  have hon : (v.lend w).spritesOn line = v.spritesOn line := rfl
  have hplanes (i : Nat) : (v.lend w).spritePlanes i line = v.spritePlanes i line := rfl
  have hleft (i : Nat) : (v.lend w).spriteLeft i = v.spriteLeft i := rfl
  have hzoom : (v.lend w).spriteZoom = v.spriteZoom := rfl
  unfold spriteLine
  simp only [hon, hplanes, hleft, hzoom]

theorem drawMode4_lend (line : Nat) :
    (v.lend w).drawMode4 line = ((v.drawMode4 line).1, (v.drawMode4 line).2.lend w) := by
  unfold drawMode4 background
  rw [spriteLine_lend, backgroundFrom_lend]
  obtain ⟨sprites, overflow⟩ := v.spriteLine line
  dsimp only
  rw [colorsFrom_lend]
  rfl

theorem drawLegacy_lend (line : Nat) :
    (v.lend w).drawLegacy line = ((v.drawLegacy line).1, (v.drawLegacy line).2.lend w) := by
  have hbit : (v.lend w).regBit 1 0x10 = v.regBit 1 0x10 := rfl
  have htext : (v.lend w).textLine line = v.textLine line := rfl
  have hground : (v.lend w).legacyBackground line = v.legacyBackground line := rfl
  have hon : (v.lend w).legacySpritesOn line = v.legacySpritesOn line := rfl
  have hover : (v.lend w).overlaySprite line = v.overlaySprite line := rfl
  have hstatus : (v.lend w).status = v.status := rfl
  unfold drawLegacy
  rw [hbit, htext]
  split
  · rfl
  · unfold drawLegacySprites
    rw [hground, hon, hover, hstatus]
    rfl

theorem paint_lend (line : Nat) :
    (v.lend w).paint line = ((v.paint line).1, (v.paint line).2.lend w) := by
  have henabled : (v.lend w).displayEnabled = v.displayEnabled := rfl
  have hback : (v.lend w).backdrop = v.backdrop := rfl
  have hmode : (v.lend w).mode4 = v.mode4 := rfl
  unfold paint
  rw [henabled, hback, hmode, drawMode4_lend, drawLegacy_lend]
  split
  · rfl
  · split <;> rfl

/-- Drawing a line raises flags of the status, and does nothing else. -/
theorem paint_status (line : Nat) :
    (v.paint line).2 = { v with status := (v.paint line).2.status } := by
  unfold paint
  split
  · rfl
  · split
    · rfl
    · unfold drawLegacy
      split <;> rfl

/-- Chips that draw from the same draw the same. -/
theorem paint_congr {v w : Vdp} (h : w = v.lend w) (line : Nat) :
    w.paint line = ((v.paint line).1, { w with status := (v.paint line).2.status }) := by
  rw [h, paint_lend, paint_status]
  rfl

end

/-- The chip with other pictures. -/
def withPictures (v : Vdp) (scratch display : Frame) : Vdp :=
  { v with scratch := scratch, display := display }

section

variable (v : Vdp) (s d : Frame)

/-- What is drawn does not depend on what was drawn before. -/
theorem paint_withPictures (line : Nat) :
    (v.withPictures s d).paint line = ((v.paint line).1, (v.paint line).2.withPictures s d) := by
  rw [paint_congr (v := v) rfl, v.paint_status line]
  rfl

theorem senseLight_withPictures (line : Nat) (row : Array Color) :
    (v.withPictures s d).senseLight line row = (v.senseLight line row).withPictures s d := by
  rw [senseLight_eq, senseLight_eq]
  rfl

theorem countLine_withPictures :
    (v.withPictures s d).countLine = v.countLine.withPictures s d := by
  rw [countLine_eq, countLine_eq]
  rfl

/-! ### Ports -/

theorem writeCram_withPictures (b : UInt8) :
    (v.withPictures s d).writeCram b = (v.writeCram b).withPictures s d := by
  have hmodel : (v.withPictures s d).model = v.model := rfl
  have haddress : (v.withPictures s d).address = v.address := rfl
  unfold writeCram
  rw [hmodel, haddress]
  split
  · dsimp only
    split <;> rfl
  · rfl

theorem writeData_withPictures (b : UInt8) :
    (v.withPictures s d).writeData b = (v.writeData b).withPictures s d := by
  have hcode : (v.withPictures s d).code = v.code := rfl
  have hmodel : (v.withPictures s d).model = v.model := rfl
  unfold writeData
  rw [hcode, hmodel, writeCram_withPictures]
  split <;> rfl

theorem writeRegister_withPictures (i b : UInt8) :
    (v.withPictures s d).writeRegister i b = (v.writeRegister i b).withPictures s d := by
  have hnote (w : Vdp) (before : Nat) :
      (if (w.withPictures s d).activeHeight = before then w.withPictures s d
        else { w.withPictures s d with
          notes := w.notes.push (.activeHeight before w.activeHeight) }) =
      (if w.activeHeight = before then w
        else { w with
          notes := w.notes.push (.activeHeight before w.activeHeight) }).withPictures s d := by
    have hheight : (w.withPictures s d).activeHeight = w.activeHeight := rfl
    rw [hheight]
    split <;> rfl
  unfold writeRegister
  dsimp only
  split
  · rfl
  · exact hnote { v with
      notes := v.notes.push (.videoRegister i b v.line)
      regs := v.regs.setIfInBounds i.toNat b } _

theorem writeControl_withPictures (b : UInt8) :
    (v.withPictures s d).writeControl b = (v.writeControl b).withPictures s d := by
  have hlow : (v.withPictures s d).controlLow = v.controlLow := rfl
  unfold writeControl
  rw [hlow]
  split
  · rfl
  · dsimp only
    split
    · rfl
    · split
      · exact writeRegister_withPictures ({ v with
          controlLow := none, code := b >>> 6, address := Word.ofBytes (b &&& 0x3F) _ } : Vdp)
          s d _ _
      · rfl

theorem writeData_pictures (b : UInt8) :
    (v.writeData b).scratch = v.scratch ∧ (v.writeData b).display = v.display := by
  obtain ⟨vram, cram, latch, palette, h⟩ := writeData_eq v b
  rw [h]
  exact ⟨rfl, rfl⟩

theorem writeControl_pictures (b : UInt8) :
    (v.writeControl b).scratch = v.scratch ∧ (v.writeControl b).display = v.display := by
  obtain ⟨regs, notes, low, code, address, buffer, h⟩ := writeControl_eq v b
  rw [h]
  exact ⟨rfl, rfl⟩

/-! ### Rows -/

/-- The chip when it has begun the line that the beam is on, before it draws. -/
def poised (v : Vdp) : Vdp :=
  { (if v.line = 0 then v.startField else v) with lightDetected := false }

theorem poised_eq (v : Vdp) :
    v.poised = { v with
      vscroll := if v.line = 0 then v.register 9 else v.vscroll
      fieldAccepted := if v.line = 0 then v.glasses.accepts v.shutterRight else v.fieldAccepted
      lightDetected := false } := by
  unfold poised startField
  split <;> rfl

/-- The colours of the line that the beam is on. -/
def rowDrawn (v : Vdp) : Array Color := (v.poised.paint v.line).1

/-- A scratch picture after the line that the beam is on was drawn into it. -/
def inked (v : Vdp) (scratch : Frame) : Frame :=
  if v.line < v.activeHeight then
    { scratch with
      pixels := copyRow v.rowDrawn screenWidth 0 (v.line * screenWidth) scratch.pixels }
  else scratch

theorem inked_size (v : Vdp) (s : Frame) : (v.inked s).pixels.size = s.pixels.size := by
  unfold inked
  split
  · rw [copyRow_size]
  · rfl

/-- The picture shown after the line that the beam is on has begun. -/
def shown (v : Vdp) (scratch display : Frame) : Frame :=
  if v.line = v.activeHeight ∧ v.fieldAccepted then
    ⟨screenWidth, v.activeHeight, scratch.pixels.extract 0 (screenWidth * v.activeHeight)⟩
  else display

theorem poised_withPictures : (v.withPictures s d).poised = v.poised.withPictures s d := by
  rw [poised_eq, poised_eq]
  rfl

theorem renderLine_withPictures (w : Vdp) (line : Nat) :
    (w.withPictures s d).renderLine line =
      (w.renderLine line).withPictures
        { s with
          pixels := copyRow (w.paint line).1 screenWidth 0 (line * screenWidth) s.pixels } d := by
  rw [renderLine_eq, renderLine_eq, paint_withPictures]
  dsimp only
  rw [senseLight_withPictures]
  rfl

theorem traced_eq : v.traced =
    let w := if v.line < v.activeHeight then v.poised.renderLine v.line else v.poised
    if v.line ≤ v.activeHeight then w.countLine else { w with lineCounter := w.register 10 } := rfl

theorem traced_withPictures :
    (v.withPictures s d).traced = v.traced.withPictures (v.inked s) d := by
  have hline : (v.withPictures s d).line = v.line := rfl
  have hheight : (v.withPictures s d).activeHeight = v.activeHeight := rfl
  rw [traced_eq, traced_eq, hline, hheight, poised_withPictures]
  have hdraw : (if v.line < v.activeHeight then (v.poised.withPictures s d).renderLine v.line
      else v.poised.withPictures s d) =
      (if v.line < v.activeHeight then v.poised.renderLine v.line else v.poised).withPictures
        (v.inked s) d := by
    unfold inked
    split
    · exact renderLine_withPictures s d v.poised v.line
    · rfl
  dsimp only
  rw [hdraw]
  generalize (if v.line < v.activeHeight then v.poised.renderLine v.line else v.poised) = w
  split
  · exact countLine_withPictures w (v.inked s) d
  · rfl

theorem traced_fieldAccepted (h : v.line = v.activeHeight) :
    v.traced.fieldAccepted = v.fieldAccepted := by
  have hpos : v.line ≠ 0 := by
    have := v.activeHeight_cases
    omega
  have hpoised : v.poised.fieldAccepted = v.fieldAccepted := by
    rw [poised_eq]
    exact if_neg hpos
  rw [traced_eq]
  dsimp only
  rw [if_neg (show ¬ v.line < v.activeHeight by omega),
    if_pos (show v.line ≤ v.activeHeight by omega), ← hpoised, countLine_eq]

theorem finishField_withPictures (height : Nat) :
    (v.withPictures s d).finishField height =
      (v.finishField height).withPictures s
        (if v.fieldAccepted then
          ⟨screenWidth, height, s.pixels.extract 0 (screenWidth * height)⟩
        else d) := by
  rw [finishField_eq, finishField_eq]
  rfl

theorem startLine_withPictures :
    (v.withPictures s d).startLine =
      (v.startLine.1, v.startLine.2.withPictures (v.inked s) (v.shown s d)) := by
  have hline : (v.withPictures s d).line = v.line := rfl
  have hheight : (v.withPictures s d).activeHeight = v.activeHeight := rfl
  rw [startLine_eq, startLine_eq, hline, hheight, traced_withPictures]
  unfold shown
  by_cases h : v.line = v.activeHeight
  · have haccepted := traced_fieldAccepted v h
    have hinked : v.inked s = s := by
      unfold inked
      rw [if_neg (by omega)]
    have hfinish := finishField_withPictures
      ({ v.traced with status := v.traced.status ||| Status.vblank } : Vdp) s d v.activeHeight
    rw [if_pos h, if_pos h, hinked]
    simp only [h, true_and]
    rw [← haccepted]
    exact congrArg (Prod.mk true) hfinish
  · rw [if_neg h, if_neg h, if_neg (fun hc => h hc.1)]

theorem nextLine_withPictures :
    (v.withPictures s d).nextLine =
      (v.nextLine.1, v.nextLine.2.withPictures
        (inked { v with line := (v.line + 1) % v.timing.linesPerFrame } s)
        (shown { v with line := (v.line + 1) % v.timing.linesPerFrame } s d)) :=
  startLine_withPictures { v with line := (v.line + 1) % v.timing.linesPerFrame } s d

theorem startLine_scratch : v.startLine.2.scratch = v.inked v.scratch := by
  have h := congrArg (fun p => p.2.scratch) (startLine_withPictures v v.scratch v.display)
  exact h

theorem startLine_display : v.startLine.2.display = v.shown v.scratch v.display := by
  have h := congrArg (fun p => p.2.display) (startLine_withPictures v v.scratch v.display)
  exact h

end

end Vdp

end MasterSystem.Video
