import MasterSystem.Proofs.Video.Pictures

/-! # What remains of an older picture

Two chips that are alike but for their pictures stay alike, since nothing that a chip does depends
on a picture.  When one of them started with a black scratch picture and the other with an older
one, the rows drawn since are the same, and the others are what they were.

* **Record.**  The lines started since say which rows were drawn (`Drawn`), and whether the field
  shown last had a row that was not, and that is not black in the older picture (`Leaks`).
* **Pictures.**  `Remains` relates the four pictures to the record; every line that starts keeps it
  (`Remains.startLine`).
* **Chips.**  `Parted` are two such chips; no access to their ports and no time that passes parts
  them further (`Parted.port`, `Parted.advance`).
* **One height.**  A picture that keeps its height is drawn from the first row to the last before it
  is shown, so that nothing older is (`Whole.advance`). -/

namespace MasterSystem.Video.Vdp

/-! ### The record -/

/-- A row of the picture is drawn when the line starts. -/
def LineStart.Draws (t : LineStart) (y : Nat) : Prop := t.line = y ∧ y < t.height

/-- The field drawn is shown when the line starts. -/
def LineStart.Shows (t : LineStart) : Prop := t.line = t.height ∧ t.accepted = true

instance (t : LineStart) (y : Nat) : Decidable (t.Draws y) :=
  inferInstanceAs (Decidable (_ ∧ _))

instance (t : LineStart) : Decidable t.Shows := inferInstanceAs (Decidable (_ ∧ _))

/-- A row of the picture was drawn. -/
def Drawn (log : List LineStart) (y : Nat) : Prop := ∃ t ∈ log, t.Draws y

/-- The colour of a scratch picture in column `x` of row `y`. -/
def dot (f : Frame) (x y : Nat) : Color := f.pixels.getD (y * screenWidth + x) 0

/-- A row of a scratch picture is black. -/
def IsBlack (f : Frame) (y : Nat) : Prop := ∀ x < screenWidth, dot f x y = 0

/-- A picture of some height has a row that was not drawn, and that is not black in the older
picture. -/
def Old (old : Frame) (log : List LineStart) (height : Nat) : Prop :=
  ∃ y < height, ¬ Drawn log y ∧ ¬ IsBlack old y

/-- The field shown last had a row of the older picture. -/
def Leaks (old : Frame) (log : List LineStart) : Prop :=
  ∃ before t after, log = before ++ t :: after ∧ t.Shows ∧ (∀ u ∈ after, ¬ u.Shows) ∧
    Old old before t.height

theorem not_drawn_nil (y : Nat) : ¬ Drawn [] y := by
  rintro ⟨t, ht, -⟩
  simp at ht

theorem not_leaks_nil (old : Frame) : ¬ Leaks old [] := by
  rintro ⟨before, t, after, hlog, -⟩
  simp at hlog

theorem drawn_snoc (log : List LineStart) (t : LineStart) (y : Nat) :
    Drawn (log ++ [t]) y ↔ Drawn log y ∨ t.Draws y := by
  unfold Drawn
  simp only [List.mem_append, List.mem_singleton]
  constructor
  · rintro ⟨u, hu | rfl, hdraws⟩
    · exact .inl ⟨u, hu, hdraws⟩
    · exact .inr hdraws
  · rintro (⟨u, hu, hdraws⟩ | hdraws)
    · exact ⟨u, .inl hu, hdraws⟩
    · exact ⟨t, .inr rfl, hdraws⟩

theorem leaks_snoc_of_shows (old : Frame) (log : List LineStart) {t : LineStart} (h : t.Shows) :
    Leaks old (log ++ [t]) ↔ Old old log t.height := by
  constructor
  · rintro ⟨before, u, after, hlog, -, hafter, hold⟩
    -- The last line shows a field, so none that `Leaks` speaks of is before it.
    rcases List.eq_nil_or_concat after with rfl | ⟨rest, last, rfl⟩
    · obtain ⟨rfl, hu⟩ := List.append_inj' hlog rfl
      obtain rfl : t = u := by simpa using hu
      exact hold
    · rw [List.concat_eq_append, ← List.cons_append, ← List.append_assoc] at hlog
      obtain ⟨-, hlast⟩ := List.append_inj' hlog rfl
      obtain rfl : t = last := by simpa using hlast
      exact absurd h (hafter t (by simp))
  · exact fun hold => ⟨log, t, [], rfl, h, by simp, hold⟩

theorem leaks_snoc_of_not_shows (old : Frame) (log : List LineStart) {t : LineStart}
    (h : ¬ t.Shows) : Leaks old (log ++ [t]) ↔ Leaks old log := by
  constructor
  · rintro ⟨before, u, after, hlog, hshows, hafter, hold⟩
    rcases List.eq_nil_or_concat after with rfl | ⟨rest, last, rfl⟩
    · obtain ⟨-, hu⟩ := List.append_inj' hlog rfl
      obtain rfl : t = u := by simpa using hu
      exact absurd hshows h
    · rw [List.concat_eq_append, ← List.cons_append, ← List.append_assoc] at hlog
      obtain ⟨hlog, -⟩ := List.append_inj' hlog rfl
      exact ⟨before, u, rest, hlog, hshows, fun x hx => hafter x (by simp [hx]), hold⟩
  · rintro ⟨before, u, after, rfl, hshows, hafter, hold⟩
    refine ⟨before, u, after ++ [t], by simp, hshows, ?_, hold⟩
    intro x hx
    rcases List.mem_append.1 hx with hx | hx
    · exact hafter x hx
    · obtain rfl : x = t := by simpa using hx
      exact h

/-! ### Pictures -/

/-- The scratch pictures and the pictures shown of two chips, after some lines.  One had an older
scratch picture before, the other a black one, and they showed the same. -/
structure Remains (old : Frame) (log : List LineStart) (s d s' d' : Frame) : Prop where
  size : s.pixels.size = screenWidth * maxHeight
  size' : s'.pixels.size = screenWidth * maxHeight
  /-- Rows drawn since are the same. -/
  drawn : ∀ y < maxHeight, Drawn log y → ∀ x < screenWidth, dot s' x y = dot s x y
  /-- The others are what they were. -/
  older : ∀ y < maxHeight, ¬ Drawn log y → ∀ x < screenWidth,
    dot s x y = dot old x y ∧ dot s' x y = 0
  width : d'.width = d.width
  height : d'.height = d.height
  shown : d' = d ↔ ¬ Leaks old log

theorem dot_inked (v : Vdp) {f : Frame} (hf : f.pixels.size = screenWidth * maxHeight) {x y : Nat}
    (hx : x < screenWidth) (hy : y < maxHeight) :
    dot (v.inked f) x y =
      if v.line = y ∧ y < v.activeHeight then v.rowDrawn.getD x 0 else dot f x y := by
  have hlt : y * screenWidth + x < f.pixels.size := by
    simp only [hf, screenWidth, maxHeight] at hx hy ⊢
    omega
  unfold inked
  by_cases hdraw : v.line < v.activeHeight
  · have hget := copyRow_get v.rowDrawn screenWidth 0 (v.line * screenWidth) f.pixels _ hlt
    rw [if_pos hdraw]
    unfold dot
    dsimp only
    rw [Array.getD_eq_getD_getElem?, hget]
    by_cases hline : v.line = y
    · subst hline
      rw [if_pos (by omega), if_pos ⟨rfl, hdraw⟩, Option.getD_some, Nat.add_sub_cancel_left,
        Nat.zero_add]
    · rw [if_neg, if_neg (fun h => hline h.1), ← Array.getD_eq_getD_getElem?]
      simp only [screenWidth] at hx ⊢
      omega
  · rw [if_neg hdraw, if_neg (by omega)]

/-- Two fields are the same if their rows are. -/
theorem extract_eq_iff {f g : Frame} (hf : f.pixels.size = screenWidth * maxHeight)
    (hg : g.pixels.size = screenWidth * maxHeight) {height : Nat} (hheight : height ≤ maxHeight) :
    g.pixels.extract 0 (screenWidth * height) = f.pixels.extract 0 (screenWidth * height) ↔
      ∀ y < height, ∀ x < screenWidth, dot g x y = dot f x y := by
  have hget (p : Frame) (hp : p.pixels.size = screenWidth * maxHeight) (i : Nat)
      (hi : i < screenWidth * height) : (p.pixels.extract 0 (screenWidth * height))[i]? =
        some (p.pixels.getD i 0) := by
    have hlt : i < p.pixels.size := by
      simp only [hp, screenWidth] at hi ⊢
      omega
    rw [Array.getElem?_extract_of_lt (by omega), Array.getD_eq_getD_getElem?,
      Array.getElem?_eq_getElem hlt]
    simp
  have hsize (p : Frame) (hp : p.pixels.size = screenWidth * maxHeight) :
      (p.pixels.extract 0 (screenWidth * height)).size = screenWidth * height := by
    rw [Array.size_extract, hp, Nat.sub_zero, Nat.min_eq_left (Nat.mul_le_mul_left _ hheight)]
  constructor
  · intro h y hy x hx
    have hi : y * screenWidth + x < screenWidth * height := by
      simp only [screenWidth] at hx ⊢
      omega
    have hdot := congrArg (·[y * screenWidth + x]?) h
    simp only [hget f hf _ hi, hget g hg _ hi] at hdot
    exact Option.some.inj hdot
  · intro h
    refine Array.ext_getElem? fun i => ?_
    by_cases hi : i < screenWidth * height
    · have hdot := h (i / screenWidth) (by simp only [screenWidth] at hi ⊢; omega)
        (i % screenWidth) (Nat.mod_lt _ (by decide))
      unfold dot at hdot
      rw [Nat.div_add_mod' i screenWidth] at hdot
      rw [hget f hf i hi, hget g hg i hi, hdot]
    · rw [Array.getElem?_eq_none (by rw [hsize g hg]; omega),
        Array.getElem?_eq_none (by rw [hsize f hf]; omega)]

variable {old s d s' d' : Frame} {log : List LineStart}

/-- The rows of a field are the same unless one is of the older picture. -/
theorem Remains.rows (h : Remains old log s d s' d') {height : Nat} (hheight : height ≤ maxHeight) :
    (∀ y < height, ∀ x < screenWidth, dot s' x y = dot s x y) ↔ ¬ Old old log height := by
  constructor
  · rintro hsame ⟨y, hy, hdrawn, hblack⟩
    refine hblack fun x hx => ?_
    obtain ⟨hold, hnew⟩ := h.older y (by omega) hdrawn x hx
    rw [← hold, ← hsame y hy x hx, hnew]
  · intro hold y hy x hx
    by_cases hdrawn : Drawn log y
    · exact h.drawn y (by omega) hdrawn x hx
    · obtain ⟨hs, hs'⟩ := h.older y (by omega) hdrawn x hx
      have hblack : IsBlack old y := Classical.not_not.1 fun hblack => hold ⟨y, hy, hdrawn, hblack⟩
      rw [hs, hs', hblack x hx]

/-- A line that starts draws the same row, and shows what is there. -/
theorem Remains.startLine (h : Remains old log s d s' d') (v : Vdp) {t : LineStart}
    (hline : t.line = v.line) (hheight : t.height = v.activeHeight)
    (haccepted : t.accepted = v.fieldAccepted) :
    Remains old (log ++ [t]) (v.inked s) (v.shown s d) (v.inked s') (v.shown s' d') := by
  have hdraws (y : Nat) : t.Draws y ↔ v.line = y ∧ y < v.activeHeight := by
    unfold LineStart.Draws
    rw [hline, hheight]
  have hshows : t.Shows ↔ v.line = v.activeHeight ∧ v.fieldAccepted = true := by
    unfold LineStart.Shows
    rw [hline, hheight, haccepted]
  have hmax : v.activeHeight ≤ maxHeight := by
    have := v.activeHeight_cases
    unfold maxHeight
    omega
  refine ⟨(inked_size v s).trans h.size, (inked_size v s').trans h.size', ?_, ?_, ?_, ?_, ?_⟩
  · intro y hy hdrawn x hx
    rw [dot_inked v h.size hx hy, dot_inked v h.size' hx hy]
    split
    · rfl
    · rename_i hnot
      rw [drawn_snoc, hdraws] at hdrawn
      exact h.drawn y hy (hdrawn.resolve_right hnot) x hx
  · intro y hy hdrawn x hx
    rw [drawn_snoc, hdraws, not_or] at hdrawn
    rw [dot_inked v h.size hx hy, dot_inked v h.size' hx hy, if_neg hdrawn.2, if_neg hdrawn.2]
    exact h.older y hy hdrawn.1 x hx
  · unfold Vdp.shown
    split
    · rfl
    · exact h.width
  · unfold Vdp.shown
    split
    · rfl
    · exact h.height
  · unfold Vdp.shown
    by_cases hs : v.line = v.activeHeight ∧ v.fieldAccepted = true
    · rw [if_pos hs, if_pos hs, leaks_snoc_of_shows old log (hshows.2 hs), hheight,
        ← h.rows hmax, ← extract_eq_iff h.size h.size' hmax]
      simp
    · rw [if_neg hs, if_neg hs, leaks_snoc_of_not_shows old log (fun ht => hs (hshows.1 ht))]
      exact h.shown

/-! ### Chips -/

/-- Two chips that are alike but for their pictures. -/
structure Parted (old : Frame) (log : List LineStart) (v w : Vdp) : Prop where
  same : w = v.withPictures w.scratch w.display
  remains : Remains old log v.scratch v.display w.scratch w.display

variable {v w : Vdp}

theorem Parted.lineCycles (h : Parted old log v w) : w.lineCycles = v.lineCycles := by
  rw [h.same]
  rfl

theorem Parted.irq (h : Parted old log v w) : w.irq = v.irq := by
  rw [h.same]
  rfl

/-- An access to the ports, which leaves the pictures alone. -/
theorem Parted.port (h : Parted old log v w) {g : Vdp → Vdp}
    (hg : ∀ u s d, g (withPictures u s d) = (g u).withPictures s d) :
    Parted old log (g v) (g w) := by
  have hpictures (u : Vdp) : (g u).scratch = u.scratch ∧ (g u).display = u.display := by
    have hs := congrArg Vdp.scratch (hg u u.scratch u.display)
    have hd := congrArg Vdp.display (hg u u.scratch u.display)
    exact ⟨hs, hd⟩
  obtain ⟨hvs, hvd⟩ := hpictures v
  obtain ⟨hws, hwd⟩ := hpictures w
  refine ⟨?_, ?_⟩
  · rw [hws, hwd, ← hg, ← h.same]
  · rw [hvs, hvd, hws, hwd]
    exact h.remains

theorem Parted.nextLine (h : Parted old log v w) :
    w.nextLine.1 = v.nextLine.1 ∧ Parted old (log ++ [v.enter]) v.nextLine.2 w.nextLine.2 := by
  have hlike := nextLine_withPictures v w.scratch w.display
  rw [← h.same] at hlike
  have hs : v.nextLine.2.scratch = _ := startLine_scratch _
  have hd : v.nextLine.2.display = _ := startLine_display _
  refine ⟨by rw [hlike], ?_⟩
  rw [hlike]
  refine ⟨rfl, ?_⟩
  rw [hs, hd]
  exact h.remains.startLine { v with line := (v.line + 1) % v.timing.linesPerFrame } rfl rfl rfl

theorem Parted.nextLines : ∀ (n : Nat) {log : List LineStart} {v w : Vdp}, Parted old log v w →
    (Vdp.nextLines n w).1 = (Vdp.nextLines n v).1 ∧
      Parted old (log ++ enters n v) (Vdp.nextLines n v).2 (Vdp.nextLines n w).2
  | 0, log, _, _, h => by
      rw [enters, List.append_nil]
      exact ⟨rfl, h⟩
  | n + 1, log, v, w, h => by
      obtain ⟨hblank, hline⟩ := h.nextLine
      obtain ⟨hlater, hlines⟩ := Parted.nextLines n hline
      rw [List.append_assoc] at hlines
      refine ⟨?_, hlines⟩
      show (w.nextLine.1 || (Vdp.nextLines n w.nextLine.2).1) =
        (v.nextLine.1 || (Vdp.nextLines n v.nextLine.2).1)
      rw [hblank, hlater]

/-- Time passes for both alike. -/
theorem Parted.advance (h : Parted old log v w) (cycles : Nat) :
    (w.advance cycles).1 = (v.advance cycles).1 ∧
      Parted old (log ++ v.starts cycles) (v.advance cycles).2 (w.advance cycles).2 := by
  have hclock := h.port
    (g := fun u => { u with lineCycles := (v.lineCycles + cycles) % cyclesPerLine })
    fun _ _ _ => rfl
  have hlines := Parted.nextLines ((v.lineCycles + cycles) / cyclesPerLine) hclock
  unfold Vdp.advance starts
  dsimp only
  rw [h.lineCycles]
  exact hlines

/-! ### Pictures of one height -/

/-- Of a picture that keeps its height, the rows down to the beam were drawn, and no field with an
older row was shown. -/
structure Whole (old : Frame) (height : Nat) (log : List LineStart) (v : Vdp) : Prop where
  within : v.line < v.timing.linesPerFrame
  rows : v.line < height → ∀ y ≤ v.line, Drawn log y
  shown : ¬ Leaks old log

variable {height : Nat}

/-- The blank begins above the last line. -/
theorem activeHeight_lt (v : Vdp) : v.activeHeight < v.timing.linesPerFrame := by
  have hheight := v.activeHeight_cases
  cases v.timing <;> simp only [Standard.linesPerFrame] <;> omega

theorem Whole.congr (h : Whole old height log v) (htiming : w.timing = v.timing)
    (hline : w.line = v.line) : Whole old height log w := by
  obtain ⟨hwithin, hrows, hshown⟩ := h
  rw [← htiming, ← hline] at hwithin
  rw [← hline] at hrows
  exact ⟨hwithin, hrows, hshown⟩

theorem Whole.nextLine (h : Whole old height log v) (hheight : v.enter.height = height) :
    Whole old height (log ++ [v.enter]) v.nextLine.2 := by
  have hwithin := h.within
  have hline : v.nextLine.2.line = v.enter.line := nextLine_line v
  have hnext : v.enter.line = 0 ∨ v.enter.line = v.line + 1 := by
    show (v.line + 1) % _ = 0 ∨ (v.line + 1) % _ = v.line + 1
    rcases Nat.lt_or_ge (v.line + 1) v.timing.linesPerFrame with hlt | hge
    · exact .inr (Nat.mod_eq_of_lt hlt)
    · rw [show v.line + 1 = v.timing.linesPerFrame by omega, Nat.mod_self]
      exact .inl rfl
  refine ⟨?_, ?_, ?_⟩
  · rw [nextLine_timing, nextLine_line]
    exact Nat.mod_lt _ (by omega)
  · rw [hline]
    intro hlt y hy
    rw [drawn_snoc]
    by_cases hbeam : v.enter.line = y
    · exact .inr ⟨hbeam, by omega⟩
    · exact .inl (h.rows (by omega) y (by omega))
  · by_cases hshows : v.enter.Shows
    · rw [leaks_snoc_of_shows old log hshows]
      rintro ⟨y, hy, hdrawn, -⟩
      have hlast := hshows.1
      exact hdrawn (h.rows (by omega) y (by omega))
    · rw [leaks_snoc_of_not_shows old log hshows]
      exact h.shown

theorem Whole.nextLines : ∀ (n : Nat) {log : List LineStart} {v : Vdp}, Whole old height log v →
    (∀ t ∈ enters n v, t.height = height) →
    Whole old height (log ++ enters n v) (Vdp.nextLines n v).2
  | 0, log, _, h, _ => by
      rw [enters, List.append_nil]
      exact h
  | n + 1, log, v, h, hheight => by
      have hline := h.nextLine (hheight v.enter (by simp [enters]))
      have hlines := Whole.nextLines n hline fun t ht => hheight t (by simp [enters, ht])
      rw [List.append_assoc] at hlines
      exact hlines

theorem Whole.advance (h : Whole old height log v) (cycles : Nat)
    (hheight : ∀ t ∈ v.starts cycles, t.height = height) :
    Whole old height (log ++ v.starts cycles) (v.advance cycles).2 :=
  Whole.nextLines _ (h.congr (w := { v with
    lineCycles := (v.lineCycles + cycles) % cyclesPerLine }) rfl rfl) hheight

end MasterSystem.Video.Vdp
