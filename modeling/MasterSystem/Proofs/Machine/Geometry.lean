import MasterSystem.Machine.Basic
import MasterSystem.Proofs.Video.Safety

/-! # The geometry of the picture

A host's picture is put together from the field shown, row by row.  Whether this reaches past the
end of an array, and what it gives, is a matter of where the rows lie.

* **Rows.**  Pixels show a colour in each column of each row (`Shows`).  A copy whose columns and
  row lie within the picture changes these and no others (`Shows.copy`), and so do several, row
  after row (`Shows.rows`).
* **Pictures.**  A field of a proper shape fits into every picture, on both displays (`gear?_eq`,
  `television?_eq`), with a border as broad on the one side as on the other (`height_eq`). -/

namespace MasterSystem.Picture

open Video (Vdp Frame Color)

/-! ### Rows -/

/-- Pixels, row by row, with the colour `g x y` in column `x` of row `y`. -/
structure Shows (pixels : Array Color) (width height : Nat) (g : Nat → Nat → Color) : Prop where
  size : pixels.size = width * height
  color : ∀ x < width, ∀ y < height, pixels[y * width + x]? = some (g x y)

section

variable {pixels : Array Color} {width height : Nat} {g : Nat → Nat → Color}

theorem Shows.congr (h : Shows pixels width height g) {g' : Nat → Nat → Color}
    (hg : ∀ x < width, ∀ y < height, g x y = g' x y) : Shows pixels width height g' :=
  ⟨h.size, fun x hx y hy => by rw [h.color x hx y hy, hg x hx y hy]⟩

theorem Shows.replicate (width height : Nat) (c : Color) :
    Shows (Array.replicate (width * height) c) width height fun _ _ => c := by
  refine ⟨Array.size_replicate, fun x hx y hy => ?_⟩
  rw [Array.getElem?_replicate, if_pos (Vdp.row_lt hx hy)]

theorem Shows.eq_tabulate (h : Shows pixels width height g) :
    (⟨width, height, pixels⟩ : Frame) = .tabulate width height g := by
  have hpixels : pixels = (Frame.tabulate width height g).pixels := by
    refine Array.ext (h.size.trans Array.size_ofFn.symm) fun i hi hi' => ?_
    have hcolumn : 0 < width := by
      rw [h.size] at hi
      exact Nat.pos_of_mul_pos_right (Nat.zero_lt_of_lt hi)
    have hplace := Nat.div_add_mod i width
    have hrow : i / width < height := Nat.div_lt_of_lt_mul (h.size ▸ hi)
    have hcolor := h.color (i % width) (Nat.mod_lt i hcolumn) (i / width) hrow
    rw [Nat.mul_comm, hplace, Array.getElem?_eq_getElem hi] at hcolor
    rw [Option.some.inj hcolor]
    simp only [Frame.tabulate, Array.getElem_ofFn]
  rw [hpixels]
  rfl

/-- The places of some columns of a row, and no others, lie in its stretch. -/
theorem stretch_iff {left n top x y : Nat} (hleft : left + n ≤ width) (hx : x < width) :
    top * width + left ≤ y * width + x ∧ y * width + x < top * width + left + n ↔
      y = top ∧ left ≤ x ∧ x < left + n := by
  constructor
  · intro h
    obtain hbelow | rfl | habove := Nat.lt_trichotomy y top
    · have hrows := Nat.mul_le_mul_right width (Nat.succ_le_of_lt hbelow)
      rw [Nat.succ_mul] at hrows
      omega
    · omega
    · have hrows := Nat.mul_le_mul_right width (Nat.succ_le_of_lt habove)
      rw [Nat.succ_mul] at hrows
      omega
  · rintro ⟨rfl, hcolumns⟩
    omega

/-- Colours are copied into some columns of a row. -/
theorem Shows.copy (h : Shows pixels width height g) {colors : Array Color}
    {source n left top : Nat} (hsource : source + n ≤ colors.size) (hleft : left + n ≤ width)
    (htop : top < height) :
    ∃ drawn, copy? colors source n (top * width + left) pixels = some drawn ∧
      Shows drawn width height fun x y =>
        if y = top ∧ left ≤ x ∧ x < left + n then colors.getD (source + (x - left)) 0
        else g x y := by
  have htarget : top * width + left + n ≤ pixels.size := by
    have hrow := Nat.mul_le_mul_right width (Nat.succ_le_of_lt htop)
    rw [Nat.succ_mul] at hrow
    rw [h.size, Nat.mul_comm width]
    omega
  refine ⟨_, if_pos ⟨hsource, htarget⟩, (Vdp.copyRow_size ..).trans h.size, ?_⟩
  intro x hx y hy
  rw [Vdp.copyRow_get _ _ _ _ _ _ (h.size ▸ Vdp.row_lt hx hy), h.color x hx y hy]
  by_cases hin : y = top ∧ left ≤ x ∧ x < left + n
  · rw [if_pos ((stretch_iff hleft hx).2 hin), if_pos hin, hin.1,
      show top * width + x - (top * width + left) = x - left by omega]
  · rw [if_neg (mt (stretch_iff hleft hx).1 hin), if_neg hin]

/-- Rows that are each drawn in some columns are drawn one after the other. -/
theorem Shows.rows {row : Nat → Array Color → Option (Array Color)} {c : Nat → Nat → Color}
    {left n top : Nat} : ∀ (count y : Nat) {pixels : Array Color} {g : Nat → Nat → Color},
    Shows pixels width height g →
    (∀ z, y ≤ z → z < y + count → ∀ {pixels g}, Shows pixels width height g →
      ∃ drawn, row z pixels = some drawn ∧ Shows drawn width height fun x u =>
        if u = top + z ∧ left ≤ x ∧ x < left + n then c x u else g x u) →
    ∃ drawn, rows? row count y pixels = some drawn ∧ Shows drawn width height fun x u =>
      if (top + y ≤ u ∧ u < top + y + count) ∧ left ≤ x ∧ x < left + n then c x u else g x u := by
  intro count
  induction count with
  | zero =>
      intro y pixels g h _
      refine ⟨pixels, rfl, h.congr fun x _ u _ => ?_⟩
      rw [if_neg (by omega)]
  | succ count ih =>
      intro y pixels g h hrow
      obtain ⟨first, hfirst, hshows⟩ := hrow y (Nat.le_refl y) (by omega) h
      obtain ⟨drawn, hdrawn, hall⟩ := ih (y + 1) hshows fun z hz hlast =>
        hrow z (by omega) (by omega)
      refine ⟨drawn, ?_, hall.congr fun x _ u _ => ?_⟩
      · rw [rows?, hfirst]
        exact hdrawn
      · by_cases hin : (top + (y + 1) ≤ u ∧ u < top + (y + 1) + count) ∧ left ≤ x ∧ x < left + n
        · rw [if_pos hin, if_pos (by omega)]
        · by_cases hnow : u = top + y ∧ left ≤ x ∧ x < left + n
          · rw [if_neg hin, if_pos hnow, if_pos (by omega)]
          · rw [if_neg hin, if_neg hnow, if_neg (by omega)]

end

/-! ### Pictures -/

/-- A field that the video processor shows. -/
structure Shaped (v : Vdp) : Prop where
  width : v.display.width = 256
  height : v.display.height = 192 ∨ v.display.height = 224 ∨ v.display.height = 240
  size : v.display.pixels.size = v.display.width * v.display.height

theorem shaped_iff {v : Vdp} : v.displayConsistent = true ↔ Shaped v := by
  unfold Vdp.displayConsistent
  simp only [Bool.and_eq_true, Bool.or_eq_true, beq_iff_eq]
  exact ⟨fun h => ⟨h.1.1, or_assoc.1 h.1.2, h.2⟩, fun h => ⟨⟨h.width, or_assoc.2 h.height⟩, h.size⟩⟩

/-- The picture of the Game Gear: a window in the middle of the field. -/
def gearColor (v : Vdp) (x y : Nat) : Color := v.display.colorAt (gearLeft + x) (windowTop v + y)

/-- The field in a television picture, perhaps without its leftmost columns. -/
def fieldColor (v : Vdp) (s : Settings) (x y : Nat) : Color :=
  if hidesLeft v s = true ∧ x - s.overscan.side < leftBarWidth then 0
  else v.display.colorAt (x - s.overscan.side) (y - border v s)

/-- The television picture: the field in its middle, and the backdrop around it. -/
def televisionColor (v : Vdp) (s : Settings) (x y : Nat) : Color :=
  if (border v s ≤ y ∧ y < border v s + v.display.height) ∧
      s.overscan.side ≤ x ∧ x < s.overscan.side + v.display.width then fieldColor v s x y
  else v.backdrop

variable {v : Vdp} {width height : Nat} {pixels : Array Color} {g : Nat → Nat → Color}

/-- Columns of a line of the field are within its pixels. -/
theorem Shaped.line_le (h : Shaped v) {line x n : Nat} (hline : line < v.display.height)
    (hcolumns : x + n ≤ 256) : line * v.display.width + x + n ≤ v.display.pixels.size := by
  rw [h.size, h.width, Nat.mul_comm 256]
  omega

theorem Shaped.windowTop_add_le (h : Shaped v) :
    windowTop v + gearHeight ≤ v.display.height := by
  have hheight := h.height
  unfold windowTop gearTop gearHeight
  omega

theorem Shaped.windowRow (h : Shaped v) {z : Nat} (hz : z < gearHeight)
    (hpixels : Shows pixels gearWidth gearHeight g) :
    ∃ drawn, windowRow? v z pixels = some drawn ∧ Shows drawn gearWidth gearHeight fun x u =>
      if u = 0 + z ∧ 0 ≤ x ∧ x < 0 + gearWidth then gearColor v x u else g x u := by
  have hwindow := h.windowTop_add_le
  have hline : windowTop v + z < v.display.height := by omega
  have hsource := h.line_le hline (show gearLeft + gearWidth ≤ 256 by decide)
  have hleft : 0 + gearWidth ≤ gearWidth := by decide
  obtain ⟨drawn, hdrawn, hshows⟩ := hpixels.copy hsource hleft hz
  refine ⟨drawn, hdrawn, hshows.congr fun x _ u _ => ?_⟩
  rw [Nat.zero_add z]
  split
  · rename_i hin
    rw [Nat.sub_zero, Nat.add_assoc, hin.1]
    rfl
  · rfl

theorem Shaped.gear?_eq (h : Shaped v) :
    gear? v = some (.tabulate gearWidth gearHeight (gearColor v)) := by
  have hwindow := h.windowTop_add_le
  have hrows : min gearHeight (v.display.height - windowTop v) = gearHeight := by omega
  obtain ⟨drawn, hdrawn, hshows⟩ := (Shows.replicate gearWidth gearHeight 0).rows gearHeight 0
    fun z _ hz => h.windowRow (z := z) (by omega)
  have hpicture : Shows drawn gearWidth gearHeight (gearColor v) :=
    hshows.congr fun x hx y hy => if_pos (by omega)
  unfold gear?
  rw [hrows, hdrawn, ← hpicture.eq_tabulate]
  rfl

/-- The field stands in the middle: the border below it is that above it. -/
theorem Shaped.height_eq (h : Shaped v) (s : Settings) :
    Picture.height v s = border v s + v.display.height + border v s := by
  have hheight := h.height
  unfold border Picture.height Overscan.fullHeight
  cases s.overscan <;> cases v.timing <;> dsimp only <;> omega

theorem Shaped.fieldRow (h : Shaped v) (s : Settings) {z : Nat} (hz : z < v.display.height)
    (hpixels : Shows pixels (Picture.width v s) (Picture.height v s) g) :
    ∃ drawn, fieldRow? v s z pixels = some drawn ∧
      Shows drawn (Picture.width v s) (Picture.height v s) fun x u =>
        if u = border v s + z ∧ s.overscan.side ≤ x ∧ x < s.overscan.side + v.display.width then
          fieldColor v s x u
        else g x u := by
  have hrow : border v s + z < Picture.height v s := by
    have := h.height_eq s
    omega
  have hcolumns : s.overscan.side + v.display.width ≤ Picture.width v s := by
    unfold Picture.width
    omega
  have hwhole : 0 + v.display.width ≤ 256 := by
    have hwidth := h.width
    omega
  have hsource := h.line_le hz hwhole
  obtain ⟨copied, hcopied, hfield⟩ := hpixels.copy hsource hcolumns hrow
  rw [Nat.add_zero] at hcopied
  unfold fieldRow?
  dsimp only
  rw [hcopied]
  show ∃ drawn, (if hidesLeft v s then _ else some copied) = some drawn ∧ _
  -- The colour of the field is the one copied, in the columns that are not blanked.
  have hshown (x u : Nat) (hu : u = border v s + z) :
      v.display.pixels.getD (z * v.display.width + 0 + (x - s.overscan.side)) 0 =
        v.display.colorAt (x - s.overscan.side) (u - border v s) := by
    rw [hu, Nat.add_sub_cancel_left, Nat.add_zero]
    rfl
  by_cases hhidden : hidesLeft v s = true
  · have hwide : leftBarWidth ≤ v.display.width := by
      rw [h.width]
      decide
    have hbar : s.overscan.side + leftBarWidth ≤ Picture.width v s := by omega
    have hblacks : 0 + leftBarWidth ≤ (Array.replicate leftBarWidth (0 : Color)).size := by simp
    obtain ⟨drawn, hdrawn, hblanked⟩ := hfield.copy hblacks hbar hrow
    refine ⟨drawn, ?_, hblanked.congr fun x _ u _ => ?_⟩
    · rw [if_pos hhidden, blankRow?, if_pos hwide]
      exact hdrawn
    · unfold fieldColor
      rw [Video.getD_replicate]
      by_cases hin : u = border v s + z ∧ s.overscan.side ≤ x ∧
          x < s.overscan.side + v.display.width
      · rw [if_pos hin, hshown x u hin.1]
        by_cases hleft : x < s.overscan.side + leftBarWidth
        · rw [if_pos ⟨hin.1, hin.2.1, hleft⟩, if_pos hin, if_pos ⟨hhidden, by omega⟩]
        · rw [if_neg (by omega), if_pos hin, if_neg (by omega)]
      · rw [if_neg (by omega), if_neg hin, if_neg hin]
  · refine ⟨copied, if_neg hhidden, hfield.congr fun x _ u _ => ?_⟩
    unfold fieldColor
    split
    · rename_i hin
      rw [hshown x u hin.1, if_neg (by simp [hhidden])]
    · rfl

theorem Shaped.television?_eq (h : Shaped v) (s : Settings) :
    television? v s =
      some (.tabulate (Picture.width v s) (Picture.height v s) (televisionColor v s)) := by
  have hheight := h.height_eq s
  obtain ⟨drawn, hdrawn, hshows⟩ :=
    (Shows.replicate (Picture.width v s) (Picture.height v s) v.backdrop).rows
      v.display.height 0 fun z _ hz => h.fieldRow s (z := z) (by omega)
  unfold television?
  rw [if_pos (by omega), hdrawn]
  exact congrArg some hshows.eq_tabulate

theorem tabulate_size (width height : Nat) (g : Nat → Nat → Color) :
    (Frame.tabulate width height g).pixels.size = width * height := Array.size_ofFn

theorem frame_of_some {s : Settings} {f : Frame} (h : frame? v s = some f) : frame v s = f := by
  rw [frame, h]
  rfl

theorem Shaped.frame_gear (h : Shaped v) (s : Settings) (hmodel : v.model = .gameGear) :
    frame? v s = some (.tabulate gearWidth gearHeight (gearColor v)) := by
  rw [frame?, if_pos hmodel, h.gear?_eq]

theorem Shaped.frame_television (h : Shaped v) (s : Settings) (hmodel : v.model ≠ .gameGear) :
    frame? v s =
      some (.tabulate (Picture.width v s) (Picture.height v s) (televisionColor v s)) := by
  rw [frame?, if_neg hmodel, h.television?_eq]

theorem hidesLeft_iff (v : Vdp) (s : Settings) :
    hidesLeft v s = true ↔
      v.model = .master ∧
        (s.leftBar = .always ∨ s.leftBar = .auto ∧ v.leftColumnMasked = true) := by
  unfold hidesLeft
  cases s.leftBar <;> simp

/-! ### Sizes -/

theorem copy?_size {colors drawn : Array Color} {source n target : Nat}
    (h : copy? colors source n target pixels = some drawn) : drawn.size = pixels.size := by
  unfold copy? at h
  split at h
  · rw [← Option.some.inj h, Vdp.copyRow_size]
  · cases h

theorem rows?_size {row : Nat → Array Color → Option (Array Color)}
    (hrow : ∀ y pixels drawn, row y pixels = some drawn → drawn.size = pixels.size) :
    ∀ {n y : Nat} {pixels drawn : Array Color}, rows? row n y pixels = some drawn →
      drawn.size = pixels.size
  | 0, _, _, _, h => by rw [← Option.some.inj h]
  | n + 1, y, pixels, drawn, h => by
      obtain ⟨first, hfirst, hrest⟩ := Option.bind_eq_some_iff.1 h
      rw [rows?_size hrow hrest, hrow y pixels first hfirst]

theorem fieldRow?_size {s : Settings} (y : Nat) (pixels drawn : Array Color)
    (h : fieldRow? v s y pixels = some drawn) : drawn.size = pixels.size := by
  unfold fieldRow? at h
  dsimp only at h
  obtain ⟨copied, hcopied, hrest⟩ := Option.bind_eq_some_iff.1 h
  rw [← copy?_size hcopied]
  split at hrest
  · unfold blankRow? at hrest
    split at hrest
    · exact copy?_size hrest
    · cases hrest
  · rw [← Option.some.inj hrest]

/-- Whatever the field is like, a host gets a picture of the size that it was told. -/
theorem frame_pixels_size (v : Vdp) (s : Settings) :
    (frame v s).pixels.size = (size v s).1 * (size v s).2 := by
  have hmade {f : Frame} (h : frame? v s = some f) :
      f.pixels.size = (size v s).1 * (size v s).2 := by
    unfold frame? at h
    unfold size
    split at h
    · rename_i hmodel
      rw [if_pos hmodel]
      obtain ⟨drawn, hdrawn, hpicture⟩ := Option.bind_eq_some_iff.1 h
      rw [← Option.some.inj hpicture]
      exact (rows?_size (fun _ _ _ => copy?_size) hdrawn).trans Array.size_replicate
    · rename_i hmodel
      rw [if_neg hmodel]
      unfold television? at h
      split at h
      · obtain ⟨drawn, hdrawn, hpicture⟩ := Option.bind_eq_some_iff.1 h
        rw [← Option.some.inj hpicture]
        exact (rows?_size fieldRow?_size hdrawn).trans Array.size_replicate
      · cases h
  unfold frame
  cases hframe : frame? v s with
  | none => exact Array.size_replicate
  | some f => exact hmade hframe

end MasterSystem.Picture

namespace MasterSystem.Machine

open Picture Video

/-- **The geometry of the picture.**  A machine that shows a field of a proper shape can put its
picture together, of the size that the host is told.  On the Game Gear it is the window in the
middle of the field.  Otherwise it is the field with a border of the backdrop's colour, as broad
above as below and on the left as on the right, and the first eight columns of the field are black
when they are hidden. -/
theorem output_geometry {m : Machine} (h : m.board.vdp.displayConsistent = true) :
    let v := m.board.vdp
    let s := m.settings
    let d := v.display
    let f := m.outputFrame
    frame? v s = some f ∧ (f.width, f.height) = m.outputSize ∧
    f.pixels.size = f.width * f.height ∧
    (v.model = .gameGear → m.outputSize = (160, 144) ∧
      ∀ x < 160, ∀ y < 144,
        f.colorAt x y = d.colorAt (48 + x) (24 + (d.height - 192) / 2 + y)) ∧
    (v.model ≠ .gameGear →
      let side := s.overscan.side
      let top := (f.height - d.height) / 2
      let hidden := v.model = .master ∧
        (s.leftBar = .always ∨ s.leftBar = .auto ∧ v.leftColumnMasked = true)
      f.width = side + 256 + side ∧ f.height = top + d.height + top ∧
      ∀ x < f.width, ∀ y < f.height, f.colorAt x y =
        if side ≤ x ∧ x < side + 256 ∧ top ≤ y ∧ y < top + d.height then
          if hidden ∧ x - side < 8 then 0 else d.colorAt (x - side) (y - top)
        else v.backdrop) := by
  intro v s d f
  have hshaped : Shaped v := shaped_iff.1 h
  by_cases hmodel : v.model = .gameGear
  · have hframe := hshaped.frame_gear s hmodel
    have hf : f = .tabulate gearWidth gearHeight (gearColor v) := frame_of_some hframe
    have hsize : m.outputSize = (160, 144) := if_pos hmodel
    rw [hf]
    refine ⟨hframe, hsize.symm, tabulate_size .., fun _ => ⟨hsize, fun x hx y hy => ?_⟩,
      fun hother => absurd hmodel hother⟩
    exact Frame.colorAt_tabulate _ hx hy
  · have hframe := hshaped.frame_television s hmodel
    have hf : f = .tabulate (width v s) (height v s) (televisionColor v s) := frame_of_some hframe
    have hsize : m.outputSize = (width v s, height v s) := if_neg hmodel
    rw [hf]
    refine ⟨hframe, hsize.symm, tabulate_size .., fun hgear => absurd hgear hmodel, fun _ => ?_⟩
    intro side top hidden
    have hwidth : width v s = side + 256 + side := by
      show v.display.width + 2 * s.overscan.side = _
      rw [hshaped.width]
      omega
    refine ⟨hwidth, hshaped.height_eq s, fun x hx y hy => ?_⟩
    refine (Frame.colorAt_tabulate (televisionColor v s) hx hy).trans ?_
    unfold televisionColor fieldColor
    rw [hshaped.width]
    refine ite_congr (propext ?_) (fun _ => ite_congr (propext ?_) (fun _ => rfl) fun _ => rfl)
      fun _ => rfl
    · exact ⟨fun h => ⟨h.2.1, h.2.2, h.1⟩, fun h => ⟨h.2.2, h.1, h.2.1⟩⟩
    · rw [hidesLeft_iff]
      exact Iff.rfl

/-- A television picture with all of its border and the left columns hidden, and the Game Gear's
window, of machines that were just turned on. -/
theorem output_geometry_at_power_on :
    let shown := new { overscan := .full284, leftBar := .always }
    let gear := (new {}).mapBoard fun b => { b with vdp := .new .gameGear .ntsc }
    shown.outputSize = (284, 240) ∧
      (∀ x < 284, x < 14 → shown.outputFrame.colorAt x 0 = shown.board.vdp.backdrop) ∧
      shown.outputFrame.colorAt 21 24 = 0 ∧
      shown.outputFrame.colorAt 22 24 = shown.board.vdp.display.colorAt 8 0 ∧
      gear.outputFrame.colorAt 159 143 = gear.board.vdp.display.colorAt 207 167 := by
  intro shown gear
  have hshown : shown.board.vdp.displayConsistent = true := (Vdp.Framed.new .master .ntsc).display
  have hgear : gear.board.vdp.displayConsistent = true := (Vdp.Framed.new .gameGear .ntsc).display
  obtain ⟨-, hsize, -, -, htelevision⟩ := output_geometry hshown
  obtain ⟨-, -, -, hwindow, -⟩ := output_geometry hgear
  obtain ⟨-, -, hcolor⟩ := htelevision (by decide)
  have hshape : shown.outputSize = (284, 240) := by decide
  have hfield : shown.board.vdp.display.height = 192 := rfl
  have hside : shown.settings.overscan.side = 14 := rfl
  have hidden : shown.board.vdp.model = .master ∧ (shown.settings.leftBar = .always ∨
      shown.settings.leftBar = .auto ∧ shown.board.vdp.leftColumnMasked = true) :=
    ⟨rfl, .inl rfl⟩
  rw [hshape, Prod.mk.injEq] at hsize
  rw [hsize.1, hsize.2, hfield, hside] at hcolor
  refine ⟨hshape, fun x hx hleft => ?_, ?_, ?_, ?_⟩
  · rw [hcolor x hx 0 (by decide)]
    exact if_neg (by omega)
  · rw [hcolor 21 (by decide) 24 (by decide), if_pos (by decide)]
    exact if_pos ⟨hidden, by decide⟩
  · rw [hcolor 22 (by decide) 24 (by decide), if_pos (by decide)]
    exact if_neg fun h => absurd h.2 (by decide)
  · have hlines : gear.board.vdp.display.height = 192 := rfl
    have hcorner := (hwindow rfl).2 159 (by decide) 143 (by decide)
    rw [hlines] at hcorner
    exact hcorner

end MasterSystem.Machine
