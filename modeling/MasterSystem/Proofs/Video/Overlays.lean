import MasterSystem.Proofs.Video.SpriteTables

/-! # Sprites of the legacy modes

What the sprites of a legacy mode leave of a line, and which flags they raise, said of the whole
table at once.  A transparent sprite shows nothing, but it hides the ones behind it and meets
others as any sprite does.

* **Sprites.**  `legacyCovering` are the sprites that cover a line, and `legacyMark` says whether
  the pattern of a sprite has a bit in a column of the screen.
* **Drawing.**  A line that sprites are drawn over shows a layer of pixels that may be transparent
  (`Overlay.Shows`).
* **Status.**  The first overflow stores a number in the low bits (`legacyStatus_low`).
* **Lines.**  `legacy_sprites` puts them together. -/

namespace MasterSystem.Video.Vdp

/-! ### Sprites -/

/-- The sprites that cover a line, in table order up to the end of the table. -/
def legacyCovering (v : Vdp) (line : Nat) : List Nat :=
  Sprite.covering (fun i => v.legacyByte i 0 == 0xD0)
    (fun i => (v.legacyPlace i).covers line) (List.range 32)

/-- The pattern of sprite `i` has a bit in a column of the screen. -/
def legacyMark (v : Vdp) (line i : Nat) (x : Fin screenWidth) : Bool :=
  match (v.legacyPlace i).column? x with
  | some column => v.legacyDot i ((v.legacyPlace i).row line) column
  | none => false

/-- The number of the colour of sprite `i`, zero if it is transparent. -/
def legacyTint (v : Vdp) (i : Nat) : UInt8 := v.legacyByte i 3 &&& 0x0F

/-- Two of some sprites have a bit in the same column. -/
def LegacyMeet (v : Vdp) (line : Nat) (is : List Nat) : Prop :=
  ∃ i ∈ is, ∃ j ∈ is, i ≠ j ∧ ∃ x, v.legacyMark line i x = true ∧ v.legacyMark line j x = true

/-- What sprite `i` puts on a line: its colour, which may be none. -/
def legacyLayer (v : Vdp) (line i : Nat) : Layer (Option Color) :=
  .row (v.legacyLeft i) (v.legacySize * v.legacyZoom) fun k =>
    if v.legacyBit i line (k / v.legacyZoom) then some (v.legacySpriteColor i) else none

theorem getD_legacySpriteColor (v : Vdp) (i : Nat) (old : Color) :
    (v.legacySpriteColor i).getD old =
      if v.legacyTint i = 0 then old else fixedColor (v.legacyTint i) := by
  unfold legacySpriteColor legacyTint
  rw [vramAt_legacyEntry]
  dsimp only
  split
  · rename_i hzero
    rw [if_pos (beq_iff_eq.1 hzero)]
    rfl
  · rename_i hcolor
    rw [if_neg (by simpa using hcolor)]
    rfl

theorem legacyLayer_eq (v : Vdp) (line i : Nat) (x : Fin screenWidth) :
    v.legacyLayer line i x =
      if v.legacyMark line i x = true then some (v.legacySpriteColor i) else none := by
  have hrow := (v.legacyPlace i).row_eq (fun k =>
    if v.legacyBit i line k then some (v.legacySpriteColor i) else none) x
  unfold legacyLayer legacyMark
  rw [legacyLeft_eq, legacySize_eq v i, legacyZoom_eq v i]
  refine hrow.trans ?_
  cases (v.legacyPlace i).column? x with
  | none => rfl
  | some column => simp only [Option.bind_some, legacyBit_eq]

theorem isSome_legacyLayer (v : Vdp) (line i : Nat) (x : Fin screenWidth) :
    (v.legacyLayer line i x).isSome = v.legacyMark line i x := by
  rw [legacyLayer_eq]
  cases v.legacyMark line i x <;> rfl

/-- The first sprite that has a bit in a column decides what is seen there. -/
theorem stack_legacy (v : Vdp) (line : Nat) (x : Fin screenWidth) (is : List Nat) :
    Layer.stack (is.map (v.legacyLayer line)) x =
      (is.find? fun i => v.legacyMark line i x).map v.legacySpriteColor := by
  simp only [Layer.stack_map, isSome_legacyLayer]
  cases h : is.find? fun i => v.legacyMark line i x with
  | none => rfl
  | some i =>
      have hmark : v.legacyMark line i x = true :=
        List.find?_some (p := fun i => v.legacyMark line i x) h
      rw [Option.bind_some, legacyLayer_eq, if_pos hmark]
      rfl

theorem someMeet_legacy (v : Vdp) (line : Nat) {is : List Nat} (h : is.Nodup) :
    Layer.SomeMeet (is.map (v.legacyLayer line)) ↔ v.LegacyMeet line is := by
  rw [Layer.someMeet_iff h]
  unfold LegacyMeet Layer.Meets
  simp only [isSome_legacyLayer]

theorem legacySpritesOn_eq (v : Vdp) (line : Nat) :
    v.legacySpritesOn line = ((v.legacyCovering line).take 4, (v.legacyCovering line)[4]?) := by
  have hends (i : Nat) : v.vramAt (v.legacyEntry i) = v.legacyByte i 0 := v.vramAt_legacyEntry i 0
  unfold legacySpritesOn legacyCovering
  simp only [legacyCovers_eq, hends, Sprite.search_eq, ← List.range_eq_range']

/-! ### Drawing -/

/-- The line `base` with a layer drawn over it, two sprites having met or not. -/
structure Overlay.Shows (base : Array Color) (o : Overlay) (a : Layer (Option Color))
    (met : Prop) : Prop where
  size : o.row.size = base.size
  width : o.taken.size = screenWidth
  taken : ∀ x : Fin screenWidth, o.taken.getD x false = (a x).isSome
  row : ∀ x : Fin screenWidth, o.row[x.val]? = base[x.val]?.map (a x).join.getD
  collision : o.collision = true ↔ met

theorem Overlay.Shows.clear (base : Array Color) :
    Overlay.Shows base ⟨base, Array.replicate screenWidth false, false⟩ .clear False where
  size := rfl
  width := Array.size_replicate
  taken x := getD_replicate screenWidth false x
  row _ := Option.map_id'.symm
  collision := ⟨nofun, False.elim⟩

section Pixels

variable {base : Array Color} {o : Overlay} {a : Layer (Option Color)} {met : Prop}
  {y : Fin screenWidth}

theorem Overlay.Shows.taken_put (h : o.Shows base a met) (y : Fin screenWidth)
    (color : Option Color) (x : Fin screenWidth) :
    (o.taken.setIfInBounds y true).getD x false =
      (Function.update a y (some color) x).isSome := by
  rw [getD_setIfInBounds h.width]
  by_cases hx : x = y
  · rw [hx, Function.update_self, Function.update_self]
    rfl
  · rw [Function.update_of_ne hx, Function.update_of_ne hx, h.taken x]

/-- A transparent pixel takes its column and leaves the line as it is. -/
theorem Overlay.Shows.hide (h : o.Shows base a met) (hfree : a y = none) :
    Overlay.Shows base { o with taken := o.taken.setIfInBounds y true }
      (Function.update a y (some none)) met where
  size := h.size
  width := Array.size_setIfInBounds.trans h.width
  taken := h.taken_put y none
  row x := by
    by_cases hx : x = y
    · have hrow := h.row y
      rw [hfree] at hrow
      rw [hx, Function.update_self]
      exact hrow
    · rw [Function.update_of_ne hx]
      exact h.row x
  collision := h.collision

theorem Overlay.Shows.paint (h : o.Shows base a met) (y : Fin screenWidth) (c : Color) :
    Overlay.Shows base
      { o with taken := o.taken.setIfInBounds y true, row := o.row.setIfInBounds y c }
      (Function.update a y (some (some c))) met where
  size := Array.size_setIfInBounds.trans h.size
  width := Array.size_setIfInBounds.trans h.width
  taken := h.taken_put y (some c)
  row x := by
    by_cases hx : x = y
    · rw [hx, Function.update_self, Array.getElem?_setIfInBounds, if_pos rfl, h.size]
      by_cases hy : y.val < base.size
      · rw [if_pos hy, Array.getElem?_eq_getElem hy]
        rfl
      · rw [if_neg hy, Array.getElem?_eq_none (Nat.le_of_not_lt hy)]
        rfl
    · rw [Function.update_of_ne hx, ← h.row x]
      exact Array.getElem?_setIfInBounds_ne fun hval => hx (Fin.ext hval.symm)
  collision := h.collision

end Pixels

/-- A pixel goes behind what is drawn over the line. -/
theorem draws_overlay (base : Array Color) (x : Int) (color : Option Color) (bit : Bool) :
    Draws (Overlay.Shows base) (fun o => if bit then o.plot x color else o)
      (.dot x (if bit then some color else none)) := by
  cases bit with
  | false => exact Layer.dot_none x ▸ draws_clear fun _ => rfl
  | true =>
      have hon (y : Fin screenWidth) :
          ¬((y.val : Int) < 0 || (screenWidth : Int) ≤ y.val) = true := by
        have hy := y.isLt
        simp [hy]
      refine draws_dot ?_ ?_ ?_
      · intro hx o
        show o.plot x color = o
        unfold Overlay.plot
        rw [if_pos]
        simpa using hx
      · rintro y o a met rfl h htaken
        show (o.plot y.val color).Shows base a True
        unfold Overlay.plot
        rw [if_neg (hon y), Int.toNat_natCast, h.taken y, if_pos htaken]
        exact ⟨h.size, h.width, h.taken, h.row, iff_of_true rfl trivial⟩
      · rintro y o a met rfl h hfree
        show (o.plot y.val color).Shows base _ met
        unfold Overlay.plot
        rw [if_neg (hon y), Int.toNat_natCast, h.taken y, hfree, if_neg (by decide)]
        cases color with
        | none => exact h.hide hfree
        | some c => exact h.paint y c

theorem overlayRow_eq (bit : Nat → Bool) (left : Int) (color : Option Color) :
    ∀ (n k : Nat) (o : Overlay), Overlay.plotRow bit left color n k o =
      (List.range' k n).foldl (fun o k => if bit k then o.plot (left + k) color else o) o
  | 0, _, _ => rfl
  | n + 1, k, _ => overlayRow_eq bit left color n (k + 1) _

/-- A sprite goes behind what is drawn over the line. -/
theorem draws_overlaySprite (v : Vdp) (base : Array Color) (line i : Nat) :
    Draws (Overlay.Shows base) (v.overlaySprite line · i) (v.legacyLayer line i) := by
  intro o a met h
  unfold overlaySprite
  dsimp only
  rw [overlayRow_eq, ← List.range_eq_range']
  exact Draws.row (fun k => draws_overlay base _ _ _) _ o a met h

/-! ### Status -/

/-- The number of a sprite fits into the low five bits. -/
theorem number_low {i : Nat} (h : i < 32) : UInt8.ofNat i &&& 0x1F = UInt8.ofNat i := by
  have hnumber : ∀ i : Fin 32, UInt8.ofNat i &&& 0x1F = UInt8.ofNat i := by decide
  exact hnumber ⟨i, h⟩

/-- The status after the collisions of a line. -/
def collided (status : UInt8) (collision : Bool) : UInt8 :=
  if collision then status ||| Status.collision else status

theorem collided_and {m : UInt8} (h : Status.collision &&& m = 0) (status : UInt8)
    (collision : Bool) : collided status collision &&& m = status &&& m := by
  unfold collided
  split
  · rw [Word.or_and, h, UInt8.or_zero]
  · rfl

theorem collided_collision (status : UInt8) (collision : Bool) :
    collided status collision &&& Status.collision ≠ 0 ↔
      status &&& Status.collision ≠ 0 ∨ collision = true := by
  cases collision with
  | false => simp [collided]
  | true =>
      have hne : (status &&& Status.collision) ||| (Status.collision &&& Status.collision) ≠ 0 :=
        fun hzero => absurd (UInt8.or_eq_zero_iff.1 hzero).2 (by decide)
      exact iff_of_true (Word.or_and .. ▸ hne) (.inr rfl)

/-- What an overflow does not write is as the collisions leave it. -/
theorem legacyStatus_high {m : UInt8} (hhigh : 0xE0 &&& m = m) (hlow : 0x5F &&& m = 0)
    (status : UInt8) {extra : Option Nat} (hextra : ∀ i, extra = some i → i < 32)
    (collision : Bool) :
    legacyStatus status extra collision &&& m = collided status collision &&& m := by
  have hunder : ∀ b : UInt8, b &&& 0x5F = b → b &&& m = 0 := fun b hb => by
    rw [← hb, UInt8.and_assoc, hlow, UInt8.and_zero]
  unfold legacyStatus
  cases extra with
  | none => rfl
  | some i =>
      show (if collided status collision &&& Status.overflow == 0 then
        (collided status collision &&& 0xE0) ||| Status.overflow ||| UInt8.ofNat i
        else collided status collision) &&& m = _
      split
      · rw [Word.or_and, Word.or_and, UInt8.and_assoc, hhigh, hunder Status.overflow (by decide),
          ← number_low (hextra i rfl), UInt8.and_assoc, hunder 0x1F (by decide), UInt8.and_zero,
          UInt8.or_zero, UInt8.or_zero]
      · rfl

/-- The first overflow stores the number of the sprite that was one too many. -/
theorem legacyStatus_low (status : UInt8) (extra : Option Nat) (collision : Bool) :
    (∀ i, extra = some i → i < 32) →
    legacyStatus status extra collision &&& 0x5F =
      match extra with
      | some i => if status &&& Status.overflow = 0 then Status.overflow ||| UInt8.ofNat i
        else status &&& 0x5F
      | none => status &&& 0x5F := by
  intro hextra
  have hcollided := collided_and (m := 0x5F) (by decide) status collision
  have hoverflow := collided_and (m := Status.overflow) (by decide) status collision
  unfold legacyStatus
  cases extra with
  | none => exact hcollided
  | some i =>
      show (if collided status collision &&& Status.overflow == 0 then
        (collided status collision &&& 0xE0) ||| Status.overflow ||| UInt8.ofNat i
        else collided status collision) &&& 0x5F = _
      dsimp only
      rw [hoverflow]
      by_cases hclear : status &&& Status.overflow = 0
      · rw [if_pos (beq_iff_eq.2 hclear), if_pos hclear, Word.or_and, Word.or_and, UInt8.and_assoc,
          show (0xE0 &&& 0x5F : UInt8) = Status.overflow by decide, hoverflow, hclear,
          UInt8.zero_or, show Status.overflow &&& 0x5F = Status.overflow by decide,
          ← number_low (hextra i rfl), UInt8.and_assoc,
          show (0x1F &&& 0x5F : UInt8) = 0x1F by decide]
      · rw [if_neg (by simpa using hclear), if_neg hclear, hcollided]

/-! ### Lines -/

/-- **Sprites of a legacy mode colour a line where the first of the four that cover it has a bit, if
it is not transparent.**  Any two of them that meet raise a flag.  A fifth raises one and leaves its
number, unless the flag is up already. -/
theorem legacy_sprites (v : Vdp) (line : Nat) (row : Array Color) :
    let covering := v.legacyCovering line
    let drawn := covering.take 4
    let out := v.drawLegacySprites line row
    out.1.size = row.size ∧
    (∀ x : Fin screenWidth, out.1[x.val]? = row[x.val]?.map fun old =>
      match drawn.find? fun i => v.legacyMark line i x with
      | some i => if v.legacyTint i = 0 then old else fixedColor (v.legacyTint i)
      | none => old) ∧
    out.2 = { v with status := out.2.status } ∧
    (out.2.status &&& Status.collision ≠ 0 ↔
      v.status &&& Status.collision ≠ 0 ∨ v.LegacyMeet line drawn) ∧
    (out.2.status &&& 0x5F = match covering[4]? with
      | some i => if v.status &&& Status.overflow = 0 then Status.overflow ||| UInt8.ofNat i
        else v.status &&& 0x5F
      | none => v.status &&& 0x5F) ∧
    out.2.status &&& Status.vblank = v.status &&& Status.vblank := by
  intro covering drawn out
  have hon := v.legacySpritesOn_eq line
  have hshows : ∃ o : Overlay, o.Shows row (Layer.stack (drawn.map (v.legacyLayer line)))
      (Layer.SomeMeet (drawn.map (v.legacyLayer line))) ∧
      out = (o.row, { v with status := legacyStatus v.status covering[4]? o.collision }) := by
    refine ⟨_, Draws.foldl_clear (fun i => v.draws_overlaySprite row line i) drawn (.clear row), ?_⟩
    show v.drawLegacySprites line row = _
    unfold drawLegacySprites
    rw [hon]
  obtain ⟨o, ho, hout⟩ := hshows
  have hextra : ∀ i, covering[4]? = some i → i < 32 := fun i hi =>
    List.mem_range.1 (Sprite.mem_of_mem_covering (List.mem_of_getElem? hi))
  have hnodup : drawn.Nodup := Sprite.nodup_take_covering ..
  rw [hout]
  refine ⟨ho.size, fun x => ?_, rfl, ?_, legacyStatus_low _ _ _ hextra, ?_⟩
  · rw [ho.row x, stack_legacy]
    congr 1
    funext old
    cases drawn.find? fun i => v.legacyMark line i x with
    | none => rfl
    | some i => exact v.getD_legacySpriteColor i old
  · rw [legacyStatus_high (by decide) (by decide) _ hextra, collided_collision, ho.collision,
      someMeet_legacy v line hnodup]
  · rw [legacyStatus_high (by decide) (by decide) _ hextra, collided_and (by decide)]

/-- Large sprites: one that its attributes put 32 columns to the left, a transparent one on its last
column, and three more. -/
def overlappingBytes (i : Nat) : UInt8 :=
  -- the lower left pattern and the lower right one
  if i = 0x29 then 0xC0
  else if i = 0x39 then 0x80
  -- the table
  else if i = 0x3F14 then 0xD0
  else if 0x3F00 ≤ i ∧ i < 0x3F14 ∧ i % 4 = 0 then 20
  else if i = 0x3F01 then 40
  else if i = 0x3F05 then 9
  else if i = 0x3F09 then 10
  else if i = 0x3F0D ∨ i = 0x3F11 then 100
  else if 0x3F00 ≤ i ∧ i < 0x3F14 ∧ i % 4 = 2 then 4
  else if i = 0x3F03 then 0x8F
  else if i = 0x3F0B ∨ i = 0x3F0F ∨ i = 0x3F13 then 0x04
  else 0

/-- A chip with these sprites. -/
def overlappingSprites : Vdp :=
  { new .legacy .ntsc with
    regs := #v[0, 2, 0, 0, 0, 0x7E, 0, 0, 0, 0, 0, 0, 0, 0, 0, 0] }.holding overlappingBytes

/-- The first sprite takes columns 8, 9 and 16, the transparent one 9, 10 and 17, the third one 10,
11 and 18, and the fourth one 100, 101 and 108.  There is a fifth, which has number four. -/
theorem legacy_sprites_of_overlap :
    let out := overlappingSprites.drawLegacySprites 30 (Array.replicate screenWidth 0x123456)
    (∀ x : Fin screenWidth, out.1[x.val]? = some (
      if x.val ∈ [8, 9, 16] then 0xFFFFFF
      else if x.val ∈ [11, 18, 100, 101, 108] then 0x5455ED
      else 0x123456)) ∧
    out.2.status &&& Status.collision ≠ 0 ∧ out.2.status &&& 0x5F = Status.overflow ||| 4 := by
  -- Of the chip just what is needed, so that no address is computed from its memory as a whole.
  obtain ⟨v, hv, hstatus, hregs, hvram⟩ : ∃ v : Vdp, overlappingSprites = v ∧ v.status = 0 ∧
      v.regs = #v[0, 2, 0, 0, 0, 0x7E, 0, 0, 0, 0, 0, 0, 0, 0, 0, 0] ∧
      v.vramAt = fun i => overlappingBytes (i % vramSize) :=
    ⟨_, rfl, rfl, rfl, vramAt_holding _ _⟩
  have hcovering : v.legacyCovering 30 = List.range 5 := by
    unfold legacyCovering legacyPlace legacyByte flag register
    rw [hregs, hvram]
    decide +kernel
  have hmeet : v.LegacyMeet 30 ((List.range 5).take 4) := by
    refine ⟨0, by decide, 1, by decide, by decide, ⟨9, by decide⟩, ?_⟩
    unfold legacyMark legacyDot legacyPlace legacyByte flag register
    rw [hregs, hvram]
    decide +kernel
  obtain ⟨-, hpixel, -, hcollision, hlow, -⟩ :=
    legacy_sprites v 30 (Array.replicate screenWidth 0x123456)
  rw [hcovering] at hpixel hcollision hlow
  rw [hv]
  refine ⟨fun x => ?_, hcollision.2 (.inr hmeet), ?_⟩
  · rw [hpixel x, Array.getElem?_replicate, if_pos x.isLt, Option.map_some]
    congr 1
    unfold legacyMark legacyTint legacyDot legacyPlace legacyByte flag register
    rw [hregs, hvram]
    revert x
    decide +kernel
  · rw [hlow, hstatus]
    rfl

end MasterSystem.Video.Vdp
