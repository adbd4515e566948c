import MasterSystem.Proofs.Video.SpriteTables

/-! # Sprites of the newer mode

What a line of sprites shows, and which flags it raises, said of the whole table at once.

* **Sprites.**  `spritesCovering` are the sprites that cover a line, and `spriteColor` is the colour
  number of a sprite in a column of the screen.
* **Drawing.**  A line of sprites shows a layer (`SpriteLine.Shows`).  A pixel, a row and a sprite
  draw theirs behind it.
* **Lines.**  `sprite_line` puts them together. -/

namespace MasterSystem.Video.Vdp

/-! ### Sprites -/

/-- The sprites that cover a line, in table order up to the end of the table. -/
def spritesCovering (v : Vdp) (line : Nat) : List Nat :=
  Sprite.covering (fun i => v.activeHeight == 192 && v.spriteByte i == 0xD0)
    (fun i => (v.spritePlace i).covers line) (List.range 64)

/-- The colour number that sprite `i` has in a column of the screen, zero where it has none. -/
def spriteColor (v : Vdp) (line i : Nat) (x : Fin screenWidth) : UInt8 :=
  match (v.spritePlace i).column? x with
  | some column => v.spriteDot i ((v.spritePlace i).row line) column
  | none => 0

/-- Two of some sprites have a pixel in the same column. -/
def SpritesMeet (v : Vdp) (line : Nat) (is : List Nat) : Prop :=
  ∃ i ∈ is, ∃ j ∈ is, i ≠ j ∧ ∃ x, v.spriteColor line i x ≠ 0 ∧ v.spriteColor line j x ≠ 0

instance (v : Vdp) (line : Nat) (is : List Nat) : Decidable (v.SpritesMeet line is) :=
  inferInstanceAs (Decidable (∃ i ∈ is, ∃ j ∈ is, i ≠ j ∧ ∃ _ : Fin screenWidth, _))

/-- The palette index of a colour number, if it is not transparent. -/
def tint (color : UInt8) : Option UInt8 := if color = 0 then none else some (0x10 ||| color)

/-- What sprite `i` shows on a line, as an index into the palette. -/
def spriteLayer (v : Vdp) (line i : Nat) : Layer UInt8 :=
  .row (v.spriteLeft i) (8 * v.spriteZoom) fun k =>
    tint ((v.spritePlanes i line).pixel (k / v.spriteZoom))

theorem spriteLayer_eq (v : Vdp) (line i : Nat) (x : Fin screenWidth) :
    v.spriteLayer line i x = tint (v.spriteColor line i x) := by
  have hrow := (v.spritePlace i).row_eq (fun k => tint ((v.spritePlanes i line).pixel k)) x
  unfold spriteLayer spriteColor
  rw [spriteLeft_eq, spriteZoom_eq v i]
  refine hrow.trans ?_
  cases hcolumn : (v.spritePlace i).column? x with
  | none => rfl
  | some column =>
      exact congrArg tint (v.spritePlanes_pixel line i (Sprite.Place.column?_lt hcolumn))

theorem isSome_spriteLayer (v : Vdp) (line i : Nat) (x : Fin screenWidth) :
    (v.spriteLayer line i x).isSome = true ↔ v.spriteColor line i x ≠ 0 := by
  rw [spriteLayer_eq]
  unfold tint
  split <;> simp [*]

theorem spritesOn_eq (v : Vdp) (line : Nat) :
    v.spritesOn line = ((v.spritesCovering line).take 8, (v.spritesCovering line)[8]?) := by
  unfold spritesOn spriteEnds spritesCovering
  simp only [spriteCovers_eq, vramAt_spriteTable, Sprite.search_eq, ← List.range_eq_range']

/-- Of sprites over one another the first that has a pixel in a column is seen there. -/
theorem stack_sprites (v : Vdp) (line : Nat) (x : Fin screenWidth) (is : List Nat) :
    (Layer.stack (is.map (v.spriteLayer line)) x).getD 0 =
      match is.find? fun i => v.spriteColor line i x != 0 with
      | some i => 0x10 ||| v.spriteColor line i x
      | none => 0 := by
  have hseen : (fun i => (v.spriteLayer line i x).isSome) =
      fun i => v.spriteColor line i x != 0 :=
    funext fun i => Bool.eq_iff_iff.2 ((v.isSome_spriteLayer line i x).trans bne_iff_ne.symm)
  rw [Layer.stack_map, hseen]
  cases h : is.find? fun i => v.spriteColor line i x != 0 with
  | none => rfl
  | some i =>
      have hfound := List.find?_some (p := fun i => v.spriteColor line i x != 0) h
      rw [Option.bind_some, spriteLayer_eq, tint, if_neg (bne_iff_ne.1 hfound)]
      rfl

theorem someMeet_sprites (v : Vdp) (line : Nat) {is : List Nat} (h : is.Nodup) :
    Layer.SomeMeet (is.map (v.spriteLayer line)) ↔ v.SpritesMeet line is := by
  rw [Layer.someMeet_iff h]
  unfold SpritesMeet Layer.Meets
  simp only [isSome_spriteLayer]

/-! ### Drawing -/

/-- A line of sprites that shows a layer, two sprites having met on it or not. -/
structure SpriteLine.Shows (s : SpriteLine) (a : Layer UInt8) (met : Prop) : Prop where
  size : s.pixels.size = screenWidth
  pixel : ∀ x : Fin screenWidth, s.pixels.getD x 0 = (a x).getD 0
  solid : ∀ x, a x ≠ some 0
  collision : s.collision = true ↔ met

theorem SpriteLine.Shows.clear :
    SpriteLine.Shows ⟨Array.replicate screenWidth 0, false⟩ .clear False where
  size := Array.size_replicate
  pixel x := getD_replicate screenWidth 0 x
  solid _ := nofun
  collision := ⟨nofun, False.elim⟩

/-- The line has a pixel where the layer shows something. -/
theorem SpriteLine.Shows.isSome {s : SpriteLine} {a : Layer UInt8} {met : Prop}
    (h : s.Shows a met) (x : Fin screenWidth) :
    (s.pixels.getD x 0 != 0) = (a x).isSome := by
  rw [h.pixel x]
  cases ha : a x with
  | none => rfl
  | some c => exact bne_iff_ne.2 fun hzero => h.solid x (ha.trans (congrArg some hzero))

theorem SpriteLine.Shows.put {s : SpriteLine} {a : Layer UInt8} {met : Prop} (h : s.Shows a met)
    (y : Fin screenWidth) {c : UInt8} (hc : c ≠ 0) :
    SpriteLine.Shows { s with pixels := s.pixels.setIfInBounds y c }
      (Function.update a y (some c)) met where
  size := Array.size_setIfInBounds.trans h.size
  pixel x := by
    rw [getD_setIfInBounds h.size]
    by_cases hx : x = y
    · rw [hx, Function.update_self, Function.update_self]
      rfl
    · rw [Function.update_of_ne hx, Function.update_of_ne hx, h.pixel x]
  solid x := by
    by_cases hx : x = y
    · rw [hx, Function.update_self]
      exact fun hzero => hc (Option.some.inj hzero)
    · rw [Function.update_of_ne hx]
      exact h.solid x
  collision := h.collision

/-- A pixel goes behind what the line shows. -/
theorem draws_plot (x : Int) (color : UInt8) :
    Draws SpriteLine.Shows (fun s => s.plot x color) (.dot x (tint color)) := by
  unfold tint
  split
  · rename_i hzero
    rw [Layer.dot_none]
    refine draws_clear fun s => ?_
    unfold SpriteLine.plot
    rw [hzero]
    rfl
  · rename_i hcolor
    have hon (y : Fin screenWidth) :
        ¬(color == 0 || (y.val : Int) < 0 || (screenWidth : Int) ≤ y.val) = true := by
      have hy := y.isLt
      simp [hcolor, hy]
    refine draws_dot ?_ ?_ ?_
    · intro hx s
      unfold SpriteLine.plot
      rw [if_pos]
      simpa [or_assoc] using .inr hx
    · rintro y s a met rfl h htaken
      unfold SpriteLine.plot
      rw [if_neg (hon y), Int.toNat_natCast, h.isSome y, if_pos htaken]
      exact ⟨h.size, h.pixel, h.solid, iff_of_true rfl trivial⟩
    · rintro y s a met rfl h hfree
      have hc : 0x10 ||| color ≠ 0 := fun hzero => hcolor (UInt8.or_eq_zero_iff.1 hzero).2
      unfold SpriteLine.plot
      rw [if_neg (hon y), Int.toNat_natCast, h.isSome y, hfree, if_neg (by decide)]
      exact h.put y hc

theorem plotRow_eq (planes : Planes) (left : Int) (zoom : Nat) : ∀ (n i : Nat) (s : SpriteLine),
    SpriteLine.plotRow planes left zoom n i s =
      (List.range' i n).foldl (fun s k => s.plot (left + k) (planes.pixel (k / zoom))) s
  | 0, _, _ => rfl
  | n + 1, i, _ => plotRow_eq planes left zoom n (i + 1) _

/-- A sprite goes behind what the line shows. -/
theorem draws_sprite (v : Vdp) (line i : Nat) :
    Draws SpriteLine.Shows (SpriteLine.plotRow (v.spritePlanes i line) (v.spriteLeft i) v.spriteZoom
      (8 * v.spriteZoom) 0) (v.spriteLayer line i) := by
  intro s a met h
  rw [plotRow_eq, ← List.range_eq_range']
  exact Draws.row (fun k => draws_plot _ _) _ s a met h

/-- The sprites of a line are drawn one behind the other. -/
theorem spriteLine_shows (v : Vdp) (line : Nat) :
    (v.spriteLine line).1.Shows
      (Layer.stack (((v.spritesCovering line).take 8).map (v.spriteLayer line)))
      (Layer.SomeMeet (((v.spritesCovering line).take 8).map (v.spriteLayer line))) := by
  unfold spriteLine
  rw [spritesOn_eq]
  exact Draws.foldl_clear (fun i => draws_sprite v line i) _ .clear

/-! ### Lines -/

/-- **A line of sprites shows the first eight that cover it, the first of them in front.**  Two of
them that meet and a ninth raise their flags, and no flag is cleared. -/
theorem sprite_line (v : Vdp) (line : Nat) :
    let covering := v.spritesCovering line
    let drawn := covering.take 8
    let pixels := (v.spriteLine line).1.pixels
    pixels.size = screenWidth ∧
    (∀ x : Fin screenWidth, pixels.getD x 0 =
      match drawn.find? fun i => v.spriteColor line i x != 0 with
      | some i => 0x10 ||| v.spriteColor line i x
      | none => 0) ∧
    (v.drawMode4 line).2 = { v with
      status := v.status ||| (if 8 < covering.length then Status.overflow else 0) |||
        (if v.SpritesMeet line drawn then Status.collision else 0) } := by
  intro covering drawn pixels
  have hshows := v.spriteLine_shows line
  have hnodup : drawn.Nodup := Sprite.nodup_take_covering ..
  have hmet : (v.spriteLine line).1.collision = true ↔ v.SpritesMeet line drawn :=
    hshows.collision.trans (v.someMeet_sprites line hnodup)
  have hover : (v.spriteLine line).2 = true ↔ 8 < covering.length := by
    unfold spriteLine
    rw [spritesOn_eq]
    exact iff_of_eq (isSome_getElem? covering 8)
  refine ⟨hshows.size, fun x => ?_, ?_⟩
  · rw [hshows.pixel x]
    exact v.stack_sprites line x drawn
  · unfold drawMode4
    simp only [hmet, hover]

/-- Tall sprites, enlarged and eight columns to the left: the first two side by side, and seven more
that show nothing. -/
def crossingBytes (i : Nat) : UInt8 :=
  if i = 0x2068 then 0xF0
  else if i = 0x2069 then 0x0F
  else if i = 0x20A8 ∨ i = 0x20A9 then 0xFF
  else if 0x3F00 ≤ i ∧ i < 0x3F09 then 9
  else if i = 0x3F09 then 0xD0
  else if i = 0x3F80 then 24
  else if i = 0x3F81 then 3
  else if i = 0x3F82 then 32
  else if i = 0x3F83 then 4
  else 0

/-- A chip with these sprites. -/
def crossingSprites : Vdp :=
  { new .master .ntsc with
    regs := #v[0x0C, 3, 0, 0, 0, 0xFF, 0xFF, 0, 0, 0, 0, 0, 0, 0, 0, 0] }.holding crossingBytes

/-- The first sprite has eight columns of one colour and eight of another, the second one sixteen of
a third, and they share eight; there is a ninth. -/
theorem sprite_line_of_crossing :
    (∀ x : Fin screenWidth, (crossingSprites.spriteLine 30).1.pixels.getD x 0 =
      if x.val < 16 then 0
      else if x.val < 24 then 0x11
      else if x.val < 32 then 0x12
      else if x.val < 40 then 0x13
      else 0) ∧
    (crossingSprites.drawMode4 30).2.status = Status.overflow ||| Status.collision := by
  -- Of the chip just what is needed, so that no address is computed from its memory as a whole.
  obtain ⟨v, hv, hheight, hstatus, hregs, hvram⟩ : ∃ v : Vdp, crossingSprites = v ∧
      v.activeHeight = 192 ∧ v.status = 0 ∧
      v.regs = #v[0x0C, 3, 0, 0, 0, 0xFF, 0xFF, 0, 0, 0, 0, 0, 0, 0, 0, 0] ∧
      v.vramAt = fun i => crossingBytes (i % vramSize) :=
    ⟨_, rfl, by decide, rfl, rfl, vramAt_holding _ _⟩
  have hcovering : v.spritesCovering 30 = List.range 9 := by
    unfold spritesCovering spritePlace spriteByte flag register
    rw [hheight, hregs, hvram]
    decide +kernel
  have hmeet : v.SpritesMeet 30 ((List.range 9).take 8) := by
    refine ⟨0, by decide, 1, by decide, by decide, ⟨24, by decide⟩, ?_⟩
    unfold spriteColor spriteDot spritePlace spriteByte flag register
    rw [hregs, hvram]
    decide +kernel
  obtain ⟨-, hpixel, hflags⟩ := sprite_line v 30
  rw [hcovering] at hpixel hflags
  rw [hv]
  refine ⟨fun x => ?_, ?_⟩
  · rw [hpixel x]
    unfold spriteColor spriteDot spritePlace spriteByte flag register
    rw [hregs, hvram]
    revert x
    decide +kernel
  · rw [hflags, if_pos hmeet]
    dsimp only
    rw [hstatus]
    rfl

end MasterSystem.Video.Vdp
