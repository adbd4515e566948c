import MasterSystem.Proofs.Video.Safety

/-! # What a line is made of

A line is put together from pixels of the background and of sprites, each of them an index into the
palette, or from the fixed colours.  Whatever the program puts into the registers and into memory,

* **Indices.**  every pixel is one of the 32 palette entries (`indexAt_lt`), which takes that a
  sprite's pixels are of its half of the palette (`spriteLine_fits`);
* **Tables.**  an entry of a sprite table lies within video RAM, without wrapping (`spriteTable_lt`,
  `legacyEntry_lt`);
* **Width.**  a line has 256 pixels (`paint_size`). -/

namespace MasterSystem.Video

/-! ### Palette indices -/

theorem and_lt {b : UInt8} {n : Nat} (a : UInt8) (hb : b.toNat < n) : (a &&& b).toNat < n := by
  rw [UInt8.toNat_and]
  exact Nat.lt_of_le_of_lt Nat.and_le_right hb

theorem Planes.bitAt_cases (p : UInt8) (x : Nat) : bitAt p x = 0 ∨ bitAt p x = 1 := by
  have h : (bitAt p x).toNat < 2 := and_lt _ (by decide)
  rcases Nat.lt_succ_iff_lt_or_eq.1 h with h | h
  · exact .inl (UInt8.toNat_inj.1 (Nat.lt_one_iff.1 h))
  · exact .inr (UInt8.toNat_inj.1 h)

/-- A colour number has four bits. -/
theorem Planes.pixel_lt (p : Planes) (x : Nat) : (p.pixel x).toNat < 16 := by
  unfold pixel
  rcases bitAt_cases p.p0 x with h0 | h0 <;> rcases bitAt_cases p.p1 x with h1 | h1 <;>
    rcases bitAt_cases p.p2 x with h2 | h2 <;> rcases bitAt_cases p.p3 x with h3 | h3 <;>
    rw [h0, h1, h2, h3] <;> decide

namespace Vdp

/-! ### Sprites -/

/-- A line of sprites as wide as the screen, with indices of the palette. -/
structure SpriteLine.Fits (s : SpriteLine) : Prop where
  size : s.pixels.size = screenWidth
  lt : ∀ x, (s.pixels.getD x 0).toNat < 32

theorem SpriteLine.Fits.plot {s : SpriteLine} (h : s.Fits) (x : Int) {color : UInt8}
    (hcolor : color.toNat < 16) : (s.plot x color).Fits := by
  unfold SpriteLine.plot
  split
  · exact h
  · split
    · exact ⟨h.size, h.lt⟩
    · refine ⟨by rw [Array.size_setIfInBounds, h.size], ?_⟩
      intro y
      have hindex : (0x10 ||| color).toNat < 32 := by
        rw [UInt8.toNat_or]
        exact Nat.or_lt_two_pow (n := 5) (by decide) (Nat.lt_trans hcolor (by decide))
      have hold := h.lt y
      rw [Array.getD_eq_getD_getElem?] at hold ⊢
      rw [Array.getElem?_setIfInBounds]
      split
      · split
        · exact hindex
        · decide
      · exact hold

theorem SpriteLine.Fits.plotRow (planes : Planes) (left : Int) (zoom : Nat) :
    ∀ (n i : Nat) {s : SpriteLine}, s.Fits → (SpriteLine.plotRow planes left zoom n i s).Fits
  | 0, _, _, h => h
  | n + 1, i, _, h =>
    plotRow planes left zoom n (i + 1) (h.plot (left + i) (planes.pixel_lt (i / zoom)))

/-- The sprites of a line are pixels of the palette. -/
theorem spriteLine_fits (v : Vdp) (line : Nat) : (v.spriteLine line).1.Fits := by
  have hdraw (drawn : List Nat) : ∀ {s : SpriteLine}, s.Fits →
      (drawn.foldl (fun s i => SpriteLine.plotRow (v.spritePlanes i line) (v.spriteLeft i)
        v.spriteZoom (8 * v.spriteZoom) 0 s) s).Fits := by
    induction drawn with
    | nil => exact id
    | cons i drawn ih => exact fun h => ih (.plotRow _ _ _ _ _ h)
  refine hdraw _ ⟨Array.size_replicate, fun x => ?_⟩
  rw [getD_replicate]
  decide

/-- What is shown of a background and a sprite is an index of the palette. -/
theorem compose_lt (background : UInt8) {sprite : UInt8} (h : sprite.toNat < 32) :
    (compose background sprite).toNat < 32 := by
  unfold compose
  split
  · exact h
  · exact and_lt _ (by decide)

/-- The index of the palette that a pixel of a line shows. -/
def indexAt (v : Vdp) (line x : Nat) : Nat :=
  (compose ((v.background line).getD x 0) ((v.spriteLine line).1.pixels.getD x 0)).toNat

theorem indexAt_lt (v : Vdp) (line x : Nat) : v.indexAt line x < 32 :=
  compose_lt _ ((v.spriteLine_fits line).lt x)

/-! ### Tables -/

/-- The bytes of an entry of the sprite table are within video RAM. -/
theorem spriteTable_lt (v : Vdp) {i : Nat} (hi : i < 64) :
    v.spriteTable + 0x81 + i * 2 < vramSize := by
  have h : (v.register 5 &&& 0x7E).toNat < 0x7F := and_lt _ (by decide)
  unfold spriteTable vramSize
  omega

theorem legacyEntry_lt (v : Vdp) {i : Nat} (hi : i < 32) : v.legacyEntry i + 3 < vramSize := by
  have h : (v.register 5 &&& 0x7F).toNat < 0x80 := and_lt _ (by decide)
  unfold legacyEntry vramSize
  omega

/-! ### Width -/

theorem backgroundFrom_size (v : Vdp) (line : Nat) : ∀ (n x : Nat) (held : Option (Nat × TileRow))
    (out : Array UInt8), (v.backgroundFrom line n x held out).size = out.size + n
  | 0, _, _, _ => rfl
  | n + 1, x, held, out => by
      refine (backgroundFrom_size v line n (x + 1) _ _).trans ?_
      rw [Array.size_push, Nat.add_assoc, Nat.add_comm 1]

theorem background_size (v : Vdp) (line : Nat) : (v.background line).size = screenWidth :=
  (backgroundFrom_size v line _ _ _ _).trans (Nat.zero_add _)

theorem colorsFrom_size (v : Vdp) (masked : Bool) (backdrop : Color) (bg sprites : Array UInt8) :
    ∀ (n x : Nat) (out : Array Color),
      (v.colorsFrom masked backdrop bg sprites n x out).size = out.size + n
  | 0, _, _ => rfl
  | n + 1, x, out => by
      rw [colorsFrom, colorsFrom_size v masked backdrop bg sprites n, Array.size_push,
        Nat.add_assoc, Nat.add_comm 1]

theorem pushPattern_size (pattern : UInt8) (fore back : Color) : ∀ (n i : Nat) (out : Array Color),
    (pushPattern pattern fore back n i out).size = out.size + n
  | 0, _, _ => rfl
  | n + 1, i, out => by
      rw [pushPattern, pushPattern_size pattern fore back n, Array.size_push, Nat.add_assoc,
        Nat.add_comm 1]

theorem columns_size {g : Nat → Array Color → Array Color} {width : Nat}
    (hg : ∀ i out, (g i out).size = out.size + width) : ∀ (n i : Nat) (out : Array Color),
      (columns g n i out).size = out.size + n * width
  | 0, _, out => by rw [columns, Nat.zero_mul, Nat.add_zero]
  | n + 1, i, out => by
      rw [columns, columns_size hg n, hg, Nat.add_one_mul, Nat.add_assoc, Nat.add_comm width]

theorem textLine_size (v : Vdp) (line : Nat) : (v.textLine line).size = screenWidth := by
  have htext (i : Nat) (out : Array Color) : (v.text line i out).size = out.size + 6 :=
    pushPattern_size ..
  unfold textLine
  rw [Array.size_append, columns_size htext, Array.size_replicate]
  rfl

theorem legacyBackground_size (v : Vdp) (line : Nat) :
    (v.legacyBackground line).size = screenWidth := by
  have hmode (i : Nat) (out : Array Color) :
      ((if v.regBit 1 0x08 then v.multicolor line
        else if v.regBit 0 0x02 then v.graphics2 line
        else v.graphics1 line) i out).size = out.size + 8 := by
    split
    · exact pushPattern_size ..
    · split <;> exact pushPattern_size ..
  exact columns_size hmode _ _ _

theorem plot_size (o : Overlay) (x : Int) (color : Option Color) :
    (o.plot x color).row.size = o.row.size := by
  unfold Overlay.plot
  split
  · rfl
  · split
    · rfl
    · cases color with
      | none => rfl
      | some c => exact Array.size_setIfInBounds

theorem plotRow_size (bit : Nat → Bool) (left : Int) (color : Option Color) :
    ∀ (n k : Nat) (o : Overlay), (Overlay.plotRow bit left color n k o).row.size = o.row.size
  | 0, _, _ => rfl
  | n + 1, k, o => by
      rw [Overlay.plotRow, plotRow_size bit left color n]
      split
      · exact plot_size _ _ _
      · rfl

theorem overlaySprites_size (v : Vdp) (line : Nat) : ∀ (drawn : List Nat) (o : Overlay),
    (drawn.foldl (v.overlaySprite line) o).row.size = o.row.size
  | [], _ => rfl
  | i :: drawn, o => by
      rw [List.foldl_cons, overlaySprites_size v line drawn]
      exact plotRow_size _ _ _ _ _ _

theorem drawMode4_size (v : Vdp) (line : Nat) : (v.drawMode4 line).1.size = screenWidth := by
  unfold drawMode4
  dsimp only
  rw [colorsFrom_size]
  exact Nat.zero_add screenWidth

theorem drawLegacy_size (v : Vdp) (line : Nat) : (v.drawLegacy line).1.size = screenWidth := by
  unfold drawLegacy
  split
  · exact textLine_size v line
  · exact (overlaySprites_size v line _ _).trans (legacyBackground_size v line)

/-- A line is as wide as the screen. -/
theorem paint_size (v : Vdp) (line : Nat) : (v.paint line).1.size = screenWidth := by
  unfold paint
  split
  · exact Array.size_replicate
  · split
    · exact drawMode4_size v line
    · exact drawLegacy_size v line

end Vdp

end MasterSystem.Video
