import MasterSystem.Proofs.Video.Rows

/-! # The representation of the video processor

What is true of the chip after power-on and stays true, whatever its ports are told, however the
host uses it and however much time passes.

* **Colours.**  The palette holds the colours that colour RAM stands for (`Vdp.Decoded`), although
  the two are written apart: colour RAM keeps the bits that count of a byte, the palette is decoded
  from the byte as it came, and the Game Gear takes its colours in two bytes.
* **Representation.**  Together with the sizes and ranges of `Vdp.Safe` and `Vdp.Framed` this is the
  invariant (`Represented`), which every operation keeps (`Represented.operate`).
* **Indices.**  It puts every index into memory, colour RAM, palette and pictures within its array
  (`Represented.indexed`). -/

namespace MasterSystem.Video

/-! ### The bits that count -/

/-- A colour byte has six. -/
theorem masterColor_and (b : UInt8) : masterColor (b &&& 0x3F) = masterColor b := by
  have hpart (k : UInt8) (hk : (0x3F >>> k) &&& 3 = 3) :
      ((b &&& 0x3F) >>> k) &&& 3 = (b >>> k) &&& 3 := by
    rw [UInt8.shiftRight_and, UInt8.and_assoc, hk]
  have hlow : (b &&& 0x3F) &&& 3 = b &&& 3 := by
    rw [UInt8.and_assoc]
    rfl
  unfold masterColor
  dsimp only
  rw [hlow, hpart 2 (by decide), hpart 4 (by decide)]

/-- A colour word has twelve. -/
theorem gearColor_and (w : UInt16) : gearColor (w &&& 0x0FFF) = gearColor w := by
  have hpart (k : UInt16) (hk : (0x0FFF >>> k) &&& 0x0F = 0x0F) :
      ((w &&& 0x0FFF) >>> k) &&& 0x0F = (w >>> k) &&& 0x0F := by
    rw [UInt16.shiftRight_and, UInt16.and_assoc, hk]
  have hlow : (w &&& 0x0FFF) &&& 0x0F = w &&& 0x0F := by
    rw [UInt16.and_assoc]
    rfl
  unfold gearColor
  dsimp only
  rw [hlow, hpart 4 (by decide), hpart 8 (by decide)]

theorem ofBytes_and (high low : UInt8) :
    Word.ofBytes (high &&& 0x0F) low = Word.ofBytes high low &&& 0x0FFF := by
  apply UInt16.toNat_inj.1
  rw [UInt16.toNat_and, Word.toNat_ofBytes, Word.toNat_ofBytes, UInt8.toNat_and]
  show 256 * (high.toNat &&& (2 ^ 4 - 1)) + low.toNat =
    (256 * high.toNat + low.toNat) &&& (2 ^ 12 - 1)
  rw [Nat.and_two_pow_sub_one_eq_mod, Nat.and_two_pow_sub_one_eq_mod]
  have := low.toNat_lt
  omega

namespace Vdp

/-! ### Colours -/

/-- The colour that entry `i` of colour RAM stands for. -/
def colorAt (v : Vdp) (i : Nat) : Color :=
  if v.model = .gameGear then
    gearColor (Word.ofBytes (v.cram.getD (2 * i + 1) 0) (v.cram.getD (2 * i) 0))
  else masterColor (v.cram.getD i 0)

/-- The palette holds the colours of colour RAM. -/
structure Decoded (v : Vdp) : Prop where
  size : v.palette.size = 32
  color : ∀ i < 32, v.palette.get i = v.colorAt i

theorem Decoded.congr {v : Vdp} (h : v.Decoded) {w : Vdp} (hmodel : w.model = v.model)
    (hcram : w.cram = v.cram) (hpalette : w.palette = v.palette) : w.Decoded where
  size := hpalette ▸ h.size
  color i hi := by
    have hcolor := h.color i hi
    unfold colorAt at hcolor ⊢
    rw [hmodel, hcram, hpalette]
    exact hcolor

theorem getD_set {a : Array UInt8} {i : Nat} (hi : i < a.size) (b : UInt8) (j : Nat) :
    (a.setIfInBounds i b).getD j 0 = if i = j then b else a.getD j 0 := by
  rw [Array.getD_eq_getD_getElem?, Array.getD_eq_getD_getElem?, Array.getElem?_setIfInBounds]
  split <;> rfl

theorem palette_get_set {p : Palette} {i : Nat} (hi : i < p.size) (c : Color) (j : Nat) :
    (p.set i c).get j = if i = j then c else p.get j := by
  split
  · rename_i hij
    exact hij ▸ p.get_set_same i c hi
  · rename_i hij
    exact p.get_set_ne c hij

/-- Both kinds of write to colour RAM keep the palette in step. -/
theorem Decoded.writeCram {v : Vdp} (h : v.Decoded) (hsize : v.cram.size = cramSize v.model)
    (b : UInt8) : (v.writeCram b).Decoded := by
  unfold Vdp.writeCram
  unfold cramSize at hsize
  split
  · rename_i hmodel
    rw [if_pos hmodel] at hsize
    dsimp only
    split
    · exact h.congr rfl rfl rfl
    · -- The second byte of a pair: the first, at the even address before it, was kept.
      rename_i hodd
      generalize hi : v.address.toNat % 64 = i at hodd ⊢
      have hi : i < 64 := hi ▸ Nat.mod_lt _ (by decide)
      refine ⟨(Palette.size_set _ _ _).trans h.size, ?_⟩
      intro j hj
      have hcolor := h.color j hj
      unfold colorAt at hcolor ⊢
      rw [if_pos hmodel] at hcolor ⊢
      dsimp only
      have hset : i < (v.cram.setIfInBounds (i - 1) v.cramLatch).size := by
        rw [Array.size_setIfInBounds, hsize]
        exact hi
      have hpalette : i / 2 < v.palette.size := by
        rw [h.size]
        omega
      rw [palette_get_set hpalette, getD_set hset, getD_set hset,
        getD_set (show i - 1 < v.cram.size by omega), getD_set (show i - 1 < v.cram.size by omega)]
      by_cases hij : i / 2 = j
      · rw [if_pos hij, if_pos (by omega), if_neg (by omega), if_pos (by omega), ofBytes_and,
          gearColor_and]
      · rw [if_neg hij, if_neg (by omega), if_neg (by omega), if_neg (by omega), if_neg (by omega)]
        exact hcolor
  · rename_i hmodel
    rw [if_neg hmodel] at hsize
    have hentry : v.address.toNat % 32 < v.palette.size := by
      rw [h.size]
      exact Nat.mod_lt _ (by decide)
    have hset : v.address.toNat % 32 < v.cram.size := by
      rw [hsize]
      exact Nat.mod_lt _ (by decide)
    refine ⟨(Palette.size_set _ _ _).trans h.size, ?_⟩
    intro j hj
    have hcolor := h.color j hj
    unfold colorAt at hcolor ⊢
    rw [if_neg hmodel] at hcolor ⊢
    dsimp only
    rw [palette_get_set hentry, getD_set hset]
    split
    · exact (masterColor_and b).symm
    · exact hcolor

theorem Decoded.new (model : Model) (timing : Standard) : (Vdp.new model timing).Decoded where
  size := Array.size_replicate
  color i _ := by
    show (Palette.black 32).get i = _
    rw [Palette.get_black]
    unfold colorAt Vdp.new
    dsimp only
    rw [getD_replicate, getD_replicate, getD_replicate]
    split <;> decide

/-! ### The invariant -/

/-- What is always true of the chip. -/
structure Represented (v : Vdp) : Prop where
  /-- The sizes of the memories, and the ranges of the address and of the beam. -/
  safe : v.Safe
  /-- The size of the picture being drawn, and the shape of the picture shown. -/
  framed : v.Framed
  /-- The picture being drawn is as wide and as high as the largest field. -/
  canvas : (v.scratch.width, v.scratch.height) = (screenWidth, maxHeight)
  decoded : v.Decoded

theorem Represented.new (model : Model) (timing : Standard) :
    (Vdp.new model timing).Represented :=
  ⟨.new model timing, .new model timing, rfl, .new model timing⟩

section

variable {v : Vdp}

/-- A chip that differs only in what has no bounds is as it has to be as well. -/
theorem Represented.congr (h : v.Represented) {w : Vdp} (hsafe : w.Safe)
    (hscratch : w.scratch = v.scratch) (hdisplay : w.display = v.display)
    (hmodel : w.model = v.model) (hcram : w.cram = v.cram) (hpalette : w.palette = v.palette) :
    w.Represented :=
  ⟨hsafe, h.framed.congr hscratch hdisplay, hscratch ▸ h.canvas,
    h.decoded.congr hmodel hcram hpalette⟩

theorem Represented.writeData (h : v.Represented) (b : UInt8) : (v.writeData b).Represented := by
  have hscratch := (writeData_pictures v b).1
  refine ⟨h.safe.writeData b, Framed.stable.writeData h.framed b, hscratch ▸ h.canvas, ?_⟩
  unfold Vdp.writeData
  dsimp only
  split
  · exact (h.decoded.writeCram h.safe.cram b).congr rfl rfl rfl
  · exact h.decoded.congr rfl rfl rfl

theorem writeControl_colors (v : Vdp) (b : UInt8) :
    (v.writeControl b).model = v.model ∧ (v.writeControl b).cram = v.cram ∧
      (v.writeControl b).palette = v.palette := by
  obtain ⟨regs, notes, low, code, address, buffer, h⟩ := writeControl_eq v b
  rw [h]
  exact ⟨rfl, rfl, rfl⟩

theorem Represented.writeControl (h : v.Represented) (b : UInt8) :
    (v.writeControl b).Represented := by
  obtain ⟨hmodel, hcram, hpalette⟩ := writeControl_colors v b
  obtain ⟨hscratch, hdisplay⟩ := writeControl_pictures v b
  exact h.congr (h.safe.writeControl b) hscratch hdisplay hmodel hcram hpalette

theorem nextLines_canvas : ∀ (n : Nat) (v : Vdp),
    ((nextLines n v).2.scratch.width, (nextLines n v).2.scratch.height) =
      (v.scratch.width, v.scratch.height)
  | 0, _ => rfl
  | n + 1, v => by
      let w : Vdp := { v with line := (v.line + 1) % v.timing.linesPerFrame }
      have hshape : (v.nextLine.2.scratch.width, v.nextLine.2.scratch.height) =
          (v.scratch.width, v.scratch.height) := by
        show (w.startLine.2.scratch.width, w.startLine.2.scratch.height) = _
        rw [startLine_scratch]
        unfold inked
        split <;> rfl
      exact (nextLines_canvas n v.nextLine.2).trans hshape

theorem advance_palette (v : Vdp) (cycles : Nat) :
    (v.advance cycles).2.palette = v.palette := by
  have h := congrArg Vdp.palette (bare_advance v cycles)
  exact h

theorem Represented.advance (h : v.Represented) (cycles : Nat) :
    (v.advance cycles).2.Represented where
  safe := h.safe.advance cycles
  framed := h.framed.advance cycles
  canvas := (nextLines_canvas _ _).trans h.canvas
  decoded := h.decoded.congr (advance_model v cycles) (advance_cram v cycles)
    (advance_palette v cycles)

theorem Represented.access (h : v.Represented) (a : Access) : (v.access a).Represented := by
  cases a with
  | readData => exact h.congr (Safe.stable.readData h.safe) rfl rfl rfl rfl rfl
  | writeData b => exact h.writeData b
  | readStatus => exact h.congr (Safe.stable.readStatus h.safe) rfl rfl rfl rfl rfl
  | writeControl b => exact h.writeControl b
  | latchHCounter => exact h.congr (Safe.stable.latchHCounter h.safe) rfl rfl rfl rfl rfl
  | setShutter b => exact h.congr (Safe.stable.setShutter h.safe b) rfl rfl rfl rfl rfl
  | setPhaserTarget t => exact h.congr (h.safe.setPhaserTarget t) rfl rfl rfl rfl rfl
  | advance cycles => exact h.advance cycles

/-- Resetting the chip is turning the power on, as far as its representation goes. -/
theorem Represented.reset (h : v.Represented) : v.reset.Represented := by
  have hnew := Represented.new v.model v.timing
  have hvram : v.reset.vram = (Vdp.new v.model v.timing).vram :=
    congrArg (Array.replicate · 0) h.safe.vram
  have hcram : v.reset.cram = (Vdp.new v.model v.timing).cram :=
    congrArg (Array.replicate · 0) h.safe.cram
  have hsafe : v.reset.Safe := hnew.safe.congr rfl rfl (congrArg Array.size hvram)
    (congrArg Array.size hcram) hnew.safe.address
  exact hnew.congr hsafe rfl rfl rfl hcram rfl

/-! ### Indices -/

/-- Every index that the chip computes is within its array. -/
structure Indexed (v : Vdp) : Prop where
  /-- The ports in memory and colour RAM, what a picture is made of, and the pictures. -/
  inRange : v.InRange
  /-- The palette, where a write to colour RAM goes. -/
  entry : v.address.toNat % cramSize v.model / (if v.model = .gameGear then 2 else 1) <
    v.palette.size
  /-- The palette, for the border. -/
  border : 16 + (v.register 7 &&& 0x0F).toNat < v.palette.size
  /-- The palette, for a pixel of the newer mode. -/
  pixel : ∀ line x, v.indexAt line x < v.palette.size
  /-- The entries of the sprite tables, which are fetched without wrapping. -/
  sprite : ∀ i < 64, v.spriteTable + 0x81 + i * 2 < v.vram.size
  legacySprite : ∀ i < 32, v.legacyEntry i + 3 < v.vram.size
  /-- The lines that a line of the picture is put together from. -/
  background : ∀ line, (v.background line).size = screenWidth
  sprites : ∀ line, (v.spriteLine line).1.pixels.size = screenWidth
  /-- The line that is copied into the picture. -/
  drawn : ∀ line, (v.paint line).1.size = screenWidth

theorem Represented.indexed (h : v.Represented) : v.Indexed where
  inRange := h.safe.inRange h.framed
  entry := by
    rw [h.decoded.size]
    unfold cramSize
    split <;> omega
  border := by
    have hback : (v.register 7 &&& 0x0F).toNat < 16 := and_lt _ (by decide)
    rw [h.decoded.size]
    omega
  pixel line x := h.decoded.size ▸ v.indexAt_lt line x
  sprite i hi := h.safe.vram ▸ v.spriteTable_lt hi
  legacySprite i hi := h.safe.vram ▸ v.legacyEntry_lt hi
  background line := v.background_size line
  sprites line := (v.spriteLine_fits line).size
  drawn line := v.paint_size line

end

/-! ### Runs -/

/-- What a machine and its host do to the chip: they access it, choose the fields for 3-D glasses,
and reset it. -/
inductive Operation where
  | access (a : Access)
  | setGlasses (g : Glasses)
  | reset

/-- The chip after an operation. -/
def operate (v : Vdp) : Operation → Vdp
  | .access a => v.access a
  | .setGlasses g => { v with glasses := g }
  | .reset => v.reset

theorem Represented.operate {v : Vdp} (h : v.Represented) (o : Operation) :
    (v.operate o).Represented := by
  cases o with
  | access a => exact h.access a
  | setGlasses g =>
      exact h.congr (h.safe.congr rfl rfl rfl rfl h.safe.address) rfl rfl rfl rfl rfl
  | reset => exact h.reset

theorem Represented.run : ∀ (os : List Operation) {v : Vdp}, v.Represented →
    (os.foldl Vdp.operate v).Represented
  | [], _, h => h
  | o :: os, _, h => Represented.run os (h.operate o)

/-- **The representation of the video processor.**  Whatever is done to a chip after power-on, its
memories, its beam and its pictures keep their bounds, its palette holds the colours of colour RAM,
and no index is out of range. -/
theorem representation (model : Model) (timing : Standard) (os : List Operation) :
    (os.foldl operate (.new model timing)).Represented ∧
      (os.foldl operate (.new model timing)).Indexed :=
  ⟨Represented.run os (.new model timing), (Represented.run os (.new model timing)).indexed⟩

end Vdp

end MasterSystem.Video
