import MasterSystem.Proofs.Machine.Wiring
import MasterSystem.Proofs.Video.Pictures

/-! # Indices of the video processor

The chip indexes four arrays: video RAM and colour RAM by its address register, video RAM by what a
picture is made of, the scratch picture by rows, and the picture shown by its shape.

* **Representation.**  `Vdp.Safe` are the sizes and ranges that this relies on, `Vdp.InRange` says
  that every index is within its array, and the one implies the other (`Safe.inRange`).
* **Preservation.**  No access to the chip and no time that passes breaks them (`Safe.stable`,
  `Safe.advance`). -/

namespace MasterSystem.Video.Vdp

/-- What the chip's arrays and registers have to be like. -/
structure Safe (v : Vdp) : Prop where
  vram : v.vram.size = vramSize
  cram : v.cram.size = cramSize v.model
  address : v.address.toNat < vramSize
  line : v.line < v.timing.linesPerFrame
  lineCycles : v.lineCycles < cyclesPerLine

/-- The pictures have the sizes that the chip draws them in. -/
structure Framed (v : Vdp) : Prop where
  scratch : v.scratch.pixels.size = screenWidth * maxHeight
  display : v.displayConsistent = true

/-- Every index that an access to the chip or the drawing of a line computes is within its array. -/
structure InRange (v : Vdp) : Prop where
  /-- The ports, in video RAM. -/
  port : v.address.toNat < v.vram.size
  /-- The ports, in colour RAM. -/
  color : v.address.toNat % cramSize v.model < v.cram.size
  /-- What a picture is made of. -/
  fetch : ∀ i, i % vramSize < v.vram.size
  /-- The line being drawn. -/
  row : ∀ y < v.activeHeight, ∀ x < screenWidth, y * screenWidth + x < v.scratch.pixels.size
  /-- The field being shown. -/
  field : screenWidth * v.activeHeight ≤ v.scratch.pixels.size
  /-- The picture that the host is given. -/
  shown : ∀ y < v.display.height, ∀ x < v.display.width,
    y * v.display.width + x < v.display.pixels.size

theorem row_lt {width height x y : Nat} (hx : x < width) (hy : y < height) :
    y * width + x < width * height := by
  calc y * width + x < y * width + width := by omega
    _ = width * (y + 1) := by rw [Nat.mul_comm, ← Nat.mul_add_one]
    _ ≤ width * height := Nat.mul_le_mul_left width hy

theorem activeHeight_le (v : Vdp) : v.activeHeight ≤ maxHeight := by
  have h := v.activeHeight_cases
  unfold maxHeight
  omega

theorem cramSize_pos (m : Model) : 0 < cramSize m := by
  unfold cramSize
  split <;> decide

theorem Safe.inRange {v : Vdp} (h : v.Safe) (hf : v.Framed) : v.InRange where
  port := h.vram ▸ h.address
  color := by
    rw [h.cram]
    exact Nat.mod_lt _ (cramSize_pos v.model)
  fetch i := by
    rw [h.vram]
    exact Nat.mod_lt i (by decide)
  row y hy x hx := by
    have hy : y < maxHeight := Nat.lt_of_lt_of_le hy v.activeHeight_le
    exact hf.scratch ▸ row_lt hx hy
  field := hf.scratch ▸ Nat.mul_le_mul_left _ v.activeHeight_le
  shown y hy x hx := by
    have hshape := hf.display
    unfold displayConsistent at hshape
    simp only [Bool.and_eq_true, beq_iff_eq] at hshape
    rw [hshape.2]
    exact row_lt hx hy

/-! ### Preservation -/

theorem nextAddress_lt (a : UInt16) : (nextAddress a).toNat < vramSize := by
  unfold nextAddress
  rw [UInt16.toNat_and]
  exact Nat.lt_of_le_of_lt Nat.and_le_right (by decide)

theorem commandAddress_lt (low b : UInt8) : (Word.ofBytes (b &&& 0x3F) low).toNat < vramSize := by
  have hb : (b &&& 0x3F).toNat ≤ 0x3F := by
    rw [UInt8.toNat_and]
    exact Nat.and_le_right
  have hlow := low.toNat_lt
  rw [Word.toNat_ofBytes]
  unfold vramSize
  omega

theorem lowAddress_lt (a : UInt16) (b : UInt8) :
    ((a &&& 0x3F00) ||| b.toUInt16).toNat < vramSize := by
  have hhigh : (a &&& 0x3F00).toNat < 2 ^ 14 := by
    rw [UInt16.toNat_and]
    exact Nat.lt_of_le_of_lt Nat.and_le_right (by decide)
  have hlow : b.toUInt16.toNat < 2 ^ 14 := by
    have := b.toNat_lt
    rw [UInt8.toNat_toUInt16]
    omega
  rw [UInt16.toNat_or]
  exact Nat.or_lt_two_pow hhigh hlow

section

variable {v : Vdp}

/-- A chip that differs in other things is as safe, if its address is within video RAM. -/
theorem Safe.congr (h : v.Safe) {w : Vdp} (hbeam : w.beam = v.beam) (hmodel : w.model = v.model)
    (hvram : w.vram.size = v.vram.size) (hcram : w.cram.size = v.cram.size)
    (haddress : w.address.toNat < vramSize) : w.Safe where
  vram := hvram.trans h.vram
  cram := by rw [hcram, h.cram, hmodel]
  address := haddress
  line := by
    have htiming : w.timing = v.timing := congrArg Prod.fst hbeam
    have hline : w.line = v.line := congrArg (·.2.1) hbeam
    rw [htiming, hline]
    exact h.line
  lineCycles := by
    have hcycles : w.lineCycles = v.lineCycles := congrArg (·.2.2) hbeam
    exact hcycles ▸ h.lineCycles

theorem writeCram_sizes (v : Vdp) (b : UInt8) :
    (v.writeCram b).model = v.model ∧ (v.writeCram b).vram.size = v.vram.size ∧
      (v.writeCram b).cram.size = v.cram.size ∧ (v.writeCram b).address = v.address := by
  unfold writeCram
  split
  · dsimp only
    split
    · exact ⟨rfl, rfl, rfl, rfl⟩
    · exact ⟨rfl, rfl, by rw [Array.size_setIfInBounds, Array.size_setIfInBounds], rfl⟩
  · exact ⟨rfl, rfl, Array.size_setIfInBounds, rfl⟩

theorem Safe.writeData (h : v.Safe) (b : UInt8) : (v.writeData b).Safe := by
  have hbeam := writeData_beam v b
  obtain ⟨hmodel, hvram, hcram, -⟩ := writeCram_sizes v b
  unfold Vdp.writeData at hbeam ⊢
  dsimp only at hbeam ⊢
  split at hbeam
  · rename_i hc
    rw [if_pos hc]
    exact h.congr hbeam hmodel hvram hcram (nextAddress_lt _)
  · rename_i hc
    rw [if_neg hc]
    exact h.congr hbeam rfl Array.size_setIfInBounds rfl (nextAddress_lt _)

theorem writeRegister_sizes (v : Vdp) (i b : UInt8) :
    (v.writeRegister i b).model = v.model ∧ (v.writeRegister i b).vram = v.vram ∧
      (v.writeRegister i b).cram = v.cram ∧ (v.writeRegister i b).address = v.address := by
  obtain ⟨regs, notes, h⟩ := writeRegister_eq v i b
  rw [h]
  exact ⟨rfl, rfl, rfl, rfl⟩

theorem Safe.writeControl (h : v.Safe) (b : UInt8) : (v.writeControl b).Safe := by
  have hbeam := writeControl_beam v b
  unfold Vdp.writeControl at hbeam ⊢
  split at hbeam
  · exact h.congr hbeam rfl rfl rfl (lowAddress_lt _ _)
  · rename_i low _
    dsimp only at hbeam ⊢
    split at hbeam
    · rename_i hc
      rw [if_pos hc]
      exact h.congr hbeam rfl rfl rfl (nextAddress_lt _)
    · rename_i hc
      rw [if_neg hc]
      split at hbeam
      · rename_i hr
        rw [if_pos hr]
        generalize hw : ({ v with
          controlLow := none
          code := b >>> 6
          address := Word.ofBytes (b &&& 0x3F) low } : Vdp) = w at *
        obtain ⟨hmodel, hvram, hcram, haddress⟩ := writeRegister_sizes w (b &&& 0x0F) low
        subst hw
        exact h.congr hbeam hmodel (congrArg Array.size hvram) (congrArg Array.size hcram)
          (haddress ▸ commandAddress_lt low b)
      · rename_i hr
        rw [if_neg hr]
        exact h.congr hbeam rfl rfl rfl (commandAddress_lt low b)

/-- No access to the chip breaks its representation. -/
theorem Safe.stable : Vdp.Stable Safe where
  readData h := h.congr rfl rfl rfl rfl (nextAddress_lt _)
  writeData h b := h.writeData b
  readStatus h := h.congr rfl rfl rfl rfl h.address
  writeControl h b := h.writeControl b
  latchHCounter h := h.congr rfl rfl rfl rfl h.address
  setShutter h _ := h.congr rfl rfl rfl rfl h.address
  quiet h := h.congr rfl rfl rfl rfl h.address

/-- Nor does time. -/
theorem Safe.advance (h : v.Safe) (cycles : Nat) : (v.advance cycles).2.Safe := by
  refine ⟨?_, ?_, ?_, ?_, ?_⟩
  · rw [advance_vram, h.vram]
  · rw [advance_cram, advance_model, h.cram]
  · rw [advance_address]
    exact h.address
  · rw [advance_line, advance_timing]
    split
    · exact h.line
    · exact Nat.mod_lt _ (Nat.lt_of_le_of_lt (Nat.zero_le _) h.line)
  · rw [advance_lineCycles]
    exact Nat.mod_lt _ (by decide)

theorem Framed.congr (h : v.Framed) {w : Vdp} (hs : w.scratch = v.scratch)
    (hd : w.display = v.display) : w.Framed where
  scratch := hs ▸ h.scratch
  display := by
    have hshape : w.displayConsistent = v.displayConsistent := by
      unfold displayConsistent
      rw [hd]
    exact hshape.trans h.display

/-- The ports do not reach the pictures. -/
theorem Framed.stable : Vdp.Stable Framed where
  readData h := h.congr rfl rfl
  writeData h b := h.congr (writeData_pictures _ b).1 (writeData_pictures _ b).2
  readStatus h := h.congr rfl rfl
  writeControl h b := h.congr (writeControl_pictures _ b).1 (writeControl_pictures _ b).2
  latchHCounter h := h.congr rfl rfl
  setShutter h _ := h.congr rfl rfl
  quiet h := h.congr rfl rfl

theorem Framed.startLine (h : v.Framed) : v.startLine.2.Framed where
  scratch := by
    rw [startLine_scratch, inked_size, h.scratch]
  display := by
    have hshape := h.display
    have hsize := Nat.mul_le_mul_left screenWidth v.activeHeight_le
    unfold displayConsistent at hshape ⊢
    rw [startLine_display]
    unfold shown
    split
    · dsimp only
      rw [Array.size_extract, h.scratch, Nat.min_eq_left hsize, Nat.sub_zero]
      rcases v.activeHeight_cases with he | he | he <;> rw [he] <;> rfl
    · exact hshape

theorem Framed.nextLines : ∀ (n : Nat) {v : Vdp}, v.Framed → (nextLines n v).2.Framed
  | 0, _, h => h
  | n + 1, v, h => by
      have hline : ({ v with line := (v.line + 1) % v.timing.linesPerFrame } : Vdp).Framed :=
        h.congr rfl rfl
      exact Framed.nextLines n hline.startLine

/-- What is drawn has the shape of a field. -/
theorem Framed.advance (h : v.Framed) (cycles : Nat) : (v.advance cycles).2.Framed :=
  Framed.nextLines _ (h.congr rfl rfl)

theorem Framed.setPhaserTarget (h : v.Framed) (target : Option (Int × Int)) :
    (v.setPhaserTarget target).Framed := h.congr rfl rfl

theorem Safe.setPhaserTarget (h : v.Safe) (target : Option (Int × Int)) :
    (v.setPhaserTarget target).Safe := h.congr rfl rfl rfl rfl h.address

end

/-! ### Power-on -/

theorem Safe.new (model : Model) (timing : Standard) : (Vdp.new model timing).Safe where
  vram := Array.size_replicate
  cram := Array.size_replicate
  address := by
    show 0 < vramSize
    decide
  line := by
    show 192 < timing.linesPerFrame
    cases timing <;> decide
  lineCycles := by
    show 0 < cyclesPerLine
    decide

theorem Framed.new (model : Model) (timing : Standard) : (Vdp.new model timing).Framed where
  scratch := Array.size_replicate
  display := by
    unfold displayConsistent Vdp.new Frame.new
    dsimp only
    rw [Array.size_replicate]
    rfl

end MasterSystem.Video.Vdp
