import MasterSystem.Proofs.Video.Representation

/-! # The light phaser

What the phaser makes of a line, in numbers without bounds, and how far the 32 bits that it computes
with carry.

* **Light.**  `Sees` is the rule: the line is within four of the aim, the aim is within the line,
  and a pixel within two columns of it is bright.
* **Arithmetic.**  Only the distance to a line can leave 32 bits, and does so for aims more than
  `0x7FFFFFFF` lines above it (`look_eq_none_iff`).  For all others the phaser sees what the rule
  says (`light_seen`).
* **Runs.**  The machine stops at the first line of the picture that is too far below the aim
  (`nextLine_stopped`).  There is none below an aim from line `240 - 0x80000000` on, however the
  chip is used (`stopped_run`). -/

namespace MasterSystem.Video

namespace Vdp

/-! ### Bright pixels -/

/-- A component of the colour is at least `0xAA`. -/
def Lit (c : Color) : Prop :=
  0xAA ≤ c.toNat / 65536 % 256 ∨ 0xAA ≤ c.toNat / 256 % 256 ∨ 0xAA ≤ c.toNat % 256

instance (c : Color) : Decidable (Lit c) := inferInstanceAs (Decidable (_ ∨ _ ∨ _))

theorem isBright_iff (c : Color) : isBright c = true ↔ Lit c := by
  unfold isBright Lit
  simp [UInt32.toNat_toUInt8, UInt32.toNat_shiftRight, Nat.shiftRight_eq_div_pow, or_assoc]

theorem not_lit_zero : ¬ Lit 0 := by decide

theorem brightBetween_iff (row : Array Color) (first last : Nat) :
    brightBetween row first last = true ↔ ∃ k, first ≤ k ∧ k ≤ last ∧ Lit (row.getD k 0) := by
  unfold brightBetween
  rw [Array.any_eq_true]
  constructor
  · rintro ⟨i, hi, hbright⟩
    rw [Array.size_extract] at hi
    rw [Array.getElem_extract] at hbright
    refine ⟨first + i, by omega, by omega, ?_⟩
    rw [Array.getD_eq_getD_getElem?, Array.getElem?_eq_getElem (by omega), Option.getD_some]
    exact (isBright_iff _).1 hbright
  · rintro ⟨k, hfirst, hlast, hlit⟩
    by_cases hk : k < row.size
    · rw [Array.getD_eq_getD_getElem?, Array.getElem?_eq_getElem hk, Option.getD_some] at hlit
      refine ⟨k - first, by rw [Array.size_extract]; omega, ?_⟩
      rw [Array.getElem_extract, isBright_iff]
      simpa only [Nat.add_sub_cancel' hfirst] using hlit
    · rw [Array.getD_eq_getD_getElem?, Array.getElem?_eq_none (by omega), Option.getD_none] at hlit
      exact absurd hlit not_lit_zero

/-! ### One line -/

/-- The phaser, aimed at column `x` of line `y`, sees a line of pixels. -/
structure Sees (row : Array Color) (line : Nat) (x y : Int) : Prop where
  near : (line - y : Int).natAbs ≤ 4
  within : 0 ≤ x ∧ x < 256
  bright : ∃ k : Nat, max (x - 2) 0 ≤ k ∧ k ≤ min (x + 2) 255 ∧ Lit (row.getD k 0)

theorem sees_iff (row : Array Color) (line : Nat) (x y : Int) :
    Sees row line x y ↔ ¬ (4 < (line - y : Int).natAbs ∨ x < 0 ∨ 256 ≤ x) ∧
      brightBetween row (max (x - 2) 0).toNat (min (x + 2) 255).toNat = true := by
  rw [brightBetween_iff]
  constructor
  · rintro ⟨hnear, hwithin, k, hleft, hright, hlit⟩
    exact ⟨by omega, k, by omega, by omega, hlit⟩
  · rintro ⟨hplace, k, hleft, hright, hlit⟩
    exact ⟨by omega, by omega, k, by omega, by omega, hlit⟩

/-- The arithmetic fails for an aim too far above the line. -/
theorem look_of_far {row : Array Color} {line : Nat} {x y : Int}
    (hfar : 0x80000000 ≤ (line : Int) - y) : look row line x y = none := by
  unfold look
  rw [Word.signed32?_bind_of_not_fits]
  unfold Word.Fits32
  omega

/-- For any other aim it does not fail at the distance, and then not at all. -/
theorem look_of_near {row : Array Color} {line : Nat} {x y : Int} (hy : Word.Fits32 y)
    (hnear : (line : Int) - y < 0x80000000) :
    look row line x y =
      some (if 4 < (line - y : Int).natAbs ∨ x < 0 ∨ 256 ≤ x then none
        else if brightBetween row (max (x - 2) 0).toNat (min (x + 2) 255).toNat then
          some (UInt8.ofNat ((x + 40) / 2).toNat)
        else none) := by
  have hgap : Word.Fits32 (line - y) ∧ Word.Fits32 ((line - y : Int).natAbs : Int) := by
    unfold Word.Fits32 at hy ⊢
    omega
  have houtside : (decide ((phaserRange : Int) < (line - y : Int).natAbs) || decide (x < 0) ||
      decide ((screenWidth : Int) ≤ x)) = true ↔
      4 < (line - y : Int).natAbs ∨ x < 0 ∨ 256 ≤ x := by
    rw [Bool.or_eq_true, Bool.or_eq_true, decide_eq_true_eq, decide_eq_true_eq, decide_eq_true_eq,
      Int.ofNat_lt, or_assoc]
    exact Iff.rfl
  unfold look
  rw [Word.signed32?_bind hgap.1, Word.signed32?_bind hgap.2]
  by_cases hout : 4 < (line - y : Int).natAbs ∨ x < 0 ∨ 256 ≤ x
  · rw [if_pos (houtside.2 hout), if_pos hout]
    rfl
  · have hfits : Word.Fits32 (x - 2) ∧ Word.Fits32 (x + 2) ∧ Word.Fits32 (x + 40) := by
      unfold Word.Fits32
      omega
    have hhalf : (x + 40).tdiv 2 = (x + 40) / 2 := Int.tdiv_eq_ediv_of_nonneg (by omega)
    rw [if_neg (fun h => hout (houtside.1 h)), if_neg hout, Word.signed32?_bind hfits.1,
      Word.signed32?_bind hfits.2.1, Word.signed32?_bind hfits.2.2, hhalf]
    show (if brightBetween row (max (x - 2) 0).toNat (min (x + 2) 255).toNat then _ else _) = _
    split <;> rfl

theorem look_of_sees {row : Array Color} {line : Nat} {x y : Int} (hy : Word.Fits32 y)
    (hnear : (line : Int) - y < 0x80000000) (h : Sees row line x y) :
    look row line x y = some (some (UInt8.ofNat ((x + 40) / 2).toNat)) := by
  obtain ⟨hplace, hbright⟩ := (sees_iff row line x y).1 h
  rw [look_of_near hy hnear, if_neg hplace, if_pos hbright]

theorem look_of_not_sees {row : Array Color} {line : Nat} {x y : Int} (hy : Word.Fits32 y)
    (hnear : (line : Int) - y < 0x80000000) (h : ¬ Sees row line x y) :
    look row line x y = some none := by
  rw [look_of_near hy hnear]
  split
  · rfl
  · rename_i hplace
    rw [if_neg fun hbright => h ((sees_iff row line x y).2 ⟨hplace, hbright⟩)]

theorem look_eq_none_iff (row : Array Color) (line : Nat) (x : Int) {y : Int}
    (hy : Word.Fits32 y) : look row line x y = none ↔ 0x80000000 ≤ (line : Int) - y := by
  refine ⟨fun hnone => ?_, look_of_far⟩
  rcases Int.lt_or_le ((line : Int) - y) 0x80000000 with hnear | hfar
  · rw [look_of_near hy hnear] at hnone
    cases hnone
  · exact hfar

/-- **The light phaser.**  For an aim that is less than `0x80000000` lines above the line, nothing
but what the rule asks for happens: if the phaser sees the line, the light is on and the position is
kept, and otherwise the chip stays as it is.  For an aim further above, the arithmetic fails, which
stops the machine. -/
theorem light_seen (v : Vdp) (line : Nat) (row : Array Color) (x y : Int)
    (hy : Word.Fits32 y) :
    let w := v.setPhaserTarget (some (x, y))
    ((line : Int) - y < 0x80000000 →
      (Sees row line x y →
        w.senseLight line row =
            { w with lightDetected := true, hLatch := UInt8.ofNat ((x + 40) / 2).toNat } ∧
          0 ≤ (x + 40) / 2 ∧ (x + 40) / 2 < 256) ∧
      (¬ Sees row line x y → w.senseLight line row = w)) ∧
    (0x80000000 ≤ (line : Int) - y →
      w.senseLight line row = { w with notes := w.notes.push .overflow } ∧
        Note.overflow.stops = true) := by
  intro w
  have htarget : w.phaserTarget = some (x, y) := rfl
  refine ⟨fun hnear => ⟨fun hsees => ⟨?_, ?_⟩, fun hsees => ?_⟩, fun hfar => ⟨?_, rfl⟩⟩
  · rw [senseLight, htarget]
    dsimp only
    rw [look_of_sees hy hnear hsees]
  · have := hsees.within
    omega
  · rw [senseLight, htarget]
    dsimp only
    rw [look_of_not_sees hy hnear hsees]
  · rw [senseLight, htarget]
    dsimp only
    rw [look_of_far hfar]

/-- A white line, with the phaser aimed at a place near it and as far above the screen as 32 bits
allow. -/
theorem light_seen_of_white :
    let row := Array.replicate screenWidth (0xFFFFFF : Color)
    let near := (new .master .ntsc).setPhaserTarget (some (100, 50))
    let far := (new .master .ntsc).setPhaserTarget (some (100, -0x80000000))
    near.senseLight 54 row = { near with lightDetected := true, hLatch := 70 } ∧
      far.senseLight 0 row = { far with notes := #[.overflow] } := by
  intro row near far
  have hlit : Lit (row.getD 100 0) := by
    rw [Array.getD_eq_getD_getElem?, Array.getElem?_replicate]
    decide
  have hsees : Sees row 54 100 50 := ⟨by decide, by decide, 100, by decide, by decide, hlit⟩
  have hnear := (light_seen (new .master .ntsc) 54 row 100 50 (by decide)).1 (by decide)
  have hfar := (light_seen (new .master .ntsc) 0 row 100 (-0x80000000) (by decide)).2 (by decide)
  exact ⟨(hnear.1 hsees).1, hfar.1⟩

/-! ### Runs -/

/-- The machine has broken down. -/
def stopped (v : Vdp) : Bool := v.notes.any Note.stops

theorem stopped_push {v : Vdp} {n : Note} (hn : n.stops = false) :
    ({ v with notes := v.notes.push n } : Vdp).stopped = v.stopped := by
  unfold stopped
  rw [Array.any_push, hn, Bool.or_false]

/-- The aim is so far above a line of the picture that the arithmetic fails there. -/
def Overshoots (v : Vdp) (line : Nat) : Prop :=
  ∃ x y, v.phaserTarget = some (x, y) ∧ 0x80000000 ≤ (line : Int) - y

/-- The aim, if there is one, has 32 bits. -/
def Aimed (v : Vdp) : Prop := ∀ x y, v.phaserTarget = some (x, y) → Word.Fits32 y

theorem senseLight_stopped {v : Vdp} (h : v.Aimed) (line : Nat) (row : Array Color) :
    (v.senseLight line row).stopped = true ↔ v.stopped = true ∨ v.Overshoots line := by
  unfold senseLight Overshoots
  split
  · rename_i htarget
    simp [htarget]
  · rename_i x y htarget
    have hfails := look_eq_none_iff row line x (h x y htarget)
    have hover : (∃ a b, v.phaserTarget = some (a, b) ∧ 0x80000000 ≤ (line : Int) - b) ↔
        0x80000000 ≤ (line : Int) - y := by
      constructor
      · rintro ⟨a, b, hab, hfar⟩
        obtain ⟨rfl, rfl⟩ := Prod.mk.inj (Option.some.inj (htarget.symm.trans hab))
        exact hfar
      · exact fun hfar => ⟨x, y, htarget, hfar⟩
    rw [hover, ← hfails]
    split
    · rename_i hlook
      simp [hlook, stopped, Note.stops, Note.level]
    · rename_i hlook
      simp [hlook]
    · rename_i hlook
      simp [hlook, stopped]

theorem paint_stopped (v : Vdp) (line : Nat) : (v.paint line).2.stopped = v.stopped := by
  rw [paint_status]
  rfl

theorem countLine_stopped (v : Vdp) : v.countLine.stopped = v.stopped := by
  unfold countLine
  split
  · exact stopped_push rfl
  · rfl

theorem stopped_scratch (v : Vdp) (f : Frame) :
    ({ v with scratch := f } : Vdp).stopped = v.stopped := rfl

theorem renderLine_stopped {v : Vdp} (h : v.Aimed) (line : Nat) :
    (v.renderLine line).stopped = true ↔ v.stopped = true ∨ v.Overshoots line := by
  have htarget : (v.paint line).2.phaserTarget = v.phaserTarget := by
    have hbare := congrArg Vdp.phaserTarget (bare_paint v line)
    exact hbare
  have haimed : (v.paint line).2.Aimed := by
    unfold Aimed
    rw [htarget]
    exact h
  have hlight := senseLight_stopped haimed line (v.paint line).1
  unfold Overshoots at hlight ⊢
  rw [paint_stopped, htarget] at hlight
  rw [renderLine_eq]
  dsimp only
  rw [stopped_scratch, hlight]

theorem traced_stopped {v : Vdp} (h : v.Aimed) :
    v.traced.stopped = true ↔
      v.stopped = true ∨ v.line < v.activeHeight ∧ v.Overshoots v.line := by
  have hpoised : v.poised.stopped = v.stopped ∧ v.poised.phaserTarget = v.phaserTarget := by
    rw [poised_eq]
    exact ⟨rfl, rfl⟩
  have haimed : v.poised.Aimed := by
    unfold Aimed
    rw [hpoised.2]
    exact h
  rw [traced_eq]
  dsimp only
  by_cases hline : v.line < v.activeHeight
  · have hrender := renderLine_stopped haimed v.line
    unfold Overshoots at hrender ⊢
    rw [hpoised.1, hpoised.2] at hrender
    rw [if_pos hline, if_pos (Nat.le_of_lt hline), countLine_stopped, hrender]
    simp only [hline, true_and]
  · rw [if_neg hline]
    have hcount : (if v.line ≤ v.activeHeight then v.poised.countLine
        else { v.poised with lineCounter := v.poised.register 10 }).stopped = v.stopped := by
      split
      · rw [countLine_stopped, hpoised.1]
      · exact hpoised.1
    rw [hcount]
    simp only [hline, false_and, or_false]

/-- A line stops the machine iff it is one of the picture, and too far below the aim. -/
theorem nextLine_stopped {v : Vdp} (h : v.Aimed) :
    v.nextLine.2.stopped = true ↔
      v.stopped = true ∨ v.enter.line < v.enter.height ∧ v.Overshoots v.enter.line := by
  have hstart (u : Vdp) : u.startLine.2.stopped = u.traced.stopped := by
    rw [startLine_eq]
    split
    · rw [finishField_eq]
      rfl
    · rfl
  show ({ v with line := v.enter.line } : Vdp).startLine.2.stopped = true ↔ _
  rw [hstart]
  exact traced_stopped (v := { v with line := v.enter.line }) h

/-- An aim that no line of a picture is too far below. -/
def InReach (target : Option (Int × Int)) : Prop :=
  ∀ x y, target = some (x, y) → Word.Fits32 y ∧ (maxHeight : Int) - 0x80000000 ≤ y

theorem nextLine_stopped_of_inReach {v : Vdp} (h : InReach v.phaserTarget) :
    v.nextLine.2.stopped = v.stopped := by
  have hline := nextLine_stopped fun x y htarget => (h x y htarget).1
  have hclear : ¬ (v.enter.line < v.enter.height ∧ v.Overshoots v.enter.line) := by
    rintro ⟨hpicture, x, y, htarget, hfar⟩
    have hreach := (h x y htarget).2
    have hheight : v.enter.height ≤ maxHeight := v.activeHeight_le
    omega
  rw [Bool.eq_iff_iff, hline]
  simp only [hclear, or_false]

theorem advance_stopped {v : Vdp} (h : InReach v.phaserTarget) (cycles : Nat) :
    (v.advance cycles).2.stopped = v.stopped := by
  have hlines (n : Nat) (w : Vdp) (hw : InReach w.phaserTarget) :
      (nextLines n w).2.stopped = w.stopped := by
    induction n generalizing w with
    | zero => rfl
    | succ n ih =>
        have htarget : w.nextLine.2.phaserTarget = w.phaserTarget := by
          have hbare := congrArg Vdp.phaserTarget (bare_nextLine w)
          exact hbare
        exact (ih w.nextLine.2 (htarget ▸ hw)).trans (nextLine_stopped_of_inReach hw)
  exact hlines _ _ h

/-- The aim that an operation takes, if it takes one. -/
def Operation.aim : Operation → Option (Int × Int)
  | .access (.setPhaserTarget target) => target
  | _ => none

theorem writeRegister_stopped (v : Vdp) (i b : UInt8) :
    (v.writeRegister i b).stopped = v.stopped := by
  have hnoted : ({ v with notes := v.notes.push (.videoRegister i b v.line) } : Vdp).stopped =
      v.stopped := stopped_push rfl
  unfold writeRegister
  dsimp only
  split
  · exact hnoted
  · split
    · exact hnoted
    · exact (stopped_push (v := { v with
        notes := v.notes.push (.videoRegister i b v.line)
        regs := v.regs.setIfInBounds i.toNat b }) rfl).trans hnoted

theorem writeControl_stopped (v : Vdp) (b : UInt8) : (v.writeControl b).stopped = v.stopped := by
  unfold writeControl
  split
  · rfl
  · dsimp only
    split
    · rfl
    · split
      · exact writeRegister_stopped _ _ _
      · rfl

theorem writeData_stopped (v : Vdp) (b : UInt8) : (v.writeData b).stopped = v.stopped := by
  obtain ⟨vram, cram, latch, palette, h⟩ := writeData_eq v b
  rw [h]
  rfl

/-- An operation with an aim in reach, if with any, does not stop the machine. -/
theorem operate_stopped {v : Vdp} (hv : InReach v.phaserTarget) {o : Operation}
    (ho : InReach o.aim) :
    (v.operate o).stopped = v.stopped ∧ InReach (v.operate o).phaserTarget := by
  match o with
  | .reset => exact ⟨rfl, hv⟩
  | .setGlasses _ => exact ⟨rfl, hv⟩
  | .access (.setPhaserTarget _) => exact ⟨rfl, ho⟩
  | .access (.advance cycles) =>
      have htarget : (v.advance cycles).2.phaserTarget = v.phaserTarget :=
        congrArg (·.2.2) (advance_host v cycles)
      exact ⟨advance_stopped hv cycles, htarget ▸ hv⟩
  | .access .readData => exact ⟨rfl, hv⟩
  | .access (.writeData b) =>
      have htarget : (v.writeData b).phaserTarget = v.phaserTarget :=
        congrArg (·.2.2) (writeData_host v b)
      exact ⟨writeData_stopped v b, htarget ▸ hv⟩
  | .access .readStatus => exact ⟨rfl, hv⟩
  | .access (.writeControl b) =>
      have htarget : (v.writeControl b).phaserTarget = v.phaserTarget :=
        congrArg (·.2.2) (writeControl_host v b)
      exact ⟨writeControl_stopped v b, htarget ▸ hv⟩
  | .access .latchHCounter => exact ⟨rfl, hv⟩
  | .access (.setShutter _) => exact ⟨rfl, hv⟩

/-- **Safe aims.**  As long as every aim is in reach of the picture, nothing that is done to the
chip stops the machine. -/
theorem stopped_run : ∀ (os : List Operation) {v : Vdp}, InReach v.phaserTarget →
    (∀ o ∈ os, InReach o.aim) → (os.foldl operate v).stopped = v.stopped
  | [], _, _, _ => rfl
  | o :: os, v, hv, hos => by
      obtain ⟨hstep, hnext⟩ := operate_stopped hv (hos o (List.mem_cons_self ..))
      exact (stopped_run os hnext fun x hx => hos x (List.mem_cons_of_mem _ hx)).trans hstep

end Vdp

end MasterSystem.Video
