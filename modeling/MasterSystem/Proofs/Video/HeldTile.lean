import MasterSystem.Proofs.Video.Rows

/-! # The tile that is held

While a line of background is made, the row of the tile that was fetched last is kept for as long as
the address of the name table entry stays the same.  The address says which tile is shown, but not
which of its eight rows, so that a tile must not change its row half way.  It does where the
vertical scroll stops, at column 192, if that column is inside a tile (`Torn`).

* **Entries.**  Two places of the background have their entry at the same address exactly when they
  are in the same tile (`entryAddress_eq_iff`).
* **Rows.**  The row that a column shows is the row of column 191 as long as the tile of column 191
  lasts, and its own row otherwise (`shownRow`).
* **Lines.**  A line of background is made of the rows shown, which are the rows that the definition
  pixel by pixel asks for if no column is torn (`background_eq`).  If one is, there are contents of
  video RAM for which it shows (`probe`). -/

namespace MasterSystem.Video.Vdp

/-! ### Entries -/

theorem sourceX_lt (v : Vdp) (line x : Nat) : v.sourceX line x < 256 := Nat.mod_lt _ (by decide)

theorem scrollX_lt (v : Vdp) (line : Nat) : v.scrollX line < 256 := by
  unfold scrollX
  split
  · decide
  · exact UInt8.toNat_lt _

theorem sourceX_succ (v : Vdp) (line x : Nat) :
    v.sourceX line (x + 1) = (v.sourceX line x + 1) % 256 := by
  have hscroll := v.scrollX_lt line
  unfold sourceX
  omega

/-- The vertical scroll is the same on both sides of a column but for column 192. -/
theorem sourceY_succ (v : Vdp) (line : Nat) {x : Nat} (hx : x ≠ 191) :
    v.sourceY line (x + 1) = v.sourceY line x := by
  have hside : decide (192 ≤ x + 1) = decide (192 ≤ x) := decide_eq_decide.2 (by omega)
  unfold sourceY scrollY
  rw [hside]

/-- Places of the background have one entry if they are in one tile. -/
theorem entryAddress_eq_iff (v : Vdp) {sx tx : Nat} (hs : sx < 256) (ht : tx < 256) (sy ty : Nat) :
    v.entryAddress sx sy = v.entryAddress tx ty ↔ sx / 8 = tx / 8 ∧ sy / 8 = ty / 8 := by
  unfold entryAddress
  omega

/-! ### Rows -/

/-- Column `x` comes after column 191 in the tile of column 191. -/
def AfterStop (v : Vdp) (line x : Nat) : Prop :=
  192 ≤ x ∧ x < 192 + v.sourceX line x % 8 ∧ v.sourceY line x / 8 = v.sourceY line 191 / 8

instance (v : Vdp) (line x : Nat) : Decidable (v.AfterStop line x) :=
  inferInstanceAs (Decidable (_ ∧ _ ∧ _))

/-- Column `x` is in the tile of column 191 and asks for another of its rows. -/
def Torn (v : Vdp) (line x : Nat) : Prop :=
  v.AfterStop line x ∧ v.sourceY line x % 8 ≠ v.sourceY line 191 % 8

instance (v : Vdp) (line x : Nat) : Decidable (v.Torn line x) :=
  inferInstanceAs (Decidable (_ ∧ _))

/-- The row of its tile that column `x` shows. -/
def shownRow (v : Vdp) (line x : Nat) : Nat :=
  (if v.AfterStop line x then v.sourceY line 191 else v.sourceY line x) % 8

/-- The address of the name table entry of column `x`. -/
def columnEntry (v : Vdp) (line x : Nat) : Nat :=
  v.entryAddress (v.sourceX line x) (v.sourceY line x)

/-- The tile row that column `x` shows. -/
def shownTile (v : Vdp) (line x : Nat) : TileRow :=
  v.fetchTile (v.columnEntry line x) (v.shownRow line x)

/-- The background that column `x` shows. -/
def shownPixel (v : Vdp) (line x : Nat) : UInt8 :=
  (v.shownTile line x).pixel (v.sourceX line x % 8)

theorem columnEntry_succ_iff (v : Vdp) (line x : Nat) :
    v.columnEntry line (x + 1) = v.columnEntry line x ↔
      v.sourceX line (x + 1) % 8 ≠ 0 ∧ v.sourceY line (x + 1) / 8 = v.sourceY line x / 8 := by
  have hlt := v.sourceX_lt line x
  have hsucc := v.sourceX_succ line x
  unfold columnEntry
  rw [entryAddress_eq_iff v (v.sourceX_lt line _) hlt, hsucc]
  refine and_congr_left fun _ => ?_
  omega

/-- A column shows the row of the one before as long as the entry stays the same. -/
theorem shownRow_succ_of_eq (v : Vdp) {line x : Nat}
    (h : v.columnEntry line (x + 1) = v.columnEntry line x) :
    v.shownRow line (x + 1) = v.shownRow line x := by
  obtain ⟨hinside, hrow⟩ := (v.columnEntry_succ_iff line x).1 h
  have hlt := v.sourceX_lt line x
  have hsucc := v.sourceX_succ line x
  unfold shownRow
  by_cases hstop : x = 191
  · subst hstop
    have hinside : v.sourceX line 192 % 8 ≠ 0 := hinside
    have hafter : v.AfterStop line 192 := ⟨Nat.le_refl _, by omega, hrow⟩
    have hbefore : ¬v.AfterStop line 191 := fun h => absurd h.1 (by decide)
    rw [if_pos hafter, if_neg hbefore]
  · have hy := v.sourceY_succ line hstop
    have hiff : v.AfterStop line (x + 1) ↔ v.AfterStop line x := by
      unfold AfterStop
      rw [hy]
      refine and_congr (by omega) (and_congr_left fun _ => ?_)
      omega
    simp only [hiff, hy]

/-- A column at which the entry changes shows its own row. -/
theorem shownRow_succ_of_ne (v : Vdp) {line x : Nat}
    (h : v.columnEntry line (x + 1) ≠ v.columnEntry line x) :
    v.shownRow line (x + 1) = v.sourceY line (x + 1) % 8 := by
  have hchange := mt (v.columnEntry_succ_iff line x).2 h
  unfold shownRow
  rw [if_neg]
  rintro ⟨hx, hin, hrow⟩
  by_cases hstop : x = 191
  · subst hstop
    have hin : 192 < 192 + v.sourceX line 192 % 8 := hin
    have hinside : v.sourceX line 192 % 8 ≠ 0 := by omega
    exact hchange ⟨hinside, hrow⟩
  · exact hchange ⟨by omega, congrArg (· / 8) (v.sourceY_succ line hstop)⟩

/-- The first column of a line shows its own row. -/
theorem shownRow_zero (v : Vdp) (line : Nat) : v.shownRow line 0 = v.sourceY line 0 % 8 := by
  unfold shownRow
  rw [if_neg fun h => absurd h.1 (by decide)]

/-- A column that is not torn shows what the definition pixel by pixel asks for. -/
theorem shownPixel_of_not_torn (v : Vdp) {line x : Nat} (h : ¬v.Torn line x) :
    v.shownPixel line x = v.backgroundPixel line x := by
  have hrow : v.shownRow line x = v.sourceY line x % 8 := by
    unfold shownRow
    split
    · rename_i hafter
      exact (Decidable.not_not.1 fun hne => h ⟨hafter, hne⟩).symm
    · rfl
  unfold shownPixel shownTile
  rw [hrow]
  rfl

/-! ### Lines -/

/-- The tile row that is used for column `x`: the one that is held, or a new one. -/
def usedTile (v : Vdp) (line x : Nat) (held : Option (Nat × TileRow)) : TileRow :=
  match held with
  | some (a, t) =>
    if a = v.columnEntry line x then t
    else v.fetchTile (v.columnEntry line x) (v.sourceY line x % 8)
  | none => v.fetchTile (v.columnEntry line x) (v.sourceY line x % 8)

theorem backgroundFrom_succ (v : Vdp) (line n x : Nat) (held : Option (Nat × TileRow))
    (out : Array UInt8) : v.backgroundFrom line (n + 1) x held out =
      v.backgroundFrom line n (x + 1) (some (v.columnEntry line x, v.usedTile line x held))
        (out.push ((v.usedTile line x held).pixel (v.sourceX line x % 8))) := rfl

/-- What is held before column `x`: nothing at the left edge, and else the tile row that the column
before shows. -/
def Holds (v : Vdp) (line : Nat) (held : Option (Nat × TileRow)) : Nat → Prop
  | 0 => held = none
  | x + 1 => held = some (v.columnEntry line x, v.shownTile line x)

/-- The tile row that is used for a column is the one that the column shows. -/
theorem Holds.usedTile_eq {v : Vdp} {line x : Nat} {held : Option (Nat × TileRow)}
    (h : v.Holds line held x) : v.usedTile line x held = v.shownTile line x := by
  unfold usedTile shownTile
  cases x with
  | zero =>
      obtain rfl : held = none := h
      dsimp only
      rw [shownRow_zero]
  | succ x =>
      obtain rfl : held = some (v.columnEntry line x, v.shownTile line x) := h
      dsimp only
      split
      · rename_i hsame
        rw [v.shownRow_succ_of_eq hsame.symm, ← hsame]
        rfl
      · rename_i hother
        rw [v.shownRow_succ_of_ne (Ne.symm hother)]

theorem backgroundFrom_eq (v : Vdp) (line : Nat) : ∀ (n x : Nat) (held : Option (Nat × TileRow))
    (out : Array UInt8), v.Holds line held x →
    (v.backgroundFrom line n x held out).toList =
      out.toList ++ (List.range' x n).map (v.shownPixel line)
  | 0, _, _, out, _ => (List.append_nil out.toList).symm
  | n + 1, x, held, out, h => by
      have hnext : v.Holds line (some (v.columnEntry line x, v.shownTile line x)) (x + 1) := rfl
      rw [backgroundFrom_succ, h.usedTile_eq, backgroundFrom_eq v line n (x + 1) _ _ hnext,
        Array.toList_push, List.range'_succ, List.map_cons, List.append_assoc]
      rfl

/-- A line of background is made of the rows shown. -/
theorem background_eq (v : Vdp) (line : Nat) :
    (v.background line).toList = (List.range screenWidth).map (v.shownPixel line) := by
  unfold background
  rw [v.backgroundFrom_eq line screenWidth 0 none _ rfl, List.range_eq_range']
  rfl

/-! ### Torn tiles -/

/-- The vertical scroll stops inside a tile, and the tile's right part is another of its rows. -/
def Tears (v : Vdp) (line : Nat) : Prop :=
  v.regBit 0 0x80 = true ∧ v.scrollX line % 8 ≠ 0 ∧
    line % v.backgroundHeight / 8 = (line + v.vscroll.toNat) % v.backgroundHeight / 8 ∧
    line % v.backgroundHeight % 8 ≠ (line + v.vscroll.toNat) % v.backgroundHeight % 8

instance (v : Vdp) (line : Nat) : Decidable (v.Tears line) :=
  inferInstanceAs (Decidable (_ ∧ _ ∧ _ ∧ _))

theorem sourceY_191 (v : Vdp) (line : Nat) :
    v.sourceY line 191 = (line + v.vscroll.toNat) % v.backgroundHeight := by
  simp [sourceY, scrollY]

theorem sourceY_of_stopped (v : Vdp) (line : Nat) {x : Nat} (hx : 192 ≤ x)
    (h : v.regBit 0 0x80 = true) : v.sourceY line x = line % v.backgroundHeight := by
  simp [sourceY, scrollY, h, hx]

theorem sourceY_of_free (v : Vdp) (line x : Nat) (h : v.regBit 0 0x80 = false) :
    v.sourceY line x = v.sourceY line 191 := by
  simp [sourceY, scrollY, h]

/-- A line tears exactly if one of its columns is torn, and then column 192 is. -/
theorem torn_iff (v : Vdp) (line x : Nat) :
    v.Torn line x ↔ v.Tears line ∧ 192 ≤ x ∧ x < 192 + v.sourceX line x % 8 := by
  have hscroll := v.scrollX_lt line
  have hstop := v.sourceY_191 line
  cases hfree : v.regBit 0 0x80 with
  | false =>
      have hy := v.sourceY_of_free line x hfree
      constructor
      · rintro ⟨-, hrow⟩
        exact absurd (congrArg (· % 8) hy) hrow
      · rintro ⟨⟨hlocked, -⟩, -⟩
        rw [hfree] at hlocked
        cases hlocked
  | true =>
      have hinside (hx : 192 ≤ x) (hlt : x < 192 + v.sourceX line x % 8) :
          v.scrollX line % 8 ≠ 0 := by
        unfold sourceX at hlt
        omega
      constructor
      · rintro ⟨⟨hx, hlt, htile⟩, hrow⟩
        rw [v.sourceY_of_stopped line hx hfree, hstop] at htile hrow
        exact ⟨⟨hfree, hinside hx hlt, htile, hrow⟩, hx, hlt⟩
      · rintro ⟨⟨-, -, htile, hrow⟩, hx, hlt⟩
        unfold Torn AfterStop
        rw [v.sourceY_of_stopped line hx hfree, hstop]
        exact ⟨⟨hx, hlt, htile⟩, hrow⟩

theorem torn_192_of_tears {v : Vdp} {line : Nat} (h : v.Tears line) : v.Torn line 192 := by
  have hscroll := v.scrollX_lt line
  have hinside := h.2.1
  refine (v.torn_iff line 192).2 ⟨h, Nat.le_refl _, ?_⟩
  unfold sourceX
  omega

/-- The entries of the name table lie before the last tile. -/
theorem columnEntry_lt (v : Vdp) (line x : Nat) : v.columnEntry line x + 1 < 511 * 32 := by
  have hx := v.sourceX_lt line x
  have hhigh : (v.register 2 &&& 0x0C).toNat < 0x0D := and_lt _ (by decide)
  have hlow : (v.register 2 &&& 0x0E).toNat < 0x0F := and_lt _ (by decide)
  have hy : v.sourceY line x < v.backgroundHeight := Nat.mod_lt _ (by
    unfold backgroundHeight
    split <;> decide)
  unfold columnEntry entryAddress nameTable
  unfold backgroundHeight at hy
  split at hy
  · rw [if_pos (by assumption)]
    omega
  · rw [if_neg (by assumption)]
    omega

/-- Video RAM in which the entry at an address names the last tile, of which all is blank but one
row. -/
def probe (address row : Nat) : Array UInt8 :=
  Array.ofFn fun i : Fin vramSize =>
    if i = address then 0xFF else if i = address + 1 then 0x01
    else if i = 511 * 32 + row * 4 then 0xFF else 0

theorem probe_size (address row : Nat) : (probe address row).size = vramSize := Array.size_ofFn

theorem vramAt_probe (v : Vdp) (address row : Nat) {i : Nat} (hi : i < vramSize) :
    vramAt { v with vram := probe address row } i =
      if i = address then 0xFF else if i = address + 1 then 0x01
      else if i = 511 * 32 + row * 4 then 0xFF else 0 := by
  unfold vramAt probe
  dsimp only
  rw [Nat.mod_eq_of_lt hi, Array.getD_eq_getD_getElem?, Array.getElem?_ofFn, dif_pos hi]
  rfl

/-- The probe's tile is opaque in one row. -/
theorem fetchTile_probe (v : Vdp) {address row y : Nat} (haddress : address + 1 < 511 * 32)
    (hy : y < 8) :
    fetchTile { v with vram := probe address row } address y =
      ⟨0x01FF, ⟨if y = row then 0xFF else 0, 0, 0, 0⟩⟩ := by
  have hat {i : Nat} (hi : i < vramSize) := v.vramAt_probe address row hi
  have hentry : Word.ofBytes (vramAt { v with vram := probe address row } (address + 1))
      (vramAt { v with vram := probe address row } address) = 0x01FF := by
    rw [hat (by unfold vramSize; omega), hat (by unfold vramSize; omega), if_neg (by omega),
      if_pos rfl, if_pos rfl]
    decide
  have hfirst : vramAt { v with vram := probe address row } (511 * 32 + y * 4) =
      if y = row then 0xFF else 0 := by
    rw [hat (by unfold vramSize; omega), if_neg (by omega), if_neg (by omega)]
    by_cases hrow : y = row
    · rw [if_pos hrow, if_pos (by omega)]
    · rw [if_neg hrow, if_neg (by omega)]
  have hother {k : Nat} (hk : k = 1 ∨ k = 2 ∨ k = 3) :
      vramAt { v with vram := probe address row } (511 * 32 + y * 4 + k) = 0 := by
    rw [hat (by unfold vramSize; omega), if_neg (by omega), if_neg (by omega), if_neg (by omega)]
  have hturned : ((0x01FF : UInt16) &&& 0x0400 == 0) = true := by decide
  have hnumber : ((0x01FF : UInt16) &&& 0x01FF).toNat = 511 := by decide
  unfold fetchTile planesAt
  dsimp only
  rw [hentry, hturned, if_pos rfl, hnumber, hfirst, hother (.inl rfl), hother (.inr (.inl rfl)),
    hother (.inr (.inr rfl))]

/-- What decides where a tile is fetched from is not in video RAM. -/
theorem shownPixel_withVram (v : Vdp) (vram : Array UInt8) (line x : Nat) :
    shownPixel { v with vram := vram } line x =
      (fetchTile { v with vram := vram } (v.columnEntry line x) (v.shownRow line x)).pixel
        (v.sourceX line x % 8) := rfl

theorem backgroundPixel_withVram (v : Vdp) (vram : Array UInt8) (line x : Nat) :
    backgroundPixel { v with vram := vram } line x =
      (fetchTile { v with vram := vram } (v.columnEntry line x) (v.sourceY line x % 8)).pixel
        (v.sourceX line x % 8) := rfl

/-- A torn column does not show what is asked for if its tile is the probe's. -/
theorem probe_shows {v : Vdp} {line x : Nat} (h : v.Torn line x) :
    shownPixel { v with vram := probe (v.columnEntry line x) (v.sourceY line 191 % 8) } line x ≠
      backgroundPixel { v with vram := probe (v.columnEntry line x) (v.sourceY line 191 % 8) }
        line x := by
  obtain ⟨hafter, hrow⟩ := h
  have hshown : v.shownRow line x = v.sourceY line 191 % 8 := by
    unfold shownRow
    rw [if_pos hafter]
  have hlast := v.columnEntry_lt line x
  have hopaque : ∀ k < 8, (⟨0x01FF, ⟨0xFF, 0, 0, 0⟩⟩ : TileRow).pixel k ≠
      (⟨0x01FF, ⟨0, 0, 0, 0⟩⟩ : TileRow).pixel k := by decide
  rw [shownPixel_withVram, backgroundPixel_withVram, hshown,
    fetchTile_probe v hlast (Nat.mod_lt _ (by decide)),
    fetchTile_probe v hlast (Nat.mod_lt _ (by decide)), if_pos rfl, if_neg hrow]
  exact hopaque _ (Nat.mod_lt _ (by decide))

/-- **What is held shows only where a tile is torn.**  On every line of background, a column that is
torn shows its tile in the row of column 191, and every other column shows what the definition pixel
by pixel asks for.  The line is what that definition says, whatever is in video RAM, exactly if it
does not tear: unless the vertical scroll stops at column 192 inside a tile, at another row of the
same tiles. -/
theorem background_tears (v : Vdp) (line : Nat) :
    (v.background line).toList = (List.range screenWidth).map (fun x =>
      if v.Torn line x then
        (v.fetchTile (v.columnEntry line x) (v.sourceY line 191 % 8)).pixel (v.sourceX line x % 8)
      else v.backgroundPixel line x) ∧
    ((∀ vram : Array UInt8, vram.size = vramSize →
        (background { v with vram := vram } line).toList =
          (List.range screenWidth).map (backgroundPixel { v with vram := vram } line)) ↔
      ¬v.Tears line) := by
  refine ⟨?_, ?_, ?_⟩
  · rw [v.background_eq]
    refine List.map_congr_left fun x _ => ?_
    split
    · rename_i htorn
      unfold shownPixel shownTile shownRow
      rw [if_pos htorn.1]
    · rename_i hwhole
      exact v.shownPixel_of_not_torn hwhole
  · intro hall htears
    have htorn := torn_192_of_tears htears
    have hline := hall _ (probe_size (v.columnEntry line 192) (v.sourceY line 191 % 8))
    rw [background_eq] at hline
    exact probe_shows htorn (List.map_inj_left.1 hline 192 (by decide))
  · intro hwhole vram _
    rw [background_eq]
    refine List.map_congr_left fun x _ => shownPixel_of_not_torn _ fun htorn => ?_
    exact hwhole ((torn_iff v line x).1 htorn).1

/-- The right columns are locked, and the picture is moved by four columns and one line. -/
example : Tears { new .master .ntsc with
    regs := #v[0x84, 0x40, 0x0E, 0, 0, 0, 0, 0, 4, 0, 0, 0, 0, 0, 0, 0], vscroll := 1 } 0 := by
  decide

end MasterSystem.Video.Vdp
