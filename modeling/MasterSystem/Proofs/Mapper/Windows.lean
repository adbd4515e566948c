import MasterSystem.Mapper.Basic

/-! # Windows of a mapper

Which reads of the cartridge a write can change.

* **Windows.**  A register of a board controls windows of the address space (`windows`), and a write
  to it leaves what is read outside them (`read_write_of_outside`).
* **RAM.**  An address can show a cell of the RAM on the cartridge (`shown?`).  A write there goes
  into the cell, and the byte is read wherever that cell is shown (`read_write_of_cell`); no other
  write touches the RAM (`ram_write`).
* **Histories.**  Over writes and resets, in any order, the RAM keeps its size and every cell of it
  the byte that was stored in it last (`ram_after`). -/

namespace MasterSystem.Mapper

/-! ### Windows -/

/-- A register and a window it controls, from the first to the last address. -/
structure Window where
  register : UInt16
  first : UInt16
  last : UInt16
deriving DecidableEq, Repr

/-- The windows that the registers of a board control. -/
def windows : Board → List Window
  | .sega =>
      [⟨0xFFFD, 0x0400, 0x3FFF⟩, ⟨0xFFFE, 0x4000, 0x7FFF⟩, ⟨0xFFFF, 0x8000, 0xBFFF⟩,
        ⟨0xFFFC, 0x8000, 0xBFFF⟩]
  | .codemasters =>
      [⟨0x0000, 0x0000, 0x3FFF⟩, ⟨0x4000, 0x4000, 0x7FFF⟩, ⟨0x4000, 0xA000, 0xBFFF⟩,
        ⟨0x8000, 0x8000, 0xBFFF⟩]
  | .korean => [⟨0xA000, 0x8000, 0xBFFF⟩]
  | .msx =>
      [⟨0x0000, 0x8000, 0x9FFF⟩, ⟨0x0001, 0xA000, 0xBFFF⟩, ⟨0x0002, 0x4000, 0x5FFF⟩,
        ⟨0x0003, 0x6000, 0x7FFF⟩]
  | .janggun =>
      [⟨0x4000, 0x4000, 0x5FFF⟩, ⟨0x6000, 0x6000, 0x7FFF⟩, ⟨0x8000, 0x8000, 0x9FFF⟩,
        ⟨0xA000, 0xA000, 0xBFFF⟩, ⟨0xFFFE, 0x4000, 0x7FFF⟩, ⟨0xFFFF, 0x8000, 0xBFFF⟩]
  | .romOnly | .sg1000 | .unknown | .unsupported => []

/-- Whether a write at an address can change what a board shows at another. -/
def Controls (board : Board) (address shown : UInt16) : Prop :=
  ∃ w ∈ windows board, w.register = address ∧ w.first ≤ shown ∧ shown ≤ w.last

instance (board : Board) (address shown : UInt16) : Decidable (Controls board address shown) :=
  inferInstanceAs (Decidable (∃ w ∈ windows board, _))

/-- The cell of cartridge RAM that is shown at an address, if one is. -/
def shown? (m : Mapper) (address : UInt16) : Option Nat :=
  match m with
  | sega m => if 0x8000 ≤ address && address < 0xC000 then m.ramCell? address else none
  | codemasters m => if address < 0xC000 then m.ramCell? address else none
  | sg1000 m => m.ramCell? address
  | romOnly | korean _ | msx _ | janggun _ => none

theorem controls_sega {a x : UInt16} : Controls .sega a x ↔
    (a = 0xFFFD ∧ 0x0400 ≤ x ∧ x ≤ 0x3FFF) ∨ (a = 0xFFFE ∧ 0x4000 ≤ x ∧ x ≤ 0x7FFF) ∨
      ((a = 0xFFFF ∨ a = 0xFFFC) ∧ 0x8000 ≤ x ∧ x ≤ 0xBFFF) := by
  simp only [Controls, windows, List.mem_cons, List.not_mem_nil, or_false, exists_eq_or_imp,
    exists_eq_left]
  grind

theorem controls_codemasters {a x : UInt16} : Controls .codemasters a x ↔
    (a = 0x0000 ∧ 0x0000 ≤ x ∧ x ≤ 0x3FFF) ∨
      (a = 0x4000 ∧ (0x4000 ≤ x ∧ x ≤ 0x7FFF ∨ 0xA000 ≤ x ∧ x ≤ 0xBFFF)) ∨
      (a = 0x8000 ∧ 0x8000 ≤ x ∧ x ≤ 0xBFFF) := by
  simp only [Controls, windows, List.mem_cons, List.not_mem_nil, or_false, exists_eq_or_imp,
    exists_eq_left]
  grind

theorem controls_korean {a x : UInt16} :
    Controls .korean a x ↔ a = 0xA000 ∧ 0x8000 ≤ x ∧ x ≤ 0xBFFF := by
  simp only [Controls, windows, List.mem_cons, List.not_mem_nil, or_false, exists_eq_left]
  grind

theorem controls_msx {a x : UInt16} : Controls .msx a x ↔
    (a = 0x0000 ∧ 0x8000 ≤ x ∧ x ≤ 0x9FFF) ∨ (a = 0x0001 ∧ 0xA000 ≤ x ∧ x ≤ 0xBFFF) ∨
      (a = 0x0002 ∧ 0x4000 ≤ x ∧ x ≤ 0x5FFF) ∨ (a = 0x0003 ∧ 0x6000 ≤ x ∧ x ≤ 0x7FFF) := by
  simp only [Controls, windows, List.mem_cons, List.not_mem_nil, or_false, exists_eq_or_imp,
    exists_eq_left]
  grind

theorem controls_janggun {a x : UInt16} : Controls .janggun a x ↔
    (a = 0x4000 ∧ 0x4000 ≤ x ∧ x ≤ 0x5FFF) ∨ (a = 0x6000 ∧ 0x6000 ≤ x ∧ x ≤ 0x7FFF) ∨
      (a = 0x8000 ∧ 0x8000 ≤ x ∧ x ≤ 0x9FFF) ∨ (a = 0xA000 ∧ 0xA000 ≤ x ∧ x ≤ 0xBFFF) ∨
      (a = 0xFFFE ∧ 0x4000 ≤ x ∧ x ≤ 0x7FFF) ∨ (a = 0xFFFF ∧ 0x8000 ≤ x ∧ x ≤ 0xBFFF) := by
  simp only [Controls, windows, List.mem_cons, List.not_mem_nil, or_false, exists_eq_or_imp,
    exists_eq_left]
  grind

/-! ### Slots -/

theorem getD_setIfInBounds_ne {α : Type} {n i j : Nat} (xs : Vector α n) (x d : α) (h : i ≠ j) :
    (xs.setIfInBounds i x).getD j d = xs.getD j d := by
  simp [Vector.getD, h]

theorem Sega.read_write_of_outside (m : Sega) (rom : Array UInt8) {a x : UInt16} (v : UInt8)
    (hx : ¬ Controls .sega a x) (h : (sega m).shown? a = none) :
    (m.write a v).read rom x = m.read rom x := by
  rw [controls_sega] at hx
  unfold Sega.write
  split
  · split
    · simp only [Sega.read, Sega.ramCell?]
      grind
    · have hne (i j : Nat) (hi : j ≠ i) := getD_setIfInBounds_ne m.banks v 0 hi
      obtain rfl | rfl | rfl : a = 0xFFFD ∨ a = 0xFFFE ∨ a = 0xFFFF := by grind
      all_goals
        simp only [Sega.read, Sega.ramCell?]
        grind
  · split
    · simp only [shown?] at h
      grind
    · rfl

theorem Codemasters.read_write_of_outside (m : Codemasters) (rom : Array UInt8) {a x : UInt16}
    (v : UInt8) (hx : ¬ Controls .codemasters a x) (h : (codemasters m).shown? a = none) :
    (m.write a v).read rom x = m.read rom x := by
  rw [controls_codemasters] at hx
  have hne (i j : Nat) (w : UInt8) (hi : i ≠ j) := getD_setIfInBounds_ne m.banks w 0 hi
  unfold Codemasters.write
  split
  · rfl
  split
  · simp only [shown?] at h
    grind
  all_goals
    simp only [Codemasters.read, Codemasters.ramCell?]
    grind

theorem Korean.read_write_of_outside (m : Korean) (rom : Array UInt8) {a x : UInt16} (v : UInt8)
    (hx : ¬ Controls .korean a x) : (m.write a v).read rom x = m.read rom x := by
  rw [controls_korean] at hx
  simp only [Korean.write, Korean.read]
  grind

/-! ### Pages -/

/-- Whether an address lies in a window of eight kilobytes. -/
def InWindow (i : Fin 4) (x : UInt16) : Prop := 0x4000 ≤ x ∧ x < 0xC000 ∧ windowOf x = i

theorem inWindow_iff {i : Fin 4} {x : UInt16} :
    InWindow i x ↔ 0x4000 + 0x2000 * i.val ≤ x.toNat ∧ x.toNat ≤ 0x5FFF + 0x2000 * i.val := by
  have hi := i.isLt
  simp only [InWindow, windowOf, Fin.ofNat, pageSize, Fin.ext_iff, UInt16.le_iff_toNat_le,
    UInt16.lt_iff_toNat_lt, UInt16.reduceToNat]
  omega

theorem Msx.read_set (m : Msx) (rom : Array UInt8) {i : Fin 4} {x : UInt16} (v : UInt8)
    (h : ¬ InWindow i x) :
    ({ pages := m.pages.set i.val v i.isLt } : Msx).read rom x = m.read rom x := by
  simp only [Msx.read, Fin.getElem_fin]
  split
  · rfl
  split
  · have hne : i.val ≠ (windowOf x).val := fun e => h ⟨UInt16.not_lt.1 ‹_›, ‹_›, (Fin.ext e).symm⟩
    rw [Vector.getElem_set_ne _ _ hne]
  · rfl

theorem Janggun.read_select (m : Janggun) (rom : Array UInt8) {i : Fin 4} {x : UInt16} (v : UInt8)
    (h : ¬ InWindow i x) : (m.select i v).read rom x = m.read rom x := by
  simp only [Janggun.read, Janggun.select, Fin.getElem_fin]
  split
  · rfl
  split
  · have hne : i.val ≠ (windowOf x).val := fun e => h ⟨UInt16.not_lt.1 ‹_›, ‹_›, (Fin.ext e).symm⟩
    simp only [Vector.getElem_set_ne _ _ hne]
  · rfl

theorem Janggun.read_selectPair (m : Janggun) (rom : Array UInt8) {i j : Fin 4} {x : UInt16}
    (v : UInt8) (hi : ¬ InWindow i x) (hj : ¬ InWindow j x) :
    (m.selectPair i j v).read rom x = m.read rom x :=
  ((m.select i _).read_select rom _ hj).trans (m.read_select rom _ hi)

theorem Msx.controls_of_register {a x : UInt16} {i : Fin 4} (ha : register? a = some i)
    (hx : InWindow i x) : Controls .msx a x := by
  rw [inWindow_iff] at hx
  simp only [controls_msx, UInt16.le_iff_toNat_le, UInt16.reduceToNat]
  unfold register? at ha
  repeat' split at ha
  all_goals cases ha
  all_goals grind

theorem Msx.read_write_of_outside (m : Msx) (rom : Array UInt8) {a x : UInt16} (v : UInt8)
    (hx : ¬ Controls .msx a x) : (m.write a v).read rom x = m.read rom x := by
  unfold Msx.write
  split
  · exact m.read_set rom v fun hin => hx (controls_of_register ‹_› hin)
  · rfl

theorem Janggun.read_write_of_outside (m : Janggun) (rom : Array UInt8) {a x : UInt16} (v : UInt8)
    (hx : ¬ Controls .janggun a x) : (m.write a v).read rom x = m.read rom x := by
  simp only [controls_janggun, UInt16.le_iff_toNat_le, UInt16.reduceToNat] at hx
  unfold Janggun.write
  -- A register selects one page or two, and none of the windows that it controls shows the address.
  repeat' split
  all_goals first
    | rfl
    | exact m.read_select rom v (by rw [inWindow_iff]; grind)
    | exact m.read_selectPair rom v (by rw [inWindow_iff]; grind) (by rw [inWindow_iff]; grind)

/-! ### All boards -/

/-- A write that does not go into RAM changes no read outside the windows it controls. -/
theorem read_write_of_outside (m : Mapper) (rom : Array UInt8) {a x : UInt16} (v : UInt8)
    (h : m.shown? a = none) (hx : ¬ Controls m.board a x) :
    (m.write a v).read rom x = m.read rom x := by
  cases m with
  | romOnly => rfl
  | sega m => exact m.read_write_of_outside rom v hx h
  | codemasters m => exact m.read_write_of_outside rom v hx h
  | korean m => exact m.read_write_of_outside rom v hx
  | msx m => exact m.read_write_of_outside rom v hx
  | janggun m => exact m.read_write_of_outside rom v hx
  | sg1000 m =>
      have hm : m.write a v = m := by
        simp only [shown?] at h
        simp only [Expansion.write, h]
      simp only [write, hm]

/-! ### RAM -/

theorem mod_size_lt {ram : Array UInt8} (n : Nat) (h : ¬ ram.isEmpty) : n % ram.size < ram.size :=
  Nat.mod_lt _ (Nat.pos_of_ne_zero fun h0 => h (Array.isEmpty_iff_size_eq_zero.2 h0))

theorem Sega.ramCell_lt {m : Sega} {a : UInt16} {i : Nat} (h : m.ramCell? a = some i) :
    i < m.ram.size := by
  unfold ramCell? at h
  split at h
  · cases h
  · rw [← Option.some.inj h]
    exact mod_size_lt _ (by grind)

theorem Codemasters.ramCell_lt {m : Codemasters} {a : UInt16} {i : Nat}
    (h : m.ramCell? a = some i) : i < m.ram.size ∧ 0xA000 ≤ a := by
  unfold ramCell? at h
  split at h
  · rw [← Option.some.inj h]
    exact ⟨mod_size_lt _ (by grind), by grind⟩
  · cases h

theorem Expansion.ramCell_lt {m : Expansion} {a : UInt16} {i : Nat} (h : m.ramCell? a = some i) :
    i < m.ram.size := by
  unfold ramCell? at h
  split at h
  · rw [← Option.some.inj h]
    exact mod_size_lt _ (by grind)
  · cases h

theorem shown_sega {m : Sega} {a : UInt16} {i : Nat} :
    (sega m).shown? a = some i ↔ 0x8000 ≤ a ∧ a < 0xC000 ∧ m.ramCell? a = some i := by
  simp only [shown?]
  grind

theorem shown_codemasters {m : Codemasters} {a : UInt16} {i : Nat} :
    (codemasters m).shown? a = some i ↔ a < 0xC000 ∧ m.ramCell? a = some i := by
  simp only [shown?]
  grind

/-- A cell that is shown exists. -/
theorem shown_lt {m : Mapper} {a : UInt16} {i : Nat} (h : m.shown? a = some i) :
    i < m.ram.size := by
  cases m with
  | romOnly | korean _ | msx _ | janggun _ => cases h
  | sega m => exact m.ramCell_lt (shown_sega.1 h).2.2
  | codemasters m => exact (m.ramCell_lt (shown_codemasters.1 h).2).1
  | sg1000 m => exact m.ramCell_lt h

/-- An address that shows a cell is read from it. -/
theorem read_of_cell {m : Mapper} (rom : Array UInt8) {x : UInt16} {i : Nat}
    (h : m.shown? x = some i) : m.read rom x = m.ram.getD i openBus := by
  cases m with
  | romOnly | korean _ | msx _ | janggun _ => cases h
  | sega m =>
      rw [shown_sega] at h
      simp only [read, ram, Sega.read]
      grind
  | codemasters m =>
      rw [shown_codemasters] at h
      have hlow := (m.ramCell_lt h.2).2
      simp only [read, ram, Codemasters.read]
      grind
  | sg1000 m =>
      simp only [shown?] at h
      simp only [read, ram, Expansion.read, h]

/-- A write to an address that shows a cell is a store into it. -/
theorem write_of_cell {m : Mapper} {a : UInt16} {i : Nat} (v : UInt8) (h : m.shown? a = some i) :
    m.write a v = m.setRam (m.ram.setIfInBounds i v) := by
  cases m with
  | romOnly | korean _ | msx _ | janggun _ => cases h
  | sega m =>
      rw [shown_sega] at h
      simp only [write, ram, setRam, Sega.write]
      grind
  | codemasters m =>
      rw [shown_codemasters] at h
      have hlow := (m.ramCell_lt h.2).2
      simp only [write, ram, setRam, Codemasters.write]
      grind
  | sg1000 m =>
      simp only [shown?] at h
      simp only [write, ram, setRam, Expansion.write, h]

/-- No other write changes the RAM. -/
theorem ram_write_of_none {m : Mapper} {a : UInt16} (v : UInt8) (h : m.shown? a = none) :
    (m.write a v).ram = m.ram := by
  cases m with
  | romOnly | korean _ | msx _ | janggun _ => rfl
  | sega m =>
      simp only [shown?] at h
      simp only [write, ram, Sega.write]
      grind
  | codemasters m =>
      simp only [shown?] at h
      simp only [write, ram, Codemasters.write]
      grind
  | sg1000 m =>
      simp only [shown?] at h
      simp only [write, ram, Expansion.write, h]

theorem ram_setRam {m : Mapper} {ram : Array UInt8} (h : ram.size = m.ram.size) :
    (m.setRam ram).ram = ram := by
  cases m with
  | romOnly | korean _ | msx _ | janggun _ => exact (Array.eq_empty_of_size_eq_zero h).symm
  | sega _ | codemasters _ | sg1000 _ => rfl

/-- A write stores its byte in the cell that is shown at its address, if one is. -/
theorem ram_write (m : Mapper) (a : UInt16) (v : UInt8) :
    (m.write a v).ram = match m.shown? a with
      | some i => m.ram.setIfInBounds i v
      | none => m.ram := by
  cases h : m.shown? a with
  | none => exact ram_write_of_none v h
  | some i =>
      rw [write_of_cell v h]
      exact ram_setRam (Array.size_setIfInBounds ..)

/-- Which cell is shown where does not depend on what the RAM holds. -/
theorem shown_setRam {m : Mapper} {ram : Array UInt8} (x : UInt16) (h : ram.size = m.ram.size) :
    (m.setRam ram).shown? x = m.shown? x := by
  have hempty : ram.isEmpty = m.ram.isEmpty := by simp only [Array.isEmpty, h]
  cases m with
  | romOnly | korean _ | msx _ | janggun _ => rfl
  | sega m =>
      simp only [setRam, shown?, Sega.ramCell?, Mapper.ram] at hempty h ⊢
      rw [hempty, h]
  | codemasters m =>
      simp only [setRam, shown?, Codemasters.ramCell?, Mapper.ram] at hempty h ⊢
      rw [hempty, h]
  | sg1000 m =>
      simp only [setRam, shown?, Expansion.ramCell?, Mapper.ram] at hempty h ⊢
      rw [hempty, h]

/-- What is read where no cell is shown does not depend on what the RAM holds. -/
theorem read_setRam_of_none {m : Mapper} (rom : Array UInt8) {ram : Array UInt8} {x : UInt16}
    (hsize : ram.size = m.ram.size) (h : m.shown? x = none) :
    (m.setRam ram).read rom x = m.read rom x := by
  have h' := (shown_setRam x hsize).trans h
  cases m with
  | romOnly | korean _ | msx _ | janggun _ => rfl
  | sega m =>
      simp only [setRam, read, shown?, Sega.read] at h h' ⊢
      grind
  | codemasters m =>
      simp only [setRam, read, shown?, Codemasters.read] at h h' ⊢
      grind
  | sg1000 m =>
      simp only [setRam, shown?] at h h'
      simp only [setRam, read, Expansion.read, h, h']

/-- A byte stored in a cell is read wherever that cell is shown, and nowhere else. -/
theorem read_write_of_cell {m : Mapper} (rom : Array UInt8) {a : UInt16} {i : Nat} (v : UInt8)
    (h : m.shown? a = some i) (x : UInt16) :
    (m.write a v).read rom x = if m.shown? x = some i then v else m.read rom x := by
  have hsize : (m.ram.setIfInBounds i v).size = m.ram.size := Array.size_setIfInBounds ..
  have hcell := shown_setRam (m := m) x hsize
  rw [write_of_cell v h]
  cases hx : m.shown? x with
  | none => simpa using read_setRam_of_none rom hsize hx
  | some j =>
      rw [read_of_cell rom (hcell.trans hx), read_of_cell rom hx, ram_setRam hsize]
      by_cases hij : j = i
      · subst hij
        simp [shown_lt hx]
      · simp [hij, Ne.symm hij]

/-! ### Histories -/

/-- What a mapper meets. -/
inductive Event where
  | write (address : UInt16) (v : UInt8)
  | reset
deriving DecidableEq, Repr

/-- The mapper after an event. -/
def step (m : Mapper) : Event → Mapper
  | .write a v => m.write a v
  | .reset => m.reset

/-- The mapper after a history. -/
def after (m : Mapper) (es : List Event) : Mapper := es.foldl step m

/-- The bytes that a history stores in a cell of the RAM. -/
def stored (m : Mapper) (j : Nat) : List Event → List UInt8
  | [] => []
  | .write a v :: es =>
      if m.shown? a = some j then v :: (m.write a v).stored j es else (m.write a v).stored j es
  | .reset :: es => m.reset.stored j es

theorem board_step (m : Mapper) (e : Event) : (m.step e).board = m.board := by
  cases e with
  | write a v => exact m.board_write a v
  | reset => exact m.board_reset

theorem board_after (m : Mapper) (es : List Event) : (m.after es).board = m.board := by
  induction es generalizing m with
  | nil => rfl
  | cons e es ih => exact (ih (m.step e)).trans (m.board_step e)

/-- **A cell of the RAM holds the byte that was stored in it last.** -/
theorem ram_after (m : Mapper) (es : List Event) (j : Nat) :
    (m.after es).ram[j]? = m.ram[j]?.map fun b => (m.stored j es).getLastD b := by
  induction es generalizing m with
  | nil => simp [after, stored]
  | cons e es ih =>
      refine (ih (m.step e)).trans ?_
      cases e with
      | reset => simp only [step, stored, ram_reset]
      | write a v =>
          simp only [step, stored, ram_write]
          cases h : m.shown? a with
          | none => simp
          | some i =>
            by_cases hij : i = j
            · subst hij
              have := shown_lt h
              simp [this, List.getLast?_cons]
            · simp [hij]

theorem ram_after_size (m : Mapper) (es : List Event) :
    (m.after es).ram.size = m.ram.size := by
  induction es generalizing m with
  | nil => rfl
  | cons e es ih =>
      refine (ih (m.step e)).trans ?_
      cases e with
      | reset => exact congrArg Array.size m.ram_reset
      | write a v =>
          rw [step, ram_write]
          split
          · exact Array.size_setIfInBounds ..
          · rfl

/-- **Writes stay in their windows.**  After any history of any mapper, a write that does not go
into the RAM changes only what is read in the windows that its address controls, and a write into
the RAM only what is read where the same cell is shown.  The RAM keeps its size, and a cell of it
changes only by what is stored in it. -/
theorem writes_stay_in_windows (start : Mapper) (es : List Event) (rom : Array UInt8)
    (a : UInt16) (v : UInt8) :
    let m := start.after es
    (m.shown? a = none → ∀ x, ¬ Controls start.board a x →
      (m.write a v).read rom x = m.read rom x) ∧
    (∀ i, m.shown? a = some i → ∀ x,
      (m.write a v).read rom x = if m.shown? x = some i then v else m.read rom x) ∧
    m.ram.size = start.ram.size ∧
    ∀ j, m.ram[j]? = start.ram[j]?.map fun b => (start.stored j es).getLastD b := by
  refine ⟨fun h x hx => ?_, fun i h => read_write_of_cell rom v h, ram_after_size start es,
    ram_after start es⟩
  rw [← board_after start es] at hx
  exact read_write_of_outside _ rom v h hx

/-- With RAM in its third slot, the console maker's board keeps a byte in the RAM wherever the cell
is shown, and its register for the second slot leaves the first one. -/
theorem writes_stay_in_windows_of_shown_ram :
    let m := (new .sega 16).after [.write 0xFFFC 0x08]
    (m.shown? 0x8003 = some 3 ∧ m.shown? 0x8013 = some 3 ∧
      ∀ rom x, (m.write 0x8003 5).read rom x = if m.shown? x = some 3 then 5 else m.read rom x) ∧
    (m.shown? 0xFFFE = none ∧
      ∀ rom x, x < 0x4000 → (m.write 0xFFFE 7).read rom x = m.read rom x) := by
  refine ⟨⟨by decide, by decide, fun rom => ?_⟩, by decide, fun rom x hx => ?_⟩
  · exact (writes_stay_in_windows (new .sega 16) [.write 0xFFFC 0x08] rom 0x8003 5).2.1 3
      (by decide)
  · refine (writes_stay_in_windows (new .sega 16) [.write 0xFFFC 0x08] rom 0xFFFE 7).1
      (by decide) x fun h => ?_
    have hwindow := controls_sega.1 h
    grind

end MasterSystem.Mapper
