import MasterSystem.Proofs.Mapper.Windows
import Mathlib.Data.Nat.ModEq
import Mathlib.Tactic.IntervalCases
import Mathlib.Tactic.Linarith

/-! # What a mapper shows after power-on

Every board starts with fixed banks, so that each address of the cartridge shows one place of the
image.

* **Places.**  `place` is that place, and `read_new` says that it is read.
* **Reading from the image.**  `ReadsFrom` says of any mapper that an address shows a place of the
  images of a size, whatever their bytes.  After power-on the place is that of the board
  (`readsFrom_new_iff`).
* **Straight addresses.**  An image can also be taken to repeat after its last byte.  `Straight` is
  a table of the addresses for which this comes to the same place (`place_eq_mod_iff`).  Boards
  whose banks start out in their own places differ only past the end of an image that has a bank
  cut short (`bankPlace_eq_mod_iff`). -/

namespace MasterSystem.Mapper

/-! ### Places -/

/-- The place in an image of a byte of a bank. -/
def bankPlace (size unit bank offset : Nat) : Nat :=
  bank % max ((size + (unit - 1)) / unit) 1 * unit + offset

theorem bankByte_eq (rom : Array UInt8) (unit bank offset : Nat) :
    bankByte rom unit bank offset = rom.getD (bankPlace rom.size unit bank offset) openBus := rfl

/-- The place in an image of the byte that a board shows at an address after power-on. -/
def place (board : Board) (size address : Nat) : Nat :=
  match board with
  | .romOnly | .sg1000 | .unknown | .unsupported => address % size
  | .sega | .korean => bankPlace size slotSize (address / slotSize) (address % slotSize)
  | .codemasters =>
    bankPlace size slotSize (if address < 0x8000 then address / slotSize else 0)
      (address % slotSize)
  | .msx => if address < 0x4000 then address else bankPlace size pageSize 0 (address % pageSize)
  | .janggun =>
    if address < 0x4000 then address
    else bankPlace size pageSize (address / pageSize) (address % pageSize)

theorem bankPlace_zero (size unit offset : Nat) : bankPlace size unit 0 offset = offset := by
  rw [bankPlace, Nat.zero_mod, Nat.zero_mul, Nat.zero_add]

/-- A slot with the bank of its own number shows the image where it lies. -/
theorem slotByte_own (rom : Array UInt8) {bank : UInt8} {address : UInt16}
    (h : bank.toNat = address.toNat / slotSize) : slotByte rom bank address =
      rom.getD (bankPlace rom.size slotSize (address.toNat / slotSize) (address.toNat % slotSize))
        openBus := by
  rw [slotByte, bankByte_eq, h]

/-- Two pages of the image lie before the windows. -/
theorem page_of_inWindow {i : Fin 4} {address : UInt16} (h : InWindow i address) :
    i.val + 2 = address.toNat / pageSize := by
  rw [inWindow_iff] at h
  rw [pageSize]
  omega

theorem Sega.read_new (ram : Nat) (rom : Array UInt8) {address : UInt16} (hlow : address < 0xC000) :
    (Sega.new ram).read rom address = rom.getD (place .sega rom.size address.toNat) openBus := by
  have hcell : (Sega.new ram).ramCell? address = none := by simp [ramCell?, Sega.new]
  simp only [UInt16.lt_iff_toNat_lt, UInt16.reduceToNat] at hlow
  simp only [Sega.read, hcell, UInt16.lt_iff_toNat_lt, UInt16.reduceToNat, place]
  split
  · rw [fixedByte, Nat.div_eq_of_lt (by rw [slotSize]; omega), bankPlace_zero,
      Nat.mod_eq_of_lt (by rw [slotSize]; omega)]
  split
  · exact slotByte_own rom (show 0 = address.toNat / 0x4000 by omega)
  split
  · exact slotByte_own rom (show 1 = address.toNat / 0x4000 by omega)
  · exact slotByte_own rom (show 2 = address.toNat / 0x4000 by omega)

theorem Korean.read_new (rom : Array UInt8) {address : UInt16} (hlow : address < 0xC000) :
    ({} : Korean).read rom address = rom.getD (place .korean rom.size address.toNat) openBus := by
  simp only [UInt16.lt_iff_toNat_lt, UInt16.reduceToNat] at hlow
  simp only [Korean.read, UInt16.lt_iff_toNat_lt, UInt16.reduceToNat, place]
  split
  · exact slotByte_own rom (show 0 = address.toNat / 0x4000 by omega)
  split
  · exact slotByte_own rom (show 1 = address.toNat / 0x4000 by omega)
  · exact slotByte_own rom (show 2 = address.toNat / 0x4000 by omega)

theorem Codemasters.read_new (ram : Nat) (rom : Array UInt8) {address : UInt16}
    (hlow : address < 0xC000) : (Codemasters.new ram).read rom address =
      rom.getD (place .codemasters rom.size address.toNat) openBus := by
  have hcell : (Codemasters.new ram).ramCell? address = none := rfl
  simp only [UInt16.lt_iff_toNat_lt, UInt16.reduceToNat] at hlow
  simp only [Codemasters.read, hcell, UInt16.lt_iff_toNat_lt, UInt16.reduceToNat, place]
  split
  · rw [if_pos (by omega)]
    exact slotByte_own rom (show 0 = address.toNat / 0x4000 by omega)
  split
  · exact slotByte_own rom (show 1 = address.toNat / 0x4000 by omega)
  · rfl

theorem Msx.read_new (rom : Array UInt8) {address : UInt16} (hlow : address < 0xC000) :
    ({} : Msx).read rom address = rom.getD (place .msx rom.size address.toNat) openBus := by
  have hpages : ∀ i : Fin 4, ((#v[0, 0, 0, 0] : Vector UInt8 4)[i]).toNat = 0 := by decide
  simp only [Msx.read, if_pos hlow, place]
  simp only [UInt16.lt_iff_toNat_lt, UInt16.reduceToNat]
  split
  · rfl
  · rw [pageByte, bankByte_eq, hpages]

theorem Janggun.read_new (rom : Array UInt8) {address : UInt16} (hlow : address < 0xC000) :
    ({} : Janggun).read rom address = rom.getD (place .janggun rom.size address.toNat) openBus := by
  have hpages : ∀ i : Fin 4, ((#v[2, 3, 4, 5] : Vector UInt8 4)[i]).toNat = i.val + 2 := by decide
  have hreversed : ∀ i : Fin 4, (#v[false, false, false, false] : Vector Bool 4)[i] = false := by
    decide
  have hpage (h : ¬ address < 0x4000) : (windowOf address).val + 2 = address.toNat / pageSize :=
    page_of_inWindow ⟨UInt16.not_lt.1 h, hlow, rfl⟩
  simp only [Janggun.read, if_pos hlow, place, hreversed]
  simp only [UInt16.lt_iff_toNat_lt, UInt16.reduceToNat] at hpage ⊢
  split
  · rfl
  · rw [pageByte, bankByte_eq, hpages, hpage ‹_›]
    rfl

/-- The reads of a board after power-on, where it shows no RAM. -/
theorem read_new (board : Board) (ram : Nat) (rom : Array UInt8) {address : UInt16}
    (hlow : address < 0xC000) (hram : (new board ram).shown? address = none) :
    (new board ram).read rom address =
      rom.getD (place board rom.size address.toNat) openBus := by
  cases board with
  | romOnly | unknown | unsupported => rfl
  | sega => exact Sega.read_new ram rom hlow
  | codemasters => exact Codemasters.read_new ram rom hlow
  | korean => exact Korean.read_new rom hlow
  | msx => exact Msx.read_new rom hlow
  | janggun => exact Janggun.read_new rom hlow
  | sg1000 =>
      simp only [new, shown?] at hram
      simp only [new, read, Expansion.read, hram, if_neg (UInt16.not_le.2 hlow)]
      rfl

/-! ### Reading from the image -/

/-- A mapper shows at an address one place of the images of a size, whatever bytes they have. -/
def ReadsFrom (m : Mapper) (size : Nat) (address : UInt16) (i : Nat) : Prop :=
  i < size ∧ ∀ rom : Array UInt8, rom.size = size → m.read rom address = rom.getD i openBus

theorem ReadsFrom.shown {m : Mapper} {size i : Nat} {address : UInt16}
    (h : m.ReadsFrom size address i) : m.shown? address = none := by
  cases hcell : m.shown? address with
  | none => rfl
  | some c =>
      -- A cell of RAM would be the byte of an image of zeros and of an image of ones.
      have hbyte (b : UInt8) : m.ram.getD c openBus = b := by
        rw [← read_of_cell (Array.replicate size b) hcell, h.2 _ Array.size_replicate]
        simp [h.1]
      exact absurd ((hbyte 0).symm.trans (hbyte 1)) (by decide)

/-- There is one place at most. -/
theorem ReadsFrom.unique {m : Mapper} {size i : Nat} {address : UInt16}
    (h : m.ReadsFrom size address i) {j : Nat}
    (hj : ∀ rom : Array UInt8, rom.size = size → m.read rom address = rom.getD j openBus) :
    i = j := by
  by_contra hij
  let probe := (Array.replicate size (0 : UInt8)).setIfInBounds i 1
  have hsize : probe.size = size := by simp [probe]
  have hone : probe.getD j openBus = 1 := by
    rw [← hj probe hsize, h.2 probe hsize]
    simp [probe, h.1]
  by_cases hlt : j < size
  · simp [probe, hlt, Array.getElem_setIfInBounds_ne, hij] at hone
  · simp [probe, hlt, openBus] at hone

/-- After power-on the place is that of the board. -/
theorem readsFrom_new_iff {board : Board} {ram size i : Nat} {address : UInt16}
    (hlow : address < 0xC000) : (new board ram).ReadsFrom size address i ↔
      (new board ram).shown? address = none ∧ i = place board size address.toNat ∧ i < size := by
  constructor
  · intro h
    refine ⟨h.shown, h.unique fun rom hrom => ?_, h.1⟩
    rw [read_new board ram rom hlow h.shown, hrom]
  · rintro ⟨hram, rfl, hi⟩
    refine ⟨hi, fun rom hrom => ?_⟩
    rw [read_new board ram rom hlow hram, hrom]

/-! ### Straight addresses -/

theorem eq_mod_iff {size address i : Nat} (hi : i < size) (hle : i ≤ address) :
    i = address % size ↔ size ∣ address - i := by
  rw [← Nat.modEq_iff_dvd' hle, Nat.ModEq, Nat.mod_eq_of_lt hi]

/-- The banks of an image that is not empty, all full but the last. -/
theorem exists_count {size unit : Nat} (hsize : 0 < size) (hunit : 0 < unit) :
    ∃ c, max ((size + (unit - 1)) / unit) 1 = c + 1 ∧ c * unit < size ∧ size ≤ (c + 1) * unit := by
  have hcount : (size + (unit - 1)) / unit = (size - 1) / unit + 1 := by
    rw [← Nat.add_div_right _ hunit]
    congr 1
    omega
  have hlow := Nat.div_mul_le_self (size - 1) unit
  have hhigh := Nat.lt_div_mul_add hunit (a := size - 1)
  refine ⟨(size - 1) / unit, by rw [hcount, max_eq_left (Nat.le_add_left 1 _)], by omega, ?_⟩
  rw [Nat.add_mul, Nat.one_mul]
  omega

/-- Up to bank number five, rounds of two banks or more are rounds of the image only if all its
banks are whole. -/
theorem eq_of_dvd_rounds {size unit c k : Nat} (hunit : ¬ 3 ∣ unit) (hlow : c * unit < size)
    (hhigh : size ≤ (c + 1) * unit) (hc : 0 < c) (hk : 0 < k) (hle : (c + 1) * k ≤ 5)
    (hdvd : size ∣ (c + 1) * k * unit) : size = (c + 1) * unit := by
  obtain ⟨m, hm⟩ := hdvd
  have hck : c ≤ 4 ∧ k ≤ 2 := by constructor <;> nlinarith
  have hm5 : m ≤ 5 := by
    by_contra hm6
    have h5 := Nat.mul_le_mul_right unit hle
    have h6 := Nat.mul_le_mul_left size (show 6 ≤ m by omega)
    have h1 := Nat.mul_le_mul_right unit hc
    omega
  obtain ⟨hc4, hk2⟩ := hck
  interval_cases c <;> interval_cases k <;> interval_cases m <;> omega

/-- Banks that start out in their own places show what an image that repeats would show: inside the
image, if it is made of whole banks, or if it is shorter than a bank and repeats evenly up to the
bank that is asked for. -/
def Aligned (size unit address : Nat) : Prop :=
  address < size ∨ unit ∣ size ∨ size < unit ∧ size ∣ unit * (address / unit)

theorem bankPlace_eq_mod_iff {size unit address : Nat} (hunit : ¬ 3 ∣ unit)
    (hbanks : address / unit ≤ 5)
    (hi : bankPlace size unit (address / unit) (address % unit) < size) :
    bankPlace size unit (address / unit) (address % unit) = address % size ↔
      Aligned size unit address := by
  have hpos : 0 < unit := Nat.pos_of_ne_zero fun h => hunit (h ▸ Nat.dvd_zero 3)
  obtain ⟨c, hcount, hlow, hhigh⟩ := exists_count (Nat.zero_lt_of_lt hi) hpos
  have haddress := Nat.div_add_mod address unit
  have hinside : address < size → address / unit < c + 1 := fun h =>
    (Nat.div_lt_iff_lt_mul hpos).2 (h.trans_le hhigh)
  unfold Aligned
  generalize address / unit = q at *
  generalize address % unit = r at *
  have hplace : bankPlace size unit q r = q % (c + 1) * unit + r := by rw [bankPlace, hcount]
  -- An address lies beyond its place by rounds of whole banks, although the last one may be short.
  have hrounds : address = (c + 1) * (q / (c + 1)) * unit + (q % (c + 1) * unit + r) := by
    rw [← Nat.add_assoc, ← Nat.add_mul, Nat.div_add_mod, Nat.mul_comm q, haddress]
  rw [hplace] at hi ⊢
  rw [eq_mod_iff hi (by omega), show address - (q % (c + 1) * unit + r) =
    (c + 1) * (q / (c + 1)) * unit by omega]
  constructor
  · intro hdvd
    by_cases hin : address < size
    · exact .inl hin
    have hround : 0 < q / (c + 1) := by
      refine Nat.div_pos (Nat.not_lt.1 fun hq => hin ?_) c.succ_pos
      rw [Nat.div_eq_of_lt hq, Nat.mul_zero, Nat.zero_mul, Nat.zero_add] at hrounds
      rwa [hrounds]
    rcases Nat.eq_zero_or_pos c with rfl | hc
    · rw [Nat.zero_add, Nat.one_mul] at hhigh
      rw [Nat.zero_add, Nat.div_one, Nat.one_mul, Nat.mul_comm] at hdvd
      obtain rfl | hshort := Nat.eq_or_lt_of_le hhigh
      · exact .inr (.inl (Nat.dvd_refl _))
      · exact .inr (.inr ⟨hshort, hdvd⟩)
    · have hle := (Nat.mul_div_le q (c + 1)).trans hbanks
      exact .inr (.inl ⟨c + 1, (eq_of_dvd_rounds hunit hlow hhigh hc hround hle hdvd).trans
        (Nat.mul_comm _ _)⟩)
  · rintro (hin | ⟨n, rfl⟩ | ⟨hshort, hdvd⟩)
    · rw [Nat.div_eq_of_lt (hinside hin), Nat.mul_zero, Nat.zero_mul]
      exact Nat.dvd_zero _
    · obtain rfl : n = c + 1 := by nlinarith
      rw [Nat.mul_right_comm, Nat.mul_comm unit]
      exact Nat.dvd_mul_right _ _
    · obtain rfl : c = 0 := by nlinarith
      simpa [Nat.mul_comm] using hdvd

/-- A window that starts out with the first bank shows what an image that repeats would show, if the
window begins where the image does. -/
theorem bankPlace_zero_eq_mod_iff {size unit address : Nat}
    (hi : bankPlace size unit 0 (address % unit) < size) :
    bankPlace size unit 0 (address % unit) = address % size ↔ size ∣ unit * (address / unit) := by
  have haddress := Nat.div_add_mod address unit
  rw [bankPlace_zero] at hi ⊢
  rw [eq_mod_iff hi (Nat.mod_le _ _),
    show address - address % unit = unit * (address / unit) by omega]

/-- Where the place of the byte that a board shows after power-on is the address itself, counted
round the image. -/
def Straight (board : Board) (size address : Nat) : Prop :=
  match board with
  | .romOnly | .sg1000 | .unknown | .unsupported => True
  | .sega | .korean => Aligned size slotSize address
  | .codemasters =>
    if address < 0x8000 then Aligned size slotSize address
    else size ∣ slotSize * (address / slotSize)
  | .msx => 0x4000 ≤ address → size ∣ pageSize * (address / pageSize)
  | .janggun => 0x4000 ≤ address → Aligned size pageSize address

instance (size unit address : Nat) : Decidable (Aligned size unit address) :=
  inferInstanceAs (Decidable (_ ∨ _))

instance (board : Board) (size address : Nat) : Decidable (Straight board size address) :=
  match board with
  | .romOnly | .sg1000 | .unknown | .unsupported => isTrue trivial
  | .sega | .korean => inferInstanceAs (Decidable (Aligned size slotSize address))
  | .codemasters => inferInstanceAs (Decidable (if address < 0x8000 then _ else _))
  | .msx => inferInstanceAs (Decidable (0x4000 ≤ address → _))
  | .janggun => inferInstanceAs (Decidable (0x4000 ≤ address → _))

theorem place_eq_mod_iff {board : Board} {size address : Nat} (hlow : address < 0xC000)
    (hi : place board size address < size) :
    place board size address = address % size ↔ Straight board size address := by
  have hslot : address / slotSize ≤ 5 := by rw [slotSize]; omega
  have hpage : address / pageSize ≤ 5 := by rw [pageSize]; omega
  have hfixed {p : Prop} (h : address < 0x4000) (hsize : address < size) :
      address = address % size ↔ (0x4000 ≤ address → p) :=
    iff_of_true (Nat.mod_eq_of_lt hsize).symm fun h' => absurd h h'.not_gt
  cases board with
  | romOnly | sg1000 | unknown | unsupported => exact iff_of_true rfl trivial
  | sega | korean => exact bankPlace_eq_mod_iff (by decide) hslot hi
  | codemasters =>
      simp only [place, Straight] at hi ⊢
      split
      · rw [if_pos ‹_›] at hi
        exact bankPlace_eq_mod_iff (by decide) hslot hi
      · rw [if_neg ‹_›] at hi
        exact bankPlace_zero_eq_mod_iff hi
  | msx =>
      simp only [place, Straight] at hi ⊢
      split
      · rw [if_pos ‹_›] at hi
        exact hfixed ‹_› hi
      · rw [if_neg ‹_›] at hi
        rw [imp_iff_right (Nat.not_lt.1 ‹_›)]
        exact bankPlace_zero_eq_mod_iff hi
  | janggun =>
      simp only [place, Straight] at hi ⊢
      split
      · rw [if_pos ‹_›] at hi
        exact hfixed ‹_› hi
      · rw [if_neg ‹_›] at hi
        rw [imp_iff_right (Nat.not_lt.1 ‹_›)]
        exact bankPlace_eq_mod_iff (by decide) hpage hi

end MasterSystem.Mapper
