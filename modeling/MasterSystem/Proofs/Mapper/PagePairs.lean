import Mathlib.Algebra.Order.Floor.Div
import MasterSystem.Proofs.Mapper.Windows

/-! # Pairs of pages

The board that reverses bytes has two registers for sixteen kilobytes.  A byte written to one of
them puts two pages that follow each other into the two windows of a `Half`.

* **Reads.**  What is read then is a byte of the pages `2 b` and `2 b + 1`, where `b` is the low six
  bits of the byte.  Pages count modulo 64 and then modulo those of the image (`pairPlace`).
* **Reversal.**  The number `b` is doubled in the same byte that carries the reversal, so its top
  bit comes to lie where the reversal is looked for.  The bits of what is read are turned around
  when bit 6 of the byte is set, and also when bit 5 is (`pair_selection`).
* **One by one.**  The registers of the windows put the same two pages there (`choice`).  Bit 5 has
  no such effect on them: the two ways lead to the same board unless bit 5 stands without bit 6. -/

namespace MasterSystem.Mapper

open Word (forall_byte)

/-! ### Bytes -/

/-- Reversing a byte brings each of its bits to the opposite place. -/
theorem testBit_reverseBits : ∀ b : UInt8, ∀ i < 8,
    (reverseBits b).toNat.testBit i = b.toNat.testBit (7 - i) :=
  forall_byte (by decide +kernel)

namespace Janggun

/-! ### Halves -/

/-- A half of the space from `4000` to `BFFF`. -/
inductive Half where
  | lower
  | upper
deriving DecidableEq, Repr

namespace Half

/-- The register for both windows of a half. -/
def register : Half → UInt16
  | lower => 0xFFFE
  | upper => 0xFFFF

/-- The first address of a half, which is also the register of its first window. -/
def base : Half → UInt16
  | lower => 0x4000
  | upper => 0x8000

/-- The first window of a half. -/
def first (h : Half) : Fin 4 := windowOf h.base

/-- The second window of a half. -/
def second (h : Half) : Fin 4 := windowOf (h.base + 0x2000)

/-- Whether an address lies in a half. -/
def Covers (h : Half) (x : UInt16) : Prop := h.base ≤ x ∧ x < h.base + 0x4000

/-- The place of an address in its half. -/
def offset (h : Half) (x : UInt16) : Nat := x.toNat - h.base.toNat

theorem covers_iff {h : Half} {x : UInt16} :
    h.Covers x ↔
      0x4000 + 0x2000 * h.first.val ≤ x.toNat ∧ x.toNat < 0x8000 + 0x2000 * h.first.val := by
  rw [Covers, UInt16.le_iff_toNat_le, UInt16.lt_iff_toNat_lt]
  cases h <;> rfl

theorem offset_eq (h : Half) (x : UInt16) :
    h.offset x = x.toNat - (0x4000 + 0x2000 * h.first.val) := by cases h <;> rfl

theorem second_val (h : Half) : h.second.val = h.first.val + 1 := by cases h <;> rfl

theorem inWindow_first {h : Half} {x : UInt16} (hx : h.Covers x) :
    InWindow h.first x ↔ h.offset x < pageSize := by
  rw [covers_iff] at hx
  rw [inWindow_iff, offset_eq, pageSize]
  omega

theorem inWindow_second {h : Half} {x : UInt16} (hx : h.Covers x) :
    InWindow h.second x ↔ pageSize ≤ h.offset x := by
  rw [covers_iff] at hx
  rw [inWindow_iff, offset_eq, second_val, pageSize]
  omega

theorem offset_mod {h : Half} {x : UInt16} (hx : h.Covers x) :
    h.offset x % pageSize = x.toNat % pageSize := by
  rw [covers_iff] at hx
  rw [offset_eq, pageSize]
  omega

end Half

/-! ### Two windows -/

/-- The byte at an address of a window into which a byte has put a page. -/
def chosenByte (rom : Array UInt8) (v : UInt8) (x : UInt16) : UInt8 :=
  if v &&& 0x40 != 0 then reverseBits (pageByte rom (v &&& 0x3F) x)
  else pageByte rom (v &&& 0x3F) x

/-- A window shows the page that was put into it. -/
theorem read_select_of_inWindow (m : Janggun) (rom : Array UInt8) {i : Fin 4} {x : UInt16}
    (v : UInt8) (h : InWindow i x) : (m.select i v).read rom x = chosenByte rom v x := by
  obtain ⟨hlow, hhigh, hwindow⟩ := h
  simp only [read, select, Fin.getElem_fin, hwindow, Vector.getElem_set_self, chosenByte]
  rw [if_neg (UInt16.not_lt.2 hlow), if_pos hhigh]

/-- The board with a page in each window of a half. -/
def selectBoth (m : Janggun) (h : Half) (p q : UInt8) : Janggun :=
  (m.select h.first p).select h.second q

/-- A half shows the two pages that were put into it. -/
theorem read_selectBoth (m : Janggun) (rom : Array UInt8) {h : Half} {x : UInt16} (p q : UInt8)
    (hx : h.Covers x) : (m.selectBoth h p q).read rom x =
      chosenByte rom (if h.offset x < pageSize then p else q) x := by
  unfold selectBoth
  split
  · have hnot : ¬ InWindow h.second x := by
      rw [Half.inWindow_second hx]
      omega
    rw [read_select _ rom q hnot]
    exact read_select_of_inWindow m rom p ((Half.inWindow_first hx).2 ‹_›)
  · exact read_select_of_inWindow _ rom q ((Half.inWindow_second hx).2 (Nat.not_lt.1 ‹_›))

/-! ### Bytes for a half -/

/-- The byte that the register of a half makes of its own for a window. -/
def packed (v : UInt8) (k : Fin 2) : UInt8 :=
  (((v &&& 0x3F) <<< 1) + UInt8.ofNat k.val) ||| (v &&& 0x40)

/-- The byte that chooses a page of the same pair through the register of a window. -/
def choice (v : UInt8) (k : Fin 2) : UInt8 :=
  UInt8.ofNat ((2 * (v &&& 0x3F).toNat + k.val) % 64) ||| (v &&& 0x40)

theorem packed_page : ∀ v : UInt8, ∀ k : Fin 2,
    (packed v k &&& 0x3F).toNat = (2 * (v &&& 0x3F).toNat + k.val) % 64 :=
  forall_byte (by decide +kernel)

theorem choice_page : ∀ v : UInt8, ∀ k : Fin 2,
    (choice v k &&& 0x3F).toNat = (2 * (v &&& 0x3F).toNat + k.val) % 64 :=
  forall_byte (by decide +kernel)

/-- The top bit of the number reaches the place of the reversal. -/
theorem packed_reversal : ∀ v : UInt8, ∀ k : Fin 2,
    (packed v k &&& 0x40 != 0) = (v &&& 0x60 != 0) :=
  forall_byte (by decide +kernel)

theorem choice_reversal : ∀ v : UInt8, ∀ k : Fin 2,
    (choice v k &&& 0x40 != 0) = (v &&& 0x40 != 0) :=
  forall_byte (by decide +kernel)

/-- Only bit 5 without bit 6 tells the two reversals apart. -/
theorem reversal_eq_iff : ∀ v : UInt8,
    (v &&& 0x60 != 0) = (v &&& 0x40 != 0) ↔ v &&& 0x60 ≠ 0x20 :=
  forall_byte (by decide +kernel)

theorem write_register (m : Janggun) (h : Half) (v : UInt8) :
    m.write h.register v = m.selectBoth h (packed v 0) (packed v 1) := by
  have hzero : packed v 0 = ((v &&& 0x3F) <<< 1) ||| (v &&& 0x40) :=
    congrArg (· ||| (v &&& 0x40)) (UInt8.add_zero _)
  rw [hzero]
  cases h <;> rfl

theorem write_base (m : Janggun) (h : Half) (p q : UInt8) :
    (m.write h.base p).write (h.base + 0x2000) q = m.selectBoth h p q := by
  cases h <;> rfl

/-! ### Pairs -/

/-- The place in an image of `size` bytes of what is at an offset in the pages `2 b` and `2 b + 1`.
Of the pages 64 are told apart, and then as many as there are in the image, a last one that is cut
short among them. -/
def pairPlace (size b offset : Nat) : Nat :=
  (2 * b + offset / 0x2000) % 64 % max (size ⌈/⌉ 0x2000) 1 * 0x2000 + offset % 0x2000

/-- The byte at an offset in two pages of an image that follow each other. -/
def pairByte (rom : Array UInt8) (b offset : Nat) : UInt8 :=
  rom.getD (pairPlace rom.size b offset) 0xFF

/-- A page of a pair, as the windows show it. -/
theorem bankByte_eq_pairByte (rom : Array UInt8) (b offset : Nat) :
    bankByte rom pageSize ((2 * b + offset / pageSize) % 64) (offset % pageSize) =
      pairByte rom b offset := by
  have hcount : bankCount rom pageSize = max (rom.size ⌈/⌉ 0x2000) 1 := by
    rw [Nat.ceilDiv_eq_add_pred_div]
    rfl
  unfold bankByte pairByte pairPlace
  rw [hcount]
  rfl

/-- Two bytes that choose the pages of a pair, and agree on the reversal, show the pair. -/
theorem read_pair (m : Janggun) (rom : Array UInt8) {h : Half} {x : UInt16} {f : Fin 2 → UInt8}
    {b : Nat} {r : Bool} (hpage : ∀ k, (f k &&& 0x3F).toNat = (2 * b + k.val) % 64)
    (hreversal : ∀ k, (f k &&& 0x40 != 0) = r) (hx : h.Covers x) :
    (m.selectBoth h (f 0) (f 1)).read rom x =
      if r then reverseBits (pairByte rom b (h.offset x)) else pairByte rom b (h.offset x) := by
  have hhalf : h.offset x / pageSize = if h.offset x < pageSize then 0 else 1 := by
    rw [Half.covers_iff] at hx
    rw [Half.offset_eq, pageSize]
    split <;> omega
  have hshown (k : Fin 2) (hk : h.offset x / pageSize = k.val) :
      pageByte rom (f k &&& 0x3F) x = pairByte rom b (h.offset x) := by
    rw [pageByte, hpage, ← Half.offset_mod hx, ← hk, bankByte_eq_pairByte]
  rw [read_selectBoth m rom _ _ hx]
  split
  · rw [chosenByte, hreversal, hshown 0 (by rw [hhalf, if_pos ‹_›]; rfl)]
  · rw [chosenByte, hreversal, hshown 1 (by rw [hhalf, if_neg ‹_›]; rfl)]

/-- The bits of a byte that is shown, turned around or not. -/
theorem testBit_turned (r : Bool) (b : UInt8) {i : Nat} (hi : i < 8) :
    (if r then reverseBits b else b).toNat.testBit i =
      b.toNat.testBit (if r then 7 - i else i) := by
  cases r
  · rfl
  · exact testBit_reverseBits b i hi

/-- Bytes that choose the same pages and the same reversals lead to the same board. -/
theorem selectBoth_congr (m : Janggun) (h : Half) {f g : Fin 2 → UInt8}
    (hpage : ∀ k, f k &&& 0x3F = g k &&& 0x3F)
    (hreversal : ∀ k, (f k &&& 0x40 != 0) = (g k &&& 0x40 != 0)) :
    m.selectBoth h (f 0) (f 1) = m.selectBoth h (g 0) (g 1) := by
  simp only [selectBoth, select, hpage, hreversal]

theorem reversed_selectBoth (m : Janggun) (h : Half) (p q : UInt8) :
    (m.selectBoth h p q).reversed[h.first.val] = (p &&& 0x40 != 0) := by
  have hne : h.second.val ≠ h.first.val := by
    rw [Half.second_val]
    exact Nat.succ_ne_self _
  simp only [selectBoth, select]
  rw [Vector.getElem_set_ne _ _ hne, Vector.getElem_set_self]

/-- **A byte for sixteen kilobytes.**  After a write to the register of a half, every read in it
gives a byte of the pages `2 b` and `2 b + 1`, where `b` is the low six bits of what was written;
its bits are turned around if and only if bit 5 or bit 6 was set.  The registers of the two windows
put the same pages there and turn the bits around for bit 6 alone, so that both ways lead to the
same board unless bit 5 was set without bit 6. -/
theorem pair_selection (m : Janggun) (h : Half) (v : UInt8) :
    let b := (v &&& 0x3F).toNat
    let paired := m.write h.register v
    let single := (m.write h.base (choice v 0)).write (h.base + 0x2000) (choice v 1)
    (∀ rom x, h.Covers x → ∀ i < 8,
      (paired.read rom x).toNat.testBit i =
        (pairByte rom b (h.offset x)).toNat.testBit (if v &&& 0x60 != 0 then 7 - i else i) ∧
      (single.read rom x).toNat.testBit i =
        (pairByte rom b (h.offset x)).toNat.testBit (if v &&& 0x40 != 0 then 7 - i else i)) ∧
    (paired = single ↔ v &&& 0x60 ≠ 0x20) := by
  dsimp only
  rw [write_register, write_base]
  refine ⟨fun rom x hx i hi => ?_, fun heq => ?_, fun hv => ?_⟩
  · rw [read_pair m rom (packed_page v) (packed_reversal v) hx,
      read_pair m rom (choice_page v) (choice_reversal v) hx]
    exact ⟨testBit_turned _ _ hi, testBit_turned _ _ hi⟩
  · have hreversed : (m.selectBoth h (packed v 0) (packed v 1)).reversed[h.first.val] =
        (m.selectBoth h (choice v 0) (choice v 1)).reversed[h.first.val] := by rw [heq]
    rw [reversed_selectBoth, reversed_selectBoth, packed_reversal, choice_reversal] at hreversed
    exact (reversal_eq_iff v).1 hreversed
  · refine m.selectBoth_congr h (fun k => ?_) fun k => ?_
    · exact UInt8.toNat_inj.1 ((packed_page v k).trans (choice_page v k).symm)
    · rw [packed_reversal, choice_reversal]
      exact (reversal_eq_iff v).2 hv

/-- On an image of two pages, the byte 32 chooses both and turns the bits around, though its bit 6
is clear. -/
theorem pair_selection_of_32 :
    Half.lower.Covers 0x6003 ∧ (1 : Nat) < 8 ∧
      ∀ (m : Janggun) (f : Fin 0x4000 → UInt8),
        ((m.write 0xFFFE 0x20).read (Array.ofFn f) 0x6003).toNat.testBit 1 =
          (f 0x2003).toNat.testBit 6 := by
  have hcovers : Half.lower.Covers 0x6003 := by
    unfold Half.Covers
    decide
  have hplace : pairPlace 0x4000 0 (Half.lower.offset 0x6003) = 0x2003 := by decide
  refine ⟨hcovers, by decide, fun m f => ?_⟩
  have hbyte : pairByte (Array.ofFn f) 0 (Half.lower.offset 0x6003) = f 0x2003 := by
    unfold pairByte
    rw [Array.size_ofFn, hplace, Array.getD_eq_getD_getElem?, Array.getElem?_ofFn,
      dif_pos (by decide)]
    rfl
  rw [← hbyte]
  exact ((pair_selection m .lower 0x20).1 (Array.ofFn f) 0x6003 hcovers 1 (by decide)).1

end Janggun

end MasterSystem.Mapper
