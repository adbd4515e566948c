import MasterSystem.Cheat.Code
import MasterSystem.Word
import Mathlib.Data.List.DropRight
import Mathlib.Data.List.Forall2

/-! # The grammar of cheat codes

Which texts stand for a change of memory, and for which one.

* **Digits.**  `Spells` says that characters are hexadecimal digits of given values, small letters
  or capital ones.
* **Forms.**  `Writes` are the three forms of a code: a poke, a patch, and a patch that looks for a
  byte.  How colons may stand among the digits of a poke is a parameter.
* **Grammar.**  Parsing accepts exactly the forms between blanks, where colons may stand anywhere in
  a poke and do not count (`grammar`); it is more than the documented place before the last two
  digits (`colons_out_of_place`).
* **Range.**  The changes that have a code are the pokes into RAM and the patches below it
  (`InRange`). -/

namespace MasterSystem

/-! ### Digits -/

namespace Text

/-- The digits in the order of their values, with small letters. -/
def smallDigits : List Char := "0123456789abcdef".toList

/-- The digits in the order of their values, with capital letters. -/
def capitalDigits : List Char := "0123456789ABCDEF".toList

/-- A character is a digit of a value, in either case. -/
def IsDigit (c : Char) (n : Nat) : Prop :=
  smallDigits[n]? = some c ∨ capitalDigits[n]? = some c

instance (c : Char) (n : Nat) : Decidable (IsDigit c n) := inferInstanceAs (Decidable (_ ∨ _))

/-- Characters are the digits of values. -/
def Spells (cs : List Char) (ns : List Nat) : Prop := List.Forall₂ IsDigit cs ns

theorem IsDigit.lt {c : Char} {n : Nat} (h : IsDigit c n) : n < 16 := by
  rcases h with h | h <;> exact (List.getElem?_eq_some_iff.1 h).1

/-- A digit is an ASCII character, no blank and no separator. -/
theorem IsDigit.plain {c : Char} {n : Nat} (h : IsDigit c n) :
    c.toNat < 128 ∧ isBlank c = false ∧ c ≠ '-' ∧ c ≠ ':' := by
  have hall : (smallDigits ++ capitalDigits).all fun c =>
      c.toNat < 128 ∧ isBlank c = false ∧ c ≠ '-' ∧ c ≠ ':' := by decide
  refine of_decide_eq_true (List.all_eq_true.1 hall c (List.mem_append.2 ?_))
  exact h.imp List.mem_of_getElem? List.mem_of_getElem?

theorem hexDigit?_lt {c : Char} {n : Nat} (h : hexDigit? c = some n) : c.toNat < 128 ∧ n < 16 := by
  unfold hexDigit? at h
  simp only [Char.le_def, UInt32.le_iff_toNat_le, Char.reduceVal, UInt32.reduceToNat,
    Bool.and_eq_true, decide_eq_true_eq] at h
  unfold Char.toNat at h ⊢
  grind

theorem hexDigit?_eq_some_iff {c : Char} {n : Nat} : hexDigit? c = some n ↔ IsDigit c n := by
  have hall : ∀ k < 128, ∀ n < 16,
      hexDigit? (Char.ofNat k) = some n ↔ IsDigit (Char.ofNat k) n := by decide +kernel
  have hchar := hall c.toNat
  rw [c.ofNat_toNat] at hchar
  constructor <;> intro h
  · exact (hchar (hexDigit?_lt h).1 n (hexDigit?_lt h).2).1 h
  · exact (hchar h.plain.1 n h.lt).2 h

theorem mapM_eq_some_iff {α β : Type} {f : α → Option β} {xs : List α} {ys : List β} :
    xs.mapM f = some ys ↔ List.Forall₂ (fun x y => f x = some y) xs ys := by
  induction xs generalizing ys with
  | nil => simp [eq_comm]
  | cons x xs ih =>
      simp only [List.mapM_cons, Option.bind_eq_bind, Option.bind_eq_some_iff, ih, Option.pure_def,
        Option.some.injEq, List.forall₂_cons_left_iff]
      grind

theorem mapM_hexDigit? {cs : List Char} {ns : List Nat} :
    cs.mapM hexDigit? = some ns ↔ Spells cs ns := by
  simp only [mapM_eq_some_iff, hexDigit?_eq_some_iff, Spells]

theorem Spells.lt {cs : List Char} {ns : List Nat} (h : Spells cs ns) : ∀ n ∈ ns, n < 16 := by
  intro n hn
  obtain ⟨i, hi, rfl⟩ := List.getElem_of_mem hn
  exact (h.get (h.length_eq ▸ hi) hi).lt

/-- Characters are the digits of one list of values only. -/
theorem Spells.unique {cs : List Char} {ns ms : List Nat} (hn : Spells cs ns) (hm : Spells cs ms) :
    ns = ms :=
  Option.some.inj ((mapM_hexDigit?.2 hn).symm.trans (mapM_hexDigit?.2 hm))

/-- Digits have no blank and no separator among them. -/
theorem Spells.plain {cs : List Char} {ns : List Nat} (h : Spells cs ns) :
    ∀ x ∈ cs, isBlank x = false ∧ x ≠ '-' ∧ x ≠ ':' := by
  intro x hx
  obtain ⟨i, hi, rfl⟩ := List.getElem_of_mem hx
  exact (h.get hi (h.length_eq ▸ hi)).plain.2

theorem Spells.not_mem_hyphen {cs : List Char} {ns : List Nat} (h : Spells cs ns) : '-' ∉ cs :=
  fun hmem => (h.plain _ hmem).2.1 rfl

/-- The capital digit of a value. -/
def capital (n : Nat) : Char := capitalDigits.getD n '0'

theorem isDigit_capital : ∀ n < 16, IsDigit (capital n) n := by decide

theorem spells_map_capital {ns : List Nat} (h : ∀ n ∈ ns, n < 16) : Spells (ns.map capital) ns := by
  rw [Spells, List.forall₂_map_left_iff, List.forall₂_same]
  exact fun n hn => isDigit_capital n (h n hn)

/-! ### Blanks -/

theorem dropWhile_isBlank_of_plain {cs : List Char} (h : ∀ x ∈ cs, isBlank x = false) :
    cs.dropWhile isBlank = cs :=
  List.dropWhile_eq_self_iff.2 fun hl => by simp [h _ (List.getElem_mem hl)]

/-- Trimming takes away the blanks around a text that has none itself. -/
theorem trimBlanks_append {before cs after : List Char} (hbefore : ∀ x ∈ before, isBlank x = true)
    (hcs : ∀ x ∈ cs, isBlank x = false) (hafter : ∀ x ∈ after, isBlank x = true) :
    trimBlanks (before ++ cs ++ after) = cs := by
  have hfront : (cs ++ after).dropWhile isBlank = if cs = [] then [] else cs ++ after := by
    cases cs with
    | nil => exact List.dropWhile_eq_nil_iff.2 hafter
    | cons c cs => simp [hcs c List.mem_cons_self]
  have hback : (cs ++ after).reverse.dropWhile isBlank = cs.reverse := by
    rw [List.reverse_append, List.dropWhile_append_of_pos (by simpa using hafter)]
    exact dropWhile_isBlank_of_plain (by simpa using hcs)
  rw [trimBlanks, List.append_assoc, List.dropWhile_append_of_pos hbefore, hfront]
  split
  · subst cs
    rfl
  · rw [hback, List.reverse_reverse]

/-- A text is what trimming leaves of it, between blanks. -/
theorem eq_trimBlanks (cs : List Char) :
    ∃ before after, cs = before ++ trimBlanks cs ++ after ∧ (∀ x ∈ before, isBlank x = true) ∧
      ∀ x ∈ after, isBlank x = true := by
  refine ⟨cs.takeWhile isBlank, ((cs.dropWhile isBlank).reverse.takeWhile isBlank).reverse, ?_,
    fun x hx => List.mem_takeWhile_imp hx,
    fun x hx => List.mem_takeWhile_imp (List.mem_reverse.1 hx)⟩
  rw [trimBlanks, List.append_assoc, ← List.reverse_append, List.takeWhile_append_dropWhile,
    List.reverse_reverse, List.takeWhile_append_dropWhile]

end Text

/-! ### Forms -/

namespace Cheat

open Text

/-- The digits of a poke, together or with a colon before the last two. -/
def Documented (cs ds : List Char) : Prop := cs = ds ∨ cs = ds.take 6 ++ ':' :: ds.drop 6

/-- The digits of a poke, with colons anywhere. -/
def Scattered (cs ds : List Char) : Prop := cs.filter (· ≠ ':') = ds

/-- A byte turned right by two bits and masked. -/
def unmasked (n : Nat) : UInt8 := UInt8.ofBitVec ((BitVec.ofNat 8 n).rotateRight 2) ^^^ 0xBA

/-- Eight digits are two zeros, an address in RAM and a byte. -/
def Pokes (ds : List Char) (address : UInt16) (value : UInt8) : Prop :=
  ∃ a b c d e f, Spells ds [0, 0, a, b, c, d, e, f] ∧ ofDigits 16 [a, b, c, d] = address.toNat ∧
    ofDigits 16 [e, f] = value.toNat ∧ ramStart ≤ address.toNat

/-- Two groups of three digits are a byte and an address below the RAM, whose top digit comes last
and is inverted. -/
def Patches (f g : List Char) (address : UInt16) (value : UInt8) : Prop :=
  ∃ d0 d1 d2 d3 d4 d5, Spells f [d0, d1, d2] ∧ Spells g [d3, d4, d5] ∧
    ofDigits 16 [d5 ^^^ 0xF, d2, d3, d4] = address.toNat ∧ ofDigits 16 [d0, d1] = value.toNat ∧
    address.toNat < ramStart

/-- A code in one of its forms, and the change that it stands for. -/
inductive Writes (Colons : List Char → List Char → Prop) : List Char → Cheat → Prop where
  | poke {cs ds : List Char} {address : UInt16} {value : UInt8} (colons : Colons cs ds)
      (digits : Pokes ds address value) : Writes Colons cs (.poke address value)
  | patch {f g : List Char} {address : UInt16} {value : UInt8}
      (digits : Patches f g address value) :
      Writes Colons (f ++ '-' :: g) (.patch address value none)
  | patchIf {f g h : List Char} {address : UInt16} {value : UInt8} {d6 d7 d8 : Nat}
      (digits : Patches f g address value) (compare : Spells h [d6, d7, d8]) :
      Writes Colons (f ++ '-' :: (g ++ '-' :: h))
        (.patch address value (some (unmasked (ofDigits 16 [d6, d8]))))

/-! ### Digits and their values -/

theorem ofDigits_two (a b : Nat) : ofDigits 16 [a, b] = 16 * a + b := by
  show 16 * (16 * 0 + a) + b = _
  omega

theorem ofDigits_four (a b c d : Nat) :
    ofDigits 16 [a, b, c, d] = 4096 * a + 256 * b + 16 * c + d := by
  show 16 * (16 * (16 * (16 * 0 + a) + b) + c) + d = _
  omega

theorem ofDigits_two_lt {a b : Nat} (ha : a < 16) (hb : b < 16) : ofDigits 16 [a, b] < 256 := by
  rw [ofDigits_two]
  omega

theorem ofDigits_four_lt {a b c d : Nat} (ha : a < 16) (hb : b < 16) (hc : c < 16) (hd : d < 16) :
    ofDigits 16 [a, b, c, d] < 65536 := by
  rw [ofDigits_four]
  omega

theorem ofNat_eq_byte {n : Nat} (h : n < 256) {b : UInt8} : n = b.toNat ↔ b = UInt8.ofNat n := by
  rw [← UInt8.toNat_inj, UInt8.toNat_ofNat_of_lt' h, eq_comm]

theorem ofNat_eq_word {n : Nat} (h : n < 65536) {w : UInt16} :
    n = w.toNat ↔ w = UInt16.ofNat n := by
  rw [← UInt16.toNat_inj, UInt16.toNat_ofNat_of_lt' h, eq_comm]

theorem expected_eq (d6 d8 : Nat) : expected d6 d8 = unmasked (ofDigits 16 [d6, d8]) := by
  have hturn : ∀ b : UInt8, rotateRight2 b = UInt8.ofBitVec (b.toBitVec.rotateRight 2) :=
    Word.forall_byte (by decide +kernel)
  rw [expected, unmasked, hturn, ofDigits_two]
  rfl

theorem xor_lt {d : Nat} (h : d < 16) : 15 - d = d ^^^ 0xF ∧ d ^^^ 0xF < 16 := by
  have hall : ∀ d < 16, 15 - d = d ^^^ 0xF ∧ d ^^^ 0xF < 16 := by decide
  exact hall d h

/-- What eight digits poke, if they do. -/
theorem pokes_iff {ds : List Char} {a b c d e f : Nat}
    (hds : Spells ds [0, 0, a, b, c, d, e, f]) {address : UInt16} {value : UInt8} :
    Pokes ds address value ↔ ramStart ≤ ofDigits 16 [a, b, c, d] ∧
      address = UInt16.ofNat (ofDigits 16 [a, b, c, d]) ∧
      value = UInt8.ofNat (ofDigits 16 [e, f]) := by
  have hlt := hds.lt
  simp only [List.mem_cons, List.not_mem_nil, or_false, forall_eq_or_imp, forall_eq] at hlt
  obtain ⟨-, -, ha, hb, hc, hd, he, hf⟩ := hlt
  rw [← ofNat_eq_word (ofDigits_four_lt ha hb hc hd), ← ofNat_eq_byte (ofDigits_two_lt he hf)]
  constructor
  · rintro ⟨a', b', c', d', e', f', hds', haddress, hvalue, hram⟩
    obtain ⟨rfl, rfl, rfl, rfl, rfl, rfl⟩ :
        a = a' ∧ b = b' ∧ c = c' ∧ d = d' ∧ e = e' ∧ f = f' := by
      simpa using hds.unique hds'
    exact ⟨haddress ▸ hram, haddress, hvalue⟩
  · rintro ⟨hram, haddress, hvalue⟩
    exact ⟨a, b, c, d, e, f, hds, haddress, hvalue, haddress ▸ hram⟩

/-- What two groups patch, if they do. -/
theorem patches_iff {f g : List Char} {d0 d1 d2 d3 d4 d5 : Nat} (hf : Spells f [d0, d1, d2])
    (hg : Spells g [d3, d4, d5]) {address : UInt16} {value : UInt8} :
    Patches f g address value ↔ patchAddress d2 d3 d4 d5 < ramStart ∧
      address = UInt16.ofNat (patchAddress d2 d3 d4 d5) ∧
      value = UInt8.ofNat (ofDigits 16 [d0, d1]) := by
  have hlt := hf.lt
  have hlt' := hg.lt
  simp only [List.mem_cons, List.not_mem_nil, or_false, forall_eq_or_imp, forall_eq] at hlt hlt'
  obtain ⟨h0, h1, h2⟩ := hlt
  obtain ⟨h3, h4, h5⟩ := hlt'
  rw [patchAddress, (xor_lt h5).1, ← ofNat_eq_word (ofDigits_four_lt (xor_lt h5).2 h2 h3 h4),
    ← ofNat_eq_byte (ofDigits_two_lt h0 h1)]
  constructor
  · rintro ⟨d0', d1', d2', d3', d4', d5', hf', hg', haddress, hvalue, hlow⟩
    obtain ⟨rfl, rfl, rfl⟩ : d0 = d0' ∧ d1 = d1' ∧ d2 = d2' := by simpa using hf.unique hf'
    obtain ⟨rfl, rfl, rfl⟩ : d3 = d3' ∧ d4 = d4' ∧ d5 = d5' := by simpa using hg.unique hg'
    exact ⟨haddress ▸ hlow, haddress, hvalue⟩
  · rintro ⟨hlow, haddress, hvalue⟩
    exact ⟨d0, d1, d2, d3, d4, d5, hf, hg, haddress, hvalue, haddress ▸ hlow⟩

/-! ### Reading -/

theorem mkPatch?_eq_some {n v : Nat} {compare : Option UInt8} {c : Cheat} :
    mkPatch? n v compare = some c ↔
      n < ramStart ∧ c = .patch (UInt16.ofNat n) (UInt8.ofNat v) compare := by
  unfold mkPatch?
  split
  · rw [Option.some.injEq, eq_comm, and_iff_right ‹_›]
  · simp only [reduceCtorEq, false_iff, not_and]
    exact fun hlow => absurd hlow ‹_›

theorem ofDigits?_sound {ds : List Char} {ns : List Nat} {c : Cheat} (hds : Spells ds ns)
    (h : ofDigits? ns = some c) :
    ∃ address value, c = .poke address value ∧ Pokes ds address value := by
  unfold ofDigits? at h
  split at h
  · dsimp only at h
    split at h
    · cases h
      exact ⟨_, _, rfl, (pokes_iff hds).2 ⟨‹_›, rfl, by rw [ofDigits_two]⟩⟩
    · cases h
  · cases h

theorem ofDigits?_complete {ds : List Char} {address : UInt16} {value : UInt8}
    (h : Pokes ds address value) :
    ∃ ns, Spells ds ns ∧ ofDigits? ns = some (.poke address value) := by
  obtain ⟨a, b, c, d, e, f, hds, -⟩ := id h
  obtain ⟨hram, rfl, rfl⟩ := (pokes_iff hds).1 h
  refine ⟨_, hds, ?_⟩
  simp only [ofDigits?, if_pos hram, ofDigits_two]

/-- The text of a poke has no hyphen. -/
theorem Pokes.not_mem_hyphen {cs ds : List Char} {address : UInt16} {value : UInt8}
    (h : Pokes ds address value) (hcs : Scattered cs ds) : '-' ∉ cs := by
  obtain ⟨a, b, c, d, e, f, hds, -⟩ := h
  intro hmem
  apply hds.not_mem_hyphen
  rw [← hcs, List.mem_filter]
  exact ⟨hmem, by decide⟩

/-- What groups between hyphens stand for. -/
theorem ofGroups?_sound {fs : List (List Char)} {gs : List (List Nat)} {c : Cheat}
    (hfs : List.Forall₂ Spells fs gs) (h : ofGroups? gs = some c) :
    Writes Scattered (join '-' fs) c := by
  unfold ofGroups? at h
  split at h
  · obtain ⟨f, _, hf, htail, rfl⟩ := List.forall₂_cons_right_iff.1 hfs
    obtain ⟨g, _, hg, hnil, rfl⟩ := List.forall₂_cons_right_iff.1 htail
    obtain rfl := List.forall₂_nil_right_iff.1 hnil
    obtain ⟨hlow, rfl⟩ := mkPatch?_eq_some.1 h
    exact .patch ((patches_iff hf hg).2 ⟨hlow, rfl, by rw [ofDigits_two]⟩)
  · obtain ⟨f, _, hf, htail, rfl⟩ := List.forall₂_cons_right_iff.1 hfs
    obtain ⟨g, _, hg, hlast, rfl⟩ := List.forall₂_cons_right_iff.1 htail
    obtain ⟨k, _, hk, hnil, rfl⟩ := List.forall₂_cons_right_iff.1 hlast
    obtain rfl := List.forall₂_nil_right_iff.1 hnil
    obtain ⟨hlow, rfl⟩ := mkPatch?_eq_some.1 h
    rw [expected_eq]
    exact .patchIf ((patches_iff hf hg).2 ⟨hlow, rfl, by rw [ofDigits_two]⟩) hk
  · cases h

/-- Reading accepts the forms only. -/
theorem ofCharacters?_sound {cs : List Char} {c : Cheat} (h : ofCharacters? cs = some c) :
    Writes Scattered cs c := by
  unfold ofCharacters? at h
  split at h
  · obtain ⟨gs, hgs, hc⟩ := Option.bind_eq_some_iff.1 h
    rw [mapM_eq_some_iff] at hgs
    simp only [mapM_hexDigit?] at hgs
    rw [← join_fields '-' cs]
    exact ofGroups?_sound hgs hc
  · obtain ⟨ns, hns, hc⟩ := Option.bind_eq_some_iff.1 h
    obtain ⟨address, value, rfl, hpokes⟩ := ofDigits?_sound (mapM_hexDigit?.1 hns) hc
    exact .poke rfl hpokes

/-- Groups of digits are read one by one. -/
theorem ofCharacters?_join {f g : List Char} {fs : List (List Char)} {gs : List (List Nat)}
    (hfs : List.Forall₂ Spells (f :: g :: fs) gs) :
    ofCharacters? (join '-' (f :: g :: fs)) = ofGroups? gs := by
  have hplain : ∀ k ∈ f :: g :: fs, '-' ∉ k := by
    intro k hk
    obtain ⟨i, hi, rfl⟩ := List.getElem_of_mem hk
    exact Spells.not_mem_hyphen (hfs.get hi (hfs.length_eq ▸ hi))
  have hgs : (f :: g :: fs).mapM (List.mapM hexDigit?) = some gs := by
    rw [mapM_eq_some_iff]
    simpa only [mapM_hexDigit?] using hfs
  have hmem : (join '-' (f :: g :: fs)).contains '-' = true := by simp [join]
  rw [ofCharacters?, if_pos hmem, fields_join (by simp) hplain, hgs, Option.bind_some]

/-- Reading accepts all of the forms. -/
theorem ofCharacters?_complete {cs : List Char} {c : Cheat} (h : Writes Scattered cs c) :
    ofCharacters? cs = some c := by
  cases h with
  | poke colons digits =>
      obtain ⟨ns, hns, hc⟩ := ofDigits?_complete digits
      unfold ofCharacters?
      rw [if_neg (by simpa using digits.not_mem_hyphen colons), colons, mapM_hexDigit?.2 hns]
      exact hc
  | @patch f g address value digits =>
      obtain ⟨d0, d1, d2, d3, d4, d5, hf, hg, -⟩ := id digits
      obtain ⟨hlow, rfl, rfl⟩ := (patches_iff hf hg).1 digits
      refine (ofCharacters?_join (.cons hf (.cons hg .nil))).trans ?_
      exact mkPatch?_eq_some.2 ⟨hlow, by rw [ofDigits_two]⟩
  | @patchIf f g k address value d6 d7 d8 digits compare =>
      obtain ⟨d0, d1, d2, d3, d4, d5, hf, hg, -⟩ := id digits
      obtain ⟨hlow, rfl, rfl⟩ := (patches_iff hf hg).1 digits
      refine (ofCharacters?_join (.cons hf (.cons hg (.cons compare .nil)))).trans ?_
      exact mkPatch?_eq_some.2 ⟨hlow, by rw [ofDigits_two, expected_eq]⟩

theorem Patches.not_blank {f g : List Char} {address : UInt16} {value : UInt8}
    (h : Patches f g address value) :
    (∀ x ∈ f, isBlank x = false) ∧ ∀ x ∈ g, isBlank x = false := by
  obtain ⟨d0, d1, d2, d3, d4, d5, hf, hg, -⟩ := h
  exact ⟨fun x hx => (hf.plain x hx).1, fun x hx => (hg.plain x hx).1⟩

/-- No form has a blank in it. -/
theorem Writes.plain {cs : List Char} {c : Cheat} (h : Writes Scattered cs c) :
    ∀ x ∈ cs, isBlank x = false := by
  have hhyphen : isBlank '-' = false := by decide
  cases h with
  | poke colons digits =>
      intro x hx
      obtain ⟨a, b, c, d, e, f, hds, -⟩ := digits
      by_cases hcolon : x = ':'
      · subst x
        decide
      · refine (hds.plain x ?_).1
        rw [← colons, List.mem_filter]
        exact ⟨hx, by simpa using hcolon⟩
  | patch digits =>
      simp only [List.forall_mem_append, List.forall_mem_cons]
      exact ⟨digits.not_blank.1, hhyphen, digits.not_blank.2⟩
  | patchIf digits compare =>
      simp only [List.forall_mem_append, List.forall_mem_cons]
      exact ⟨digits.not_blank.1, hhyphen, digits.not_blank.2, hhyphen,
        fun x hx => (compare.plain x hx).1⟩

/-- A text is a code between blanks. -/
def Coded (Colons : List Char → List Char → Prop) (s : String) (c : Cheat) : Prop :=
  ∃ before code after, s.toList = before ++ code ++ after ∧ before.all isBlank = true ∧
    after.all isBlank = true ∧ Writes Colons code c

theorem Coded.trim {s : String} {c : Cheat} (h : Coded Scattered s c) :
    Writes Scattered (trimBlanks s.toList) c := by
  obtain ⟨before, code, after, hs, hbefore, hafter, hcode⟩ := h
  rw [List.all_eq_true] at hbefore hafter
  rwa [hs, trimBlanks_append hbefore hcode.plain hafter]

theorem parse_eq_ok_iff {s : String} {c : Cheat} : parse s = .ok c ↔ Coded Scattered s c := by
  have hread : parse s = .ok c ↔ ofCharacters? (trimBlanks s.toList) = some c := by
    unfold parse
    split <;> simp_all
  rw [hread]
  refine ⟨fun h => ?_, fun h => ofCharacters?_complete h.trim⟩
  obtain ⟨before, after, hs, hbefore, hafter⟩ := eq_trimBlanks s.toList
  exact ⟨before, _, after, hs, List.all_eq_true.2 hbefore, List.all_eq_true.2 hafter,
    ofCharacters?_sound h⟩

/-! ### Range -/

/-- The changes that have a code: pokes into RAM and patches below it. -/
def InRange : Cheat → Prop
  | poke address _ => ramStart ≤ address.toNat
  | patch address _ _ => address.toNat < ramStart

theorem Writes.inRange {cs : List Char} {c : Cheat} (h : Writes Scattered cs c) : c.InRange := by
  cases h with
  | poke colons digits =>
      obtain ⟨a, b, c, d, e, f, -, -, -, hram⟩ := digits
      exact hram
  | patch digits =>
      obtain ⟨d0, d1, d2, d3, d4, d5, -, -, -, -, hlow⟩ := digits
      exact hlow
  | patchIf digits compare =>
      obtain ⟨d0, d1, d2, d3, d4, d5, -, -, -, -, hlow⟩ := digits
      exact hlow

/-- A byte below the mask, turned left by two bits. -/
def masked (b : UInt8) : Nat := ((b ^^^ 0xBA).toBitVec.rotateLeft 2).toNat

theorem unmasked_masked : ∀ b : UInt8, unmasked (masked b) = b :=
  Word.forall_byte (by decide +kernel)

theorem masked_lt (b : UInt8) : masked b < 256 := ((b ^^^ 0xBA).toBitVec.rotateLeft 2).isLt

/-- The digits of a patch. -/
theorem exists_patches {address : UInt16} (value : UInt8) (h : address.toNat < ramStart) :
    ∃ f g, Patches f g address value := by
  have hvalue := value.toNat_lt
  have htop : address.toNat / 4096 < 16 := by
    have := address.toNat_lt
    omega
  refine ⟨_, _, value.toNat / 16, value.toNat % 16, address.toNat / 256 % 16,
    address.toNat / 16 % 16, address.toNat % 16, address.toNat / 4096 ^^^ 0xF,
    spells_map_capital ?_, spells_map_capital ?_, ?_, ?_, h⟩
  · simp only [List.mem_cons, List.not_mem_nil, or_false, forall_eq_or_imp, forall_eq]
    omega
  · simp only [List.mem_cons, List.not_mem_nil, or_false, forall_eq_or_imp, forall_eq]
    exact ⟨by omega, by omega, (xor_lt htop).2⟩
  · rw [Nat.xor_assoc, Nat.xor_self, Nat.xor_zero, ofDigits_four]
    omega
  · rw [ofDigits_two]
    omega

/-- Every change in the range has a code, with a colon in its place. -/
theorem InRange.exists_writes {c : Cheat} (h : c.InRange) : ∃ cs, Writes Documented cs c := by
  cases c with
  | poke address value =>
      have haddress := address.toNat_lt
      have hvalue := value.toNat_lt
      refine ⟨_, .poke (.inr rfl) ⟨address.toNat / 4096, address.toNat / 256 % 16,
        address.toNat / 16 % 16, address.toNat % 16, value.toNat / 16, value.toNat % 16,
        spells_map_capital ?_, ?_, ?_, h⟩⟩
      · simp only [List.mem_cons, List.not_mem_nil, or_false, forall_eq_or_imp, forall_eq]
        omega
      · rw [ofDigits_four]
        omega
      · rw [ofDigits_two]
        omega
  | patch address value compare =>
      obtain ⟨f, g, digits⟩ := exists_patches value h
      cases compare with
      | none => exact ⟨_, .patch digits⟩
      | some b =>
          have hb := masked_lt b
          have hspells : Spells ([masked b / 16, 0, masked b % 16].map capital)
              [masked b / 16, 0, masked b % 16] := by
            refine spells_map_capital ?_
            simp only [List.mem_cons, List.not_mem_nil, or_false, forall_eq_or_imp, forall_eq]
            omega
          have hwrites : Writes Documented _ _ := .patchIf digits hspells
          rw [ofDigits_two, Nat.div_add_mod, unmasked_masked] at hwrites
          exact ⟨_, hwrites⟩

/-- The documented places of a colon are some of those that do not count. -/
theorem Writes.scattered {cs : List Char} {c : Cheat} (h : Writes Documented cs c) :
    Writes Scattered cs c := by
  cases h with
  | @poke _ ds address value colons digits =>
      refine .poke ?_ digits
      obtain ⟨a, b, c, d, e, f, hds, -⟩ := digits
      have hfilter : ds.filter (· ≠ ':') = ds :=
        List.filter_eq_self.2 fun x hx => by simpa using (hds.plain x hx).2.2
      rcases colons with rfl | rfl
      · exact hfilter
      · rw [Scattered, List.filter_append, List.filter_cons_of_neg (by decide),
          ← List.filter_append, List.take_append_drop, hfilter]
  | patch digits => exact .patch digits
  | patchIf digits compare => exact .patchIf digits compare

/-- **The grammar of codes.**  Parsing gives a change exactly for its codes: between blanks, either
eight digits among which colons do not count, or groups of three digits between hyphens.  Every
other text is refused as it stands.  The pokes into RAM and the patches below it are the changes
that have a code. -/
theorem grammar :
    (∀ s c, parse s = .ok c ↔ Coded Scattered s c) ∧
    (∀ s, (∃ c, Coded Scattered s c) ∨ parse s = .error (.invalidCheat s)) ∧
    ∀ c, (∃ s, parse s = .ok c) ↔ c.InRange := by
  refine ⟨fun s c => parse_eq_ok_iff, fun s => ?_, fun c => ⟨?_, fun h => ?_⟩⟩
  · simp only [← parse_eq_ok_iff]
    unfold parse
    split
    · exact .inl ⟨_, rfl⟩
    · exact .inr rfl
  · rintro ⟨s, hs⟩
    exact (parse_eq_ok_iff.1 hs).trim.inRange
  · obtain ⟨cs, hcs⟩ := h.exists_writes
    refine ⟨String.ofList cs, parse_eq_ok_iff.2 ⟨[], cs, [], ?_, rfl, rfl, hcs.scattered⟩⟩
    simp

/-- A poke in its documented form has nine characters at most. -/
theorem Writes.length_le {cs : List Char} {address : UInt16} {value : UInt8}
    (h : Writes Documented cs (.poke address value)) : cs.length ≤ 9 := by
  cases h with
  | poke colons digits =>
      obtain ⟨a, b, c, d, e, f, hds, -⟩ := digits
      have hlength := hds.length_eq
      simp only [List.length_cons, List.length_nil] at hlength
      rcases colons with rfl | rfl
      · omega
      · simp
        omega

/-- Two colons among the digits are read as a poke too. -/
theorem colons_out_of_place : ¬ ∀ s c, parse s = .ok c ↔ Coded Documented s c := by
  intro h
  obtain ⟨before, code, after, hs, hbefore, hafter, hcode⟩ :=
    (h "0:0C000:09" (.poke 0xC000 9)).1 (by decide)
  have htrim := trimBlanks_append (List.all_eq_true.1 hbefore) hcode.scattered.plain
    (List.all_eq_true.1 hafter)
  have hlength := hcode.length_le
  rw [← htrim, ← hs] at hlength
  revert hlength
  decide

end Cheat

end MasterSystem
