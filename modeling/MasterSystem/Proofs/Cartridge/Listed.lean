import MasterSystem.Cartridge.Image

/-! # Listed cartridges

What is known of a cartridge that the database lists is recorded there, and nothing of it is guessed
from the image or from the name of its file.

* **Search.**  The entries are sorted, so that the search finds each of them (`search_of_sorted`)
  and a look-up tells exactly what is listed (`lookup?_eq_some_iff`).
* **Identification.**  `Entry.info` puts together what the host insists on and what is recorded; for
  a listed checksum that is the outcome (`resolve_of_listed`), and of two images the same, except
  for the mark of a header (`database_decides`).
* **Loading.**  An image with a listed checksum makes a cartridge of that kind, whenever its size is
  one that an image can have (`load_of_listed`). -/

namespace MasterSystem

namespace Database

/-! ### Search -/

/-- The entries of an array are in the order of their checksums, each of which stands once. -/
def Sorted (t : Array Entry) : Prop := t.toList.Pairwise fun a b => a.crc < b.crc

theorem Sorted.lt {t : Array Entry} (h : Sorted t) {j k : Nat} (hjk : j < k) (hk : k < t.size) :
    t[j].crc < t[k].crc := List.pairwise_iff_getElem.1 h j k (Nat.lt_trans hjk hk) hk hjk

/-- In a sorted array, a search that includes an entry finds it. -/
theorem search_of_sorted {t : Array Entry} (hs : Sorted t) {i : Nat} (hi : i < t.size)
    {first n : Nat} (hfirst : first ≤ i) (hlast : i < first + n) (hsize : first + n ≤ t.size) :
    search t t[i].crc first n = some t[i] := by
  fun_induction search t t[i].crc first n with
  | case1 first n hn e hmiddle hless ih =>
      -- An entry that is less than the middle one is before it.
      obtain ⟨hm, rfl⟩ := Array.getElem?_eq_some_iff.1 hmiddle
      have hbefore : i < first + n / 2 := by
        rcases Nat.lt_trichotomy i (first + n / 2) with hlt | rfl | hlt
        · exact hlt
        · exact absurd hless (UInt32.lt_irrefl _)
        · exact absurd (hs.lt hlt hi) (UInt32.lt_asymm hless)
      exact ih hfirst (by omega) (by omega)
  | case2 first n hn e hmiddle hless ih =>
      -- One that is not less is not before it.
      obtain ⟨hm, rfl⟩ := Array.getElem?_eq_some_iff.1 hmiddle
      have hafter : first + n / 2 ≤ i := Nat.le_of_not_lt fun hlt => hless (hs.lt hlt hm)
      exact ih hafter (by omega) (by omega)
  | case3 first n hn hmiddle =>
      have hend := Array.getElem?_eq_none_iff.1 hmiddle
      omega
  | case4 first n hn =>
      obtain rfl : first = i := by omega
      rw [Array.getElem?_eq_getElem hi, Option.filter_some, if_pos (beq_self_eq_true _)]

theorem table_sorted : Sorted table := by
  unfold Sorted
  decide +kernel

/-- A look-up finds every listed entry by its checksum. -/
theorem lookup?_of_mem {e : Entry} (h : e ∈ entries) : lookup? e.crc = some e := by
  obtain ⟨i, hi, rfl⟩ : ∃ (i : Nat) (hi : i < table.size), table[i] = e :=
    Array.mem_iff_getElem.1 (List.mem_toArray.2 h)
  exact search_of_sorted table_sorted hi (Nat.zero_le i) (by omega) (by omega)

theorem lookup?_eq_some_iff {crc : UInt32} {e : Entry} :
    lookup? crc = some e ↔ e ∈ entries ∧ e.crc = crc :=
  ⟨mem_of_lookup?, fun ⟨h, hcrc⟩ => hcrc ▸ lookup?_of_mem h⟩

/-- No checksum is found that is not listed. -/
theorem isSome_lookup? {crc : UInt32} :
    (lookup? crc).isSome = true ↔ crc ∈ entries.map (·.crc) := by
  rw [Option.isSome_iff_exists, List.mem_map]
  exact exists_congr fun _ => lookup?_eq_some_iff

/-! ### Identification -/

/-- What is recorded, in the form of what a host insists on. -/
def Entry.overrides (e : Entry) : Overrides where
  console := e.console
  zone := e.zone
  board := e.board

/-- What is known of a listed cartridge: what the host insists on, and what is recorded where it
leaves that open. -/
def Entry.info (e : Entry) (o : Overrides) (validHeader : Bool) : Info :=
  let known := o.orElse e.overrides
  let zone := known.timing.elim known.zone known.zone.withTiming
  { crc := e.crc
    console := known.console
    zone := zone
    board := known.board
    ram := e.ram.getD (Info.usualRam known.board)
    battery := e.battery
    title := some e.title
    pal := zone.isPal
    fm := e.fm
    noise := if known.console = .sg1000 then .ti else .sega
    validHeader := validHeader }

end Database

namespace Info

open Database

theorem resolve_of_listed {e : Entry} (h : e ∈ entries) (rom : Array UInt8) (o : Overrides)
    (path : Option String) :
    resolve rom e.crc o path = e.info o (Header.region? rom).isSome := by
  unfold resolve
  rw [lookup?_of_mem h]
  unfold Entry.info Overrides.orElse
  cases o.timing <;> rfl

/-- Whatever the image, the territory decides the television standard. -/
theorem pal_resolve (rom : Array UInt8) (crc : UInt32) (o : Overrides) (path : Option String) :
    (resolve rom crc o path).pal = (resolve rom crc o path).zone.isPal := rfl

/-- Whatever the image, the console decides the noise. -/
theorem noise_resolve (rom : Array UInt8) (crc : UInt32) (o : Overrides) (path : Option String) :
    (resolve rom crc o path).noise = .ti ↔ (resolve rom crc o path).console = .sg1000 := by
  have h : (resolve rom crc o path).noise =
      if (resolve rom crc o path).console = .sg1000 then .ti else .sega := rfl
  rw [h]
  split <;> simp [*]

/-- **The database beats the image.**  A look-up tells exactly what is listed.  For a listed
checksum all that is known of a cartridge is what the host insists on and what is recorded, so that
of two images and two file names the same is known, apart from whether there is a header.  For every
image, listed or not, the territory tells whether the television is PAL, and the noise is that of
TI's chip on the SG-1000 and on no other console. -/
theorem database_decides :
    (∀ (crc : UInt32) (e : Entry), lookup? crc = some e ↔ e ∈ entries ∧ e.crc = crc) ∧
    (∀ crc : UInt32, (lookup? crc).isSome = true ↔ crc ∈ entries.map (·.crc)) ∧
    (∀ e ∈ entries, ∀ (o : Overrides) (rom : Array UInt8) (path : Option String),
      resolve rom e.crc o path = e.info o (Header.region? rom).isSome) ∧
    (∀ crc ∈ entries.map (·.crc), ∀ (o : Overrides) (rom rom' : Array UInt8)
      (path path' : Option String), { resolve rom crc o path with validHeader := false } =
        { resolve rom' crc o path' with validHeader := false }) ∧
    ∀ (rom : Array UInt8) (crc : UInt32) (o : Overrides) (path : Option String),
      (resolve rom crc o path).pal = (resolve rom crc o path).zone.isPal ∧
      ((resolve rom crc o path).noise = .ti ↔ (resolve rom crc o path).console = .sg1000) := by
  refine ⟨fun _ _ => lookup?_eq_some_iff, fun _ => isSome_lookup?, fun e he o rom path => ?_, ?_,
    fun rom crc o path => ⟨pal_resolve .., noise_resolve ..⟩⟩
  · exact resolve_of_listed he rom o path
  · intro crc hcrc o rom rom' path path'
    obtain ⟨e, he, hcrc⟩ := List.mem_map.1 hcrc
    have hmark (b : Bool) : { e.info o b with validHeader := false } = e.info o false := rfl
    rw [← hcrc, resolve_of_listed he, resolve_of_listed he]
    exact (hmark _).trans (hmark _).symm

/-- A game of the SG-1000 that a host insists to run on a Game Gear with PAL television: what is
recorded stays except for that, and an image that says otherwise changes nothing. -/
theorem database_decides_of_castle :
    lookup? 0x092F29D6 = some ⟨0x092F29D6, "The Castle", .sg1000, .japanNtsc, .sg1000, some 0x2000,
      false, false⟩ ∧
    resolve #[] 0x092F29D6 { console := .gameGear, timing := some .pal } none =
      { crc := 0x092F29D6, console := .gameGear, zone := .japanPal, board := .sg1000, ram := 0x2000
        battery := false, title := some "The Castle", pal := true, fm := false, noise := .sega
        validHeader := false } ∧
    { resolve #[] 0x092F29D6 {} none with validHeader := false } =
      { resolve (Array.replicate 0x20000 0xFF) 0x092F29D6 {} (some "castle.gg")
        with validHeader := false } := by
  have hmem : (⟨0x092F29D6, "The Castle", .sg1000, .japanNtsc, .sg1000, some 0x2000, false, false⟩ :
      Entry) ∈ entries := by simp [entries]
  obtain ⟨hlookup, -, hinfo, hsame, -⟩ := database_decides
  refine ⟨(hlookup _ _).2 ⟨hmem, rfl⟩, ?_, ?_⟩
  · exact hinfo _ hmem { console := .gameGear, timing := some .pal } #[] none
  · exact hsame _ (List.mem_map_of_mem hmem) {} #[] (Array.replicate 0x20000 0xFF) none _

end Info

/-! ### Loading -/

namespace Cartridge

open Database

/-- Every listed cartridge is on a board that is known. -/
theorem board_of_listed : ∀ e ∈ entries, e.board ≠ .unknown ∧ e.board ≠ .unsupported := by
  decide +kernel

/-- An image with a listed checksum makes the cartridge that is recorded, if it has a size that an
image can have and the host does not insist on a board that is not supported. -/
theorem load_of_listed {data : Array UInt8} {e : Entry} (he : e ∈ entries)
    (hcrc : Checksum.crc32 (strip data) = e.crc) (hmin : minSize ≤ (strip data).size)
    (hmax : (strip data).size ≤ maxSize) {o : Overrides} (ho : o.board ≠ .unsupported)
    (path : Option String) :
    load data o path =
      .ok ⟨strip data, e.info o (Header.region? (strip data)).isSome⟩ := by
  have hboard : (e.info o (Header.region? (strip data)).isSome).board ≠ .unsupported := by
    show (if o.board = .unknown then e.board else o.board) ≠ .unsupported
    split
    · exact (board_of_listed e he).2
    · exact ho
  unfold load
  dsimp only
  rw [hcrc, Info.resolve_of_listed he, if_neg (Nat.not_lt_of_le hmin),
    if_neg (Nat.not_lt_of_le hmax), if_neg hboard]

end Cartridge

end MasterSystem
