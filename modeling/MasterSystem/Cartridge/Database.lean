import MasterSystem.Cartridge.Kinds

/-! # The cartridge database

Cartridges whose hardware cannot be told from their image, by the checksum of the image: boards of
other makers, releases for PAL only, batteries, and games that use the FM chip. -/

namespace MasterSystem.Database

/-- What is recorded about a cartridge. -/
structure Entry where
  crc : UInt32
  title : String
  console : Console
  zone : Zone
  board : Board
  /-- Bytes of cartridge RAM, where they differ from what the board usually has. -/
  ram : Option Nat := none
  battery : Bool := false
  fm : Bool := false
deriving DecidableEq, Repr

/-- All entries, sorted by checksum. -/
def entries : List Entry := [
  ⟨0x06965ED9, "F-1 Spirit (KR)", .master, .japanNtsc, .msx, none, false, false⟩,
  ⟨0x092F29D6, "The Castle", .sg1000, .japanNtsc, .sg1000, some 0x2000, false, false⟩,
  ⟨0x152F0DCC, "Drop Zone", .gameGear, .exportNtsc, .codemasters, none, false, false⟩,
  ⟨0x18FB98A3, "Jang Pung 3", .master, .japanNtsc, .korean, none, false, false⟩,
  ⟨0x192949D5, "Janggun-ui Adeul", .master, .japanNtsc, .janggun, none, false, false⟩,
  ⟨0x29822980, "Cosmic Spacehead", .master, .exportPal, .codemasters, none, false, false⟩,
  ⟨0x2D48C1D3, "Back to the Future Part III", .master, .exportPal, .sega, none, false, false⟩,
  ⟨0x445525E2, "Penguin Adventure (KR)", .master, .japanNtsc, .msx, none, false, false⟩,
  ⟨0x6605D36A, "Phantasy Star (J)", .master, .japanNtsc, .sega, none, true, true⟩,
  ⟨0x6CAA625B, "Cosmic Spacehead", .gameGear, .exportNtsc, .codemasters, none, false, false⟩,
  ⟨0x72981057, "CJ Elephant Fugitive", .master, .exportPal, .codemasters, none, false, false⟩,
  ⟨0x77EFE84A, "Cyborg Z (KR)", .master, .japanNtsc, .msx, none, false, false⟩,
  ⟨0x83F0EEDE, "Street Master (KR)", .master, .japanNtsc, .korean, none, false, false⟩,
  ⟨0x8813514B, "The Excellent Dizzy Collection", .master, .exportPal, .codemasters, none, false,
    false⟩,
  ⟨0x89B79E77, "Dodgeball King (KR)", .master, .japanNtsc, .korean, none, false, false⟩,
  ⟨0x97D03541, "Sangokushi 3 (KR)", .master, .japanNtsc, .korean, none, false, false⟩,
  ⟨0xA577CE46, "Micro Machines", .master, .exportPal, .codemasters, none, false, false⟩,
  ⟨0xAA140C9C, "The Excellent Dizzy Collection", .gameGear, .exportNtsc, .codemasters, none, false,
    false⟩,
  ⟨0xB519E833, "Sonic the Hedgehog", .master, .exportNtsc, .sega, none, false, false⟩,
  ⟨0xB9664AE1, "Fantastic Dizzy", .master, .exportPal, .codemasters, none, false, false⟩,
  ⟨0xC1756BEE, "Pete Sampras Tennis", .gameGear, .exportNtsc, .codemasters, none, false, false⟩,
  ⟨0xC888222B, "Fantastic Dizzy", .gameGear, .exportNtsc, .codemasters, none, false, false⟩,
  ⟨0xDBE8895C, "Micro Machines 2: Turbo Tournament", .gameGear, .exportNtsc, .codemasters, none,
    false, false⟩,
  ⟨0xE316C06D, "Nemesis (KR)", .master, .japanNtsc, .msx, none, false, false⟩,
  ⟨0xE4A65E79, "Phantasy Star", .master, .exportNtsc, .sega, none, true, true⟩,
  ⟨0xEA5C3A6F, "Dinobasher Starring Bignose the Caveman", .master, .exportPal, .codemasters, none,
    false, false⟩,
  ⟨0xF8176918, "Sensible Soccer", .master, .exportPal, .sega, none, false, false⟩]

/-- The entries as an array. -/
def table : Array Entry := entries.toArray

/-- Binary search for a checksum among the `n` entries of a sorted array from index `first` on.  The
one in the middle tells which half to search further, until one is left. -/
def search (t : Array Entry) (crc : UInt32) (first n : Nat) : Option Entry :=
  if 1 < n then
    match t[first + n / 2]? with
    | some e =>
      if crc < e.crc then search t crc first (n - n / 2)
      else search t crc (first + n / 2) (n - n / 2)
    | none => none
  else t[first]?.filter fun e => e.crc == crc
termination_by n

/-- The entry of a checksum. -/
def lookup? (crc : UInt32) : Option Entry := search table crc 0 table.size

/-- A search finds nothing but an entry of the array with that checksum, sorted or not. -/
theorem mem_of_search {t : Array Entry} {crc : UInt32} {first n : Nat} {e : Entry}
    (h : search t crc first n = some e) : e ∈ t ∧ e.crc = crc := by
  fun_induction search t crc first n with
  | case1 first n _ m _ _ ih => exact ih h
  | case2 first n _ m _ _ ih => exact ih h
  | case3 => cases h
  | case4 first n _ =>
    obtain ⟨he, hcrc⟩ := Option.filter_eq_some_iff.1 h
    exact ⟨Array.mem_of_getElem? he, beq_iff_eq.1 hcrc⟩

/-- A look-up finds nothing but a listed entry of that checksum. -/
theorem mem_of_lookup? {crc : UInt32} {e : Entry} (h : lookup? crc = some e) :
    e ∈ entries ∧ e.crc = crc :=
  ⟨List.mem_toArray.1 (mem_of_search h).1, (mem_of_search h).2⟩

end MasterSystem.Database
