import MasterSystem.Proofs.Video.Time

/-! # Transfers to and from video RAM

Blocks of bytes through the ports, with anything else going on in between.

* **Port.**  Of the chip, the ports work with video RAM, the address, the command and two bytes that
  they keep (`Port`).  An access does to these what it does to the chip (`access_port`), and what is
  not done at the ports does nothing to them.
* **Memory.**  A block that is written goes to consecutive addresses, with the first after the last
  (`stored_inside`, `stored_outside`); one that is read comes from there, although every read gives
  the byte that the access before has fetched (`answers_fetch`).
* **Transfers.**  Hence a block is read as it was written (`read_of_written`). -/

namespace MasterSystem.Video

open Vdp (Access nextAddress)

/-- What the ports of the chip work with. -/
structure Port where
  model : Model
  vram : Array UInt8
  address : UInt16
  code : UInt8
  controlLow : Option UInt8
  buffer : UInt8

namespace Port

/-- The port after a read of data. -/
def read (p : Port) : Port :=
  { p with
    controlLow := none
    buffer := p.vram.getD p.address.toNat 0
    address := nextAddress p.address }

/-- The port after a byte of data was written, to video RAM unless colours are being written. -/
def write (p : Port) (b : UInt8) : Port :=
  { p with
    vram :=
      if p.code == 3 && p.model ≠ .legacy then p.vram
      else p.vram.setIfInBounds p.address.toNat b
    controlLow := none
    buffer := b
    address := nextAddress p.address }

/-- The port after a complete command. -/
def obey (p : Port) (low b : UInt8) : Port :=
  let p := {
    p with
    controlLow := none
    code := b >>> 6, address := Word.ofBytes (b &&& 0x3F) low }
  if b >>> 6 = 0 then p.read else p

/-- The port after one byte of a command. -/
def command (p : Port) (b : UInt8) : Port :=
  match p.controlLow with
  | none => { p with controlLow := some b, address := (p.address &&& 0x3F00) ||| b.toUInt16 }
  | some low => p.obey low b

/-- The port after an access to the chip. -/
def access (p : Port) : Access → Port
  | .readData => p.read
  | .writeData b => p.write b
  | .readStatus => { p with controlLow := none }
  | .writeControl b => p.command b
  | _ => p

/-- What is read from the data port. -/
def answers : Port → List Access → List UInt8
  | _, [] => []
  | p, .readData :: as => p.buffer :: answers p.read as
  | p, a :: as => answers (p.access a) as

end Port

namespace Vdp

/-- The chip as its ports work with it. -/
def port (v : Vdp) : Port :=
  ⟨v.model, v.vram, v.address, v.code, v.controlLow, v.readBuffer⟩

/-- Whether something is done at a port. -/
def Access.atPort : Access → Bool
  | .readData | .writeData _ | .readStatus | .writeControl _ => true
  | _ => false

/-! ### Accesses at the port -/

theorem writeData_port (v : Vdp) (b : UInt8) : (v.writeData b).port = v.port.write b := by
  have hcode : v.port.code = v.code := rfl
  have hmodel : v.port.model = v.model := rfl
  unfold writeData Port.write
  rw [hcode, hmodel]
  split
  · unfold writeCram
    split
    · dsimp only
      split <;> rfl
    · rfl
  · rfl

theorem writeRegister_port (v : Vdp) (i b : UInt8) : (v.writeRegister i b).port = v.port := by
  obtain ⟨regs, notes, h⟩ := writeRegister_eq v i b
  rw [h]
  rfl

theorem writeControl_port (v : Vdp) (b : UInt8) : (v.writeControl b).port = v.port.command b := by
  have hlow : v.port.controlLow = v.controlLow := rfl
  unfold writeControl Port.command
  rw [hlow]
  cases v.controlLow with
  | none => rfl
  | some low =>
      dsimp only
      unfold Port.obey
      split
      · rename_i hread
        rw [if_pos (eq_of_beq hread)]
        rfl
      · rename_i hread
        rw [if_neg fun h => hread (beq_iff_eq.2 h)]
        split
        · rw [writeRegister_port]
          rfl
        · rfl

theorem advance_port (v : Vdp) (cycles : Nat) : (v.advance cycles).2.port = v.port := by
  have hbare : v.bare.port = v.port := rfl
  have hadvance := congrArg port (bare_advance v cycles)
  exact hadvance.trans hbare

/-- An access does to the port what it does to the chip. -/
theorem access_port (v : Vdp) (a : Access) : (v.access a).port = v.port.access a := by
  cases a with
  | writeData b => exact writeData_port v b
  | writeControl b => exact writeControl_port v b
  | advance cycles => exact advance_port v cycles
  | _ => rfl

theorem foldl_access_port : ∀ (as : List Access) (v : Vdp),
    (as.foldl access v).port = as.foldl Port.access v.port
  | [], _ => rfl
  | a :: as, v => by
      rw [List.foldl_cons, List.foldl_cons, foldl_access_port as, access_port]

theorem answers_port : ∀ {as : List Access}, (∀ a ∈ as, a ≠ .readStatus) → ∀ v : Vdp,
    v.answers as = v.port.answers as
  | [], _, _ => rfl
  | a :: as, h, v => by
      have hrest := answers_port (fun x hx => h x (List.mem_cons_of_mem _ hx)) (v.access a)
      rw [access_port] at hrest
      rw [answers, hrest]
      cases a with
      | readStatus => exact absurd rfl (h .readStatus (List.mem_cons_self ..))
      | _ => rfl

end Vdp

namespace Port

/-- Nothing but what is done at the ports is done to the port. -/
theorem access_of_not_atPort {a : Access} (h : a.atPort = false) (p : Port) : p.access a = p := by
  cases a with
  | readData | writeData | readStatus | writeControl => cases h
  | _ => rfl

theorem foldl_access_filter : ∀ (as : List Access) (p : Port),
    as.foldl access p = (as.filter Access.atPort).foldl access p
  | [], _ => rfl
  | a :: as, p => by
      rw [List.foldl_cons, List.filter_cons, foldl_access_filter as]
      split
      · rfl
      · rename_i h
        rw [access_of_not_atPort (Bool.eq_false_iff.2 h)]

theorem answers_cons (p : Port) (a : Access) (as : List Access) (h : a ≠ .readData) :
    p.answers (a :: as) = (p.access a).answers as := by
  cases a with
  | readData => exact absurd rfl h
  | _ => rfl

theorem answers_filter : ∀ (as : List Access) (p : Port),
    p.answers as = p.answers (as.filter Access.atPort)
  | [], _ => rfl
  | a :: as, p => by
      have hrest := answers_filter as (p.access a)
      rw [List.filter_cons]
      split
      · cases a with
        | readData => exact congrArg (p.buffer :: ·) hrest
        | _ => exact hrest
      · rename_i h
        have hseen : a ≠ .readData := fun he => h (he ▸ rfl)
        rw [answers_cons p a as hseen, hrest, access_of_not_atPort (Bool.eq_false_iff.2 h)]

theorem answers_append : ∀ (as bs : List Access) (p : Port),
    p.answers (as ++ bs) = p.answers as ++ (as.foldl access p).answers bs
  | [], _, _ => rfl
  | a :: as, bs, p => by
      have hrest := answers_append as bs (p.access a)
      cases a with
      | readData => exact congrArg (p.buffer :: ·) hrest
      | _ => exact hrest

/-! ### Memory -/

theorem toNat_nextAddress (a : UInt16) : (nextAddress a).toNat = (a.toNat + 1) % vramSize := by
  have hmask : (a + 1).toNat &&& 0x3FFF = (a + 1).toNat % 0x4000 :=
    Nat.and_two_pow_sub_one_eq_mod _ 14
  unfold nextAddress vramSize
  rw [UInt16.toNat_and]
  refine hmask.trans ?_
  rw [UInt16.toNat_add]
  show (a.toNat + 1) % 65536 % 16384 = _
  omega

/-- Memory after a block was written, from an address on and from the last address to the first. -/
def stored (vram : Array UInt8) (a : Nat) : List UInt8 → Array UInt8
  | [] => vram
  | b :: bytes => stored (vram.setIfInBounds a b) ((a + 1) % vramSize) bytes

/-- The addresses from the second one on. -/
theorem later (a k : Nat) : ((a + 1) % vramSize + k) % vramSize = (a + (k + 1)) % vramSize := by
  rw [Nat.mod_add_mod]
  congr 1
  omega

theorem stored_outside : ∀ {bytes : List UInt8} {vram : Array UInt8} {a j : Nat}, a < vramSize →
    (∀ k < bytes.length, j ≠ (a + k) % vramSize) → (stored vram a bytes)[j]? = vram[j]?
  | [], _, _, _, _, _ => rfl
  | b :: bytes, vram, a, j, ha, hj => by
      have hfirst : a ≠ j := by
        have h := hj 0 (Nat.succ_pos _)
        rw [Nat.add_zero, Nat.mod_eq_of_lt ha] at h
        exact h.symm
      rw [stored, stored_outside (Nat.mod_lt _ (by decide)), Array.getElem?_setIfInBounds_ne hfirst]
      intro k hk
      rw [later]
      exact hj (k + 1) (Nat.succ_lt_succ hk)

theorem stored_inside : ∀ {bytes : List UInt8} {vram : Array UInt8} {a k : Nat}, a < vramSize →
    vramSize ≤ vram.size → bytes.length ≤ vramSize → k < bytes.length →
    (stored vram a bytes)[(a + k) % vramSize]? = bytes[k]?
  | b :: bytes, vram, a, k, ha, hsize, hlen, hk => by
      have hnext : (a + 1) % vramSize < vramSize := Nat.mod_lt _ (by decide)
      rw [List.length_cons] at hlen hk
      cases k with
      | zero =>
          -- The block is too short to come round to its first place.
          have hround : ∀ i < bytes.length, a ≠ ((a + 1) % vramSize + i) % vramSize := by
            intro i hi
            rw [later]
            unfold vramSize at *
            omega
          rw [Nat.add_zero, Nat.mod_eq_of_lt ha, stored, stored_outside hnext hround,
            Array.getElem?_setIfInBounds_self_of_lt (by omega)]
          rfl
      | succ k =>
          have hsize : vramSize ≤ (vram.setIfInBounds a b).size := by
            rw [Array.size_setIfInBounds]
            exact hsize
          have hrest := @stored_inside bytes (vram.setIfInBounds a b) _ k hnext hsize (by omega)
            (by omega)
          rw [later] at hrest
          exact hrest

/-! ### Blocks -/

/-- Write a block to video RAM. -/
def store (a : UInt16) (bytes : List UInt8) : List Access :=
  .writeControl (Word.low a) :: .writeControl (0x40 ||| Word.high a) :: bytes.map .writeData

/-- Read a block from video RAM. -/
def fetch (a : UInt16) (n : Nat) : List Access :=
  .writeControl (Word.low a) :: .writeControl (Word.high a) :: List.replicate n .readData

theorem command_command {p : Port} (h : p.controlLow = none) (low b : UInt8) :
    (p.command low).command b = p.obey low b := by
  unfold command
  rw [h]
  rfl

/-- A command to write gives the address, and one to read gives it as it is. -/
theorem command_address {a : UInt16} (ha : a.toNat < vramSize) :
    (0x40 ||| Word.high a) >>> 6 = 1 ∧ Word.high a >>> 6 = 0 ∧
      Word.ofBytes ((0x40 ||| Word.high a) &&& 0x3F) (Word.low a) = a ∧
      Word.ofBytes (Word.high a &&& 0x3F) (Word.low a) = a := by
  have hbits : ∀ b : UInt8, b.toNat < 64 → (0x40 ||| b) >>> 6 = 1 ∧ b >>> 6 = 0 ∧
      (0x40 ||| b) &&& 0x3F = b ∧ b &&& 0x3F = b := Word.forall_byte (by decide +kernel)
  have hhigh : (Word.high a).toNat < 64 := by
    rw [Word.toNat_high]
    unfold vramSize at ha
    omega
  obtain ⟨hwrite, hread, hset, hbare⟩ := hbits _ hhigh
  rw [hset, hbare]
  exact ⟨hwrite, hread, Word.ofBytes_high_low a, Word.ofBytes_high_low a⟩

theorem foldl_write : ∀ (bytes : List UInt8) {p : Port}, p.code = 1 → p.controlLow = none →
    ((bytes.map Access.writeData).foldl access p).vram = stored p.vram p.address.toNat bytes ∧
      ((bytes.map Access.writeData).foldl access p).controlLow = none
  | [], _, _, hlow => ⟨rfl, hlow⟩
  | b :: bytes, p, hcode, _ => by
      obtain ⟨hvram, hlow⟩ := foldl_write bytes (p := p.write b) hcode rfl
      have hplain : (p.write b).vram = p.vram.setIfInBounds p.address.toNat b := by
        unfold write
        rw [hcode]
        rfl
      refine ⟨hvram.trans ?_, hlow⟩
      rw [hplain, stored, ← toNat_nextAddress]
      rfl

theorem foldl_store {p : Port} (h : p.controlLow = none) {a : UInt16} (ha : a.toNat < vramSize)
    (bytes : List UInt8) :
    ((store a bytes).foldl access p).vram = stored p.vram a.toNat bytes ∧
      ((store a bytes).foldl access p).controlLow = none := by
  obtain ⟨hcode, -, haddress, -⟩ := command_address ha
  have hready : (p.command (Word.low a)).command (0x40 ||| Word.high a) =
      { p with controlLow := none, code := 1, address := a } := by
    rw [command_command h, obey, hcode, haddress]
    rfl
  have hblock := foldl_write bytes (p := { p with controlLow := none, code := 1, address := a })
    rfl rfl
  unfold store
  rw [List.foldl_cons, List.foldl_cons]
  show (List.foldl access ((p.command (Word.low a)).command (0x40 ||| Word.high a)) _).vram = _ ∧
    (List.foldl access ((p.command (Word.low a)).command (0x40 ||| Word.high a))
      _).controlLow = none
  rw [hready]
  exact hblock

theorem answers_write : ∀ (bytes : List UInt8) (p : Port),
    p.answers (bytes.map .writeData) = []
  | [], _ => rfl
  | b :: bytes, p => answers_write bytes (p.write b)

theorem answers_store (a : UInt16) (bytes : List UInt8) (p : Port) :
    p.answers (store a bytes) = [] :=
  answers_write bytes ((p.command (Word.low a)).command (0x40 ||| Word.high a))

theorem foldl_read_vram : ∀ (n : Nat) (p : Port),
    ((List.replicate n Access.readData).foldl access p).vram = p.vram
  | 0, _ => rfl
  | n + 1, p => foldl_read_vram n p.read

/-- Every read gives what the access before has fetched. -/
theorem answers_read : ∀ (n : Nat) {p : Port} {a : Nat}, a < vramSize →
    p.address.toNat = (a + 1) % vramSize → p.buffer = p.vram.getD a 0 →
    p.answers (List.replicate n .readData) =
      (List.range n).map fun k => p.vram.getD ((a + k) % vramSize) 0
  | 0, _, _, _, _, _ => rfl
  | n + 1, p, a, ha, haddress, hbuffer => by
      have hnext : p.read.address.toNat = ((a + 1) % vramSize + 1) % vramSize := by
        show (nextAddress p.address).toNat = _
        rw [toNat_nextAddress, haddress]
      have hfetched : p.read.buffer = p.read.vram.getD ((a + 1) % vramSize) 0 := by
        rw [← haddress]
        rfl
      have hrest := answers_read n (Nat.mod_lt _ (by decide)) hnext hfetched
      have hfirst : p.vram.getD ((a + 0) % vramSize) 0 = p.buffer := by
        rw [hbuffer, Nat.add_zero, Nat.mod_eq_of_lt ha]
      rw [List.range_succ_eq_map, List.map_cons, List.map_map, hfirst]
      show p.buffer :: p.read.answers (List.replicate n .readData) = _
      rw [hrest]
      congr 1
      apply List.map_congr_left
      intro k _
      exact congrArg (p.vram.getD · 0) (later a k)

/-- A block is read from consecutive addresses. -/
theorem answers_fetch {p : Port} (h : p.controlLow = none) {a : UInt16} (ha : a.toNat < vramSize)
    (n : Nat) :
    p.answers (fetch a n) = (List.range n).map (fun k => p.vram.getD ((a.toNat + k) % vramSize) 0) ∧
      ((fetch a n).foldl access p).vram = p.vram := by
  obtain ⟨-, hcode, -, haddress⟩ := command_address ha
  have hready : (p.command (Word.low a)).command (Word.high a) =
      { p with
        controlLow := none, code := 0, address := nextAddress a
        buffer := p.vram.getD a.toNat 0 } := by
    rw [command_command h, obey, hcode, haddress]
    rfl
  have hread := answers_read n (p := (p.command (Word.low a)).command (Word.high a)) (a := a.toNat)
  rw [hready] at hread
  constructor
  · show ((p.command (Word.low a)).command (Word.high a)).answers _ = _
    rw [hready]
    exact hread ha (toNat_nextAddress a) rfl
  · refine (foldl_read_vram n ((p.command (Word.low a)).command (Word.high a))).trans ?_
    rw [hready]

end Port

namespace Vdp

open Port (store fetch stored)

/-- **Transfers.**  A block that is written to video RAM, at any address and over its end if need
be, is what a read from that address gives, and nothing else of video RAM has changed.  Lines may
start in between, and anything else may happen that is not done at the ports. -/
theorem read_of_written (v : Vdp) (a : UInt16) (bytes : List UInt8) (as : List Access)
    (hsize : vramSize ≤ v.vram.size) (hlow : v.controlLow = none) (ha : a.toNat < vramSize)
    (hlen : bytes.length ≤ vramSize)
    (has : as.filter Access.atPort = store a bytes ++ fetch a bytes.length) :
    v.answers as = bytes ∧
      (∀ k (hk : k < bytes.length),
        (as.foldl access v).vram[(a.toNat + k) % vramSize]? = some bytes[k]) ∧
      ∀ j, (∀ k < bytes.length, j ≠ (a.toNat + k) % vramSize) →
        (as.foldl access v).vram[j]? = v.vram[j]? := by
  obtain ⟨hvram, hdone⟩ := Port.foldl_store (p := v.port) hlow ha bytes
  obtain ⟨hread, hkept⟩ := Port.answers_fetch hdone ha bytes.length
  have hstatus : ∀ x ∈ as, x ≠ .readStatus := by
    rintro _ hx rfl
    have hport : Access.readStatus ∈ as.filter Access.atPort := List.mem_filter.2 ⟨hx, rfl⟩
    rw [has] at hport
    simp [store, fetch] at hport
  -- What is not done at the ports can be left out of the program.
  have hfinal : (as.foldl access v).vram = stored v.vram a.toNat bytes := by
    have hport := congrArg Port.vram (foldl_access_port as v)
    rw [Port.foldl_access_filter, has, List.foldl_append, hkept, hvram] at hport
    exact hport
  have hinside (k : Nat) (hk : k < bytes.length) :
      (stored v.vram a.toNat bytes)[(a.toNat + k) % vramSize]? = some bytes[k] := by
    rw [Port.stored_inside ha hsize hlen hk, List.getElem?_eq_getElem hk]
  rw [hfinal]
  refine ⟨?_, hinside, fun j hj => Port.stored_outside ha hj⟩
  rw [answers_port hstatus, Port.answers_filter, has, Port.answers_append, Port.answers_store,
    List.nil_append, hread, hvram]
  apply List.ext_getElem
  · rw [List.length_map, List.length_range]
  · intro k _ hk
    rw [List.getElem_map, List.getElem_range, Array.getD_eq_getD_getElem?]
    show ((stored v.vram a.toNat bytes)[(a.toNat + k) % vramSize]?).getD 0 = bytes[k]
    rw [hinside k hk]
    rfl

/-- Three bytes over the end of video RAM, while more than a field passes. -/
theorem read_of_written_over_end :
    let as : List Access := [
      .writeControl 0xFF, .advance 300, .writeControl 0x7F, .writeData 1, .advance 60000,
      .writeData 2, .writeData 3, .writeControl 0xFF, .writeControl 0x3F, .readData,
      .advance 228, .readData, .readData]
    (new .gameGear .pal).answers as = [1, 2, 3] ∧
      (as.foldl access (new .gameGear .pal)).vram[0]? = some 2 ∧
      (as.foldl access (new .gameGear .pal)).vram[2]? = (new .gameGear .pal).vram[2]? := by
  intro as
  have hsize : vramSize ≤ (new .gameGear .pal).vram.size :=
    Nat.le_of_eq Array.size_replicate.symm
  obtain ⟨hread, hinside, houtside⟩ :=
    read_of_written (new .gameGear .pal) 0x3FFF [1, 2, 3] as hsize rfl (by decide) (by decide) rfl
  exact ⟨hread, hinside 1 (by decide), houtside 2 (by decide)⟩

end Vdp

end MasterSystem.Video
