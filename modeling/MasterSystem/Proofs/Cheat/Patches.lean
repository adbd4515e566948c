import MasterSystem.Cheat.Engine
import MasterSystem.Proofs.Cheat.Grammar
import MasterSystem.Proofs.Mapper.PowerOn

/-! # Patches without a byte to compare

Such a patch is made at one place of the image, which is the address counted round the image.  A
board that has just been powered on may show another place at that address, and then the patch is
not seen there.

* **Places.**  Adding the code changes the byte at that place and no other (`add_patch`).
* **Boards.**  The board reads the new byte if the address is a straight one, and what it read
  before if it is not (`patch_at_power_on`).  The third slot of a Codemasters board, which starts
  with the first bank, has no straight address in an image of sixty-four kilobytes. -/

namespace MasterSystem.Cheats

open Mapper (Straight)

/-- The engine and the image after a patch without a byte to compare. -/
theorem add_patch (e : Cheats) {code : String} {address : UInt16} {value : UInt8}
    {rom : Array UInt8} (hcode : Cheat.parse code = .ok (.patch address value none))
    (hrom : 0 < rom.size) : ∃ e', e.add code rom = .ok (.patch address value none, e',
      rom.setIfInBounds (address.toNat % rom.size) value) := by
  have hplaces : places rom address none = [address.toNat % rom.size] := by
    rw [places, if_neg (by simpa [Array.isEmpty_iff_size_eq_zero] using hrom.ne')]
  have hinstall : (e.install (.patch address value none) rom).2 =
      rom.setIfInBounds (address.toNat % rom.size) value := by
    rw [install, hplaces]
    rfl
  refine ⟨(e.install (.patch address value none) rom).1.record code (.patch address value none), ?_⟩
  rw [add, hcode, ← hinstall]

/-- A code that is read as a patch has an address below RAM. -/
theorem patch_lt {code : String} {address : UInt16} {value : UInt8} {compare : Option UInt8}
    (h : Cheat.parse code = .ok (.patch address value compare)) : address < 0xC000 :=
  UInt16.lt_iff_toNat_lt.2 (Cheat.parse_eq_ok_iff.1 h).trim.inRange

/-- **Patches at power-on.**  If a board that has just been powered on reads an address from the
image, adding a patch for the address without a byte to compare succeeds and changes one byte at
most.  The board then reads the value of the patch if the address is a straight one; if it is not,
it reads the byte that it read before. -/
theorem patch_at_power_on {code : String} {address : UInt16} {value : UInt8} {board : Board}
    {ram : Nat} {rom : Array UInt8} {i : Nat} (e : Cheats)
    (hcode : Cheat.parse code = .ok (.patch address value none))
    (hread : (Mapper.new board ram).ReadsFrom rom.size address i) :
    ∃ e' rom', e.add code rom = .ok (.patch address value none, e', rom') ∧
      rom'.size = rom.size ∧ (∀ j, j ≠ address.toNat % rom.size → rom'[j]? = rom[j]?) ∧
      (Mapper.new board ram).read rom' address =
        if Straight board rom.size address.toNat then value
        else (Mapper.new board ram).read rom address := by
  have hlow := patch_lt hcode
  obtain ⟨-, hi, hlt⟩ := (Mapper.readsFrom_new_iff hlow).1 hread
  obtain ⟨e', hadd⟩ := e.add_patch hcode (Nat.zero_lt_of_lt hlt)
  have hplace : i = address.toNat % rom.size ↔ Straight board rom.size address.toNat := by
    rw [hi] at hlt ⊢
    exact Mapper.place_eq_mod_iff (UInt16.lt_iff_toNat_lt.1 hlow) hlt
  refine ⟨e', _, hadd, Array.size_setIfInBounds, fun j hj => ?_, ?_⟩
  · exact Array.getElem?_setIfInBounds_ne hj.symm
  rw [hread.2 _ Array.size_setIfInBounds, hread.2 rom rfl]
  split
  · rw [← hplace.2 ‹_›]
    simp [hlt]
  · simp [hlt, Array.getElem_setIfInBounds_ne, Ne.symm (mt hplace.1 ‹_›)]

/-- At `9000` a Codemasters board starts with the first bank, and does not see the patch. -/
theorem patch_at_power_on_of_third_slot :
    ∃ e' rom', ({} : Cheats).add "550-006" (Array.replicate 0x10000 0) =
        .ok (.patch 0x9000 0x55 none, e', rom') ∧
      (Mapper.new .codemasters 0x2000).read rom' 0x9000 = 0 := by
  have hread : (Mapper.new .codemasters 0x2000).ReadsFrom
      (Array.replicate 0x10000 (0 : UInt8)).size 0x9000 0x1000 := by
    rw [Array.size_replicate, Mapper.readsFrom_new_iff (by decide)]
    exact ⟨rfl, by decide, by decide⟩
  have hcode : Cheat.parse "550-006" = .ok (.patch 0x9000 0x55 none) := by decide
  obtain ⟨e', rom', hadd, -, -, h⟩ := patch_at_power_on {} hcode hread
  refine ⟨e', rom', hadd, h.trans ?_⟩
  rw [Array.size_replicate, if_neg (by decide), hread.2 _ rfl]
  simp

end MasterSystem.Cheats
