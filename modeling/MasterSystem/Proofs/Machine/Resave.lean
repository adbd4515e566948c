import MasterSystem.Proofs.Machine.Safety
import MasterSystem.Proofs.Snapshot.Canonical

/-! # Saving a machine that was restored

A machine that was restored from some bytes is saved as the same bytes again.  Two things could
stand in the way: the bytes may not be the ones that the state is written as, which a layout does
not accept (`Snapshot.encode_of_decode`), and restoring may not put everything back.  The one thing
that it does not always put back is a boot ROM that the machine does not have (`restore_write`). -/

namespace MasterSystem.Machine

open Snapshot (State)

/-- A state with the boot ROM taken out of the memory map if there is none. -/
def mappedFor (b : Mainboard) (s : State) : State :=
  { s with bootRomMapped := s.bootRomMapped && b.memory.bootRom.isSome }

variable {m : Machine} {bytes : Array UInt8} {info : Info} {s : State}

/-- What restoring adds to a state, or takes from the settings instead of it, is not written. -/
theorem restore_write (hinfo : m.cartridge = some info)
    (hs : Snapshot.decode info.crc bytes.toList = .ok s) (h : m.board.Admits s) :
    (m.restore bytes).1.save = .ok (Snapshot.encode info.crc (mappedFor m.board s)).toArray := by
  unfold restore
  rw [hinfo]
  dsimp only
  rw [hs]
  dsimp only
  rw [corruption?_eq_none.2 h]
  unfold save
  have hsame : ({ m with
      cpu := { m.cpu with regs := s.regs, bus := restoreBoard m.board s m.settings }
      frameCount := s.frameCount
      frameCycle := s.frameCycle
      paused := false } : Machine).cartridge = some info := hinfo
  rw [hsame]
  rfl

/-- Whether the boot ROM is mapped is a byte of its own. -/
theorem encode_mappedFor {crc : UInt32} {b : Mainboard} :
    Snapshot.encode crc (mappedFor b s) = Snapshot.encode crc s ↔
      b.memory.bootRom.isSome = true ∨ s.bootRomMapped = false := by
  constructor
  · intro h
    have hbyte : Snapshot.Codec.bool.write (s.bootRomMapped && b.memory.bootRom.isSome) ++ _ =
        Snapshot.Codec.bool.write s.bootRomMapped ++ _ :=
      List.append_cancel_left <| List.append_cancel_left <| List.append_cancel_left <|
        List.append_cancel_left h
    have hbit := (List.cons.inj hbyte).1
    cases hrom : b.memory.bootRom.isSome <;> cases hs : s.bootRomMapped <;>
      simp [hrom, hs] at hbit ⊢
  · intro h
    have hmapped : mappedFor b s = s := by
      unfold mappedFor
      rcases h with h | h
      · rw [h, Bool.and_true]
      · rw [h, Bool.false_and, ← h]
    rw [hmapped]

/-- A machine that was restored is saved as the bytes that restoring took, except that a boot ROM
that is not there is not mapped. -/
theorem save_restored (h : (m.restore bytes).2 = .ok ()) :
    ∃ info s, m.cartridge = some info ∧ Snapshot.decode info.crc bytes.toList = .ok s ∧
      ((m.restore bytes).1.save = .ok (Snapshot.taken bytes.toList).toArray ↔
        m.board.memory.bootRom.isSome = true ∨ s.bootRomMapped = false) := by
  obtain ⟨info, s, hinfo, hs, hadmits⟩ := restore_ok_iff.1 h
  refine ⟨info, s, hinfo, hs, ?_⟩
  rw [restore_write hinfo hs hadmits, ← Snapshot.encode_of_decode hs, ← encode_mappedFor]
  exact ⟨fun h => congrArg Array.toList (Except.ok.inj h), fun h => by rw [h]⟩

/-- What saving leaves out does not matter to whether a state fits a board. -/
theorem admits_saved {b : Mainboard} (h : b.Admits s) : b.Admits s.saved :=
  ⟨h.ram, h.board, h.cartridge, h.model, h.fm, h.display⟩

/-- The bytes of a machine's state are restored by any machine that the state fits, and that machine
is saved as the same bytes. -/
theorem save_restore_save {k : Machine} (hfits : m.state.Fits) (hsave : m.save = .ok bytes)
    (hcrc : k.cartridge.map (·.crc) = m.cartridge.map (·.crc)) (hadmits : k.board.Admits m.state)
    (hrom : k.board.memory.bootRom.isSome = true ∨ m.board.memory.bootRomMapped = false) :
    (k.restore bytes).2 = .ok () ∧ (k.restore bytes).1.save = .ok bytes := by
  unfold save at hsave
  split at hsave
  · simp at hsave
  · rename_i info hinfo
    obtain rfl := Except.ok.inj hsave
    rw [hinfo] at hcrc
    obtain ⟨info', hinfo', hcrc⟩ := Option.map_eq_some_iff.1 hcrc
    have hcrc : info'.crc = info.crc := hcrc
    have hdecode := Snapshot.decode_encode info.crc hfits
    rw [← hcrc] at hdecode ⊢
    have hadmits := admits_saved hadmits
    have hdecode : Snapshot.decode info'.crc
        (Snapshot.encode info'.crc m.state).toArray.toList = .ok m.state.saved := hdecode
    refine ⟨restore_ok_iff.2 ⟨info', _, hinfo', hdecode, hadmits⟩, ?_⟩
    have hmapped : Snapshot.encode info'.crc (mappedFor k.board m.state.saved) =
        Snapshot.encode info'.crc m.state.saved := encode_mappedFor.2 hrom
    rw [restore_write hinfo' hdecode hadmits, hmapped]
    rfl

/-- **Save states are written again as they were read.**  A machine that was restored from some
bytes is saved as those of them that restoring took, unless they map a boot ROM that the machine
does not have.  In particular a machine's state, with its numbers within the ranges of the layout,
is restored by every machine that it fits, and saved there as the same bytes. -/
theorem save_restore (m : Machine) :
    (∀ bytes, (m.restore bytes).2 = .ok () →
      ∃ info s, m.cartridge = some info ∧ Snapshot.decode info.crc bytes.toList = .ok s ∧
        ((m.restore bytes).1.save = .ok (Snapshot.taken bytes.toList).toArray ↔
          m.board.memory.bootRom.isSome = true ∨ s.bootRomMapped = false)) ∧
    (∀ bytes (k : Machine), m.state.Fits → m.save = .ok bytes →
      k.cartridge.map (·.crc) = m.cartridge.map (·.crc) → k.board.Admits m.state →
      (k.board.memory.bootRom.isSome = true ∨ m.board.memory.bootRomMapped = false) →
      (k.restore bytes).2 = .ok () ∧ (k.restore bytes).1.save = .ok bytes) :=
  ⟨fun _ h => save_restored h, fun _ _ hfits hsave hcrc hadmits hrom =>
    save_restore_save hfits hsave hcrc hadmits hrom⟩

/-- The machine that was loaded with the program of nothing but `HALT` restores its own state and is
saved as the same bytes, all of which restoring takes. -/
theorem save_restore_of_halt : ∃ (m₀ : Machine) (bytes : Array UInt8),
    (new {}).insert haltingImage
      { console := .master, zone := .exportNtsc, board := .romOnly } none = (m₀, .ok ()) ∧
    m₀.save = .ok bytes ∧ (m₀.restore bytes).2 = .ok () ∧
    (m₀.restore bytes).1.save = .ok bytes ∧
    (m₀.restore bytes).1.save = .ok (Snapshot.taken bytes.toList).toArray := by
  obtain ⟨c, m₀, hm₀, hboard, -, hfits⟩ := fits_haltingImage
  have hinfo : m₀.cartridge = some c.info := by
    unfold cartridge
    rw [hboard]
    rfl
  have hadmits : m₀.board.Admits m₀.state := by
    refine ⟨rfl, rfl, rfl, rfl, rfl, ?_⟩
    show m₀.board.vdp.displayConsistent = true
    rw [hboard]
    exact (Video.Vdp.Framed.new _ _).display
  have hmapped : m₀.board.memory.bootRomMapped = false := by
    rw [hboard]
    simp [Mainboard.new, Memory.new, Memory.mapsBootRom]
  let bytes := (Snapshot.encode c.info.crc m₀.state).toArray
  have hsave : m₀.save = .ok bytes := by
    unfold save
    rw [hinfo]
  obtain ⟨hok, hagain⟩ := (save_restore m₀).2 bytes m₀ hfits hsave rfl hadmits (.inr hmapped)
  obtain ⟨info, s, hinfo', hs, hwritten⟩ := (save_restore m₀).1 bytes hok
  refine ⟨m₀, bytes, hm₀, hsave, hok, hagain, hwritten.2 (.inr ?_)⟩
  have hdecode := Snapshot.decode_encode c.info.crc hfits
  obtain rfl := Option.some.inj (hinfo.symm.trans hinfo')
  obtain rfl := Except.ok.inj (hdecode.symm.trans hs)
  exact hmapped

end MasterSystem.Machine
