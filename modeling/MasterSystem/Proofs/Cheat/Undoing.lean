import MasterSystem.Cheat.Engine
import MasterSystem.Machine.Basic

/-! # Undoing cheats

A patch is made in the image when its code is put in force, and the byte that it replaces is
remembered.  Later patches find what earlier ones have written, so the bytes are put back in the
opposite order.

* **Patches.**  What clearing would give is not changed by a patch (`restore_install`).
* **Requests.**  A code can be put in force with the image at hand or without it (`Request`).  The
  answer depends on the code alone, and a request that is refused changes nothing
  (`request_refused`).
* **Runs.**  After any requests, clearing gives the image as it was before the first of them
  (`undone`).  Machines do the same with the image of their cartridge (`clearCheats_added`). -/

namespace MasterSystem

namespace Cheats

/-! ### Patches -/

/-- A byte that is replaced and remembered does not change what clearing the cheats gives. -/
theorem restore_replaceByte (e : Cheats) (value : UInt8) (s : List (Nat × UInt8) × Array UInt8)
    (i : Nat) :
    ({ e with replaced := (replaceByte value s i).1 } : Cheats).restore (replaceByte value s i).2 =
      ({ e with replaced := s.1 } : Cheats).restore s.2 := by
  have hback : (s.2.setIfInBounds i value).setIfInBounds i (s.2.getD i 0) = s.2 := by
    rw [Array.setIfInBounds_setIfInBounds]
    apply Array.ext
    · simp
    · intro j hj hj'
      by_cases hij : i = j
      · subst hij
        simp [Array.getD_eq_getD_getElem?, hj']
      · exact Array.getElem_setIfInBounds_ne hj' hij
  unfold restore replaceByte
  rw [List.foldl_cons, hback]

/-- Making a patch does not change what clearing the cheats gives. -/
theorem restore_install (e : Cheats) (c : Cheat) (rom : Array UInt8) :
    (e.install c rom).1.restore (e.install c rom).2 = e.restore rom := by
  cases c with
  | poke address value => rfl
  | patch address value compare =>
      unfold install
      dsimp only
      generalize places rom address compare = is
      have hfold (s : List (Nat × UInt8) × Array UInt8) :
          ({ e with replaced := (is.foldl (replaceByte value) s).1 } : Cheats).restore
            (is.foldl (replaceByte value) s).2 =
          ({ e with replaced := s.1 } : Cheats).restore s.2 := by
        induction is generalizing s with
        | nil => rfl
        | cons i is ih =>
            rw [List.foldl_cons, ih]
            exact restore_replaceByte e value s i
      exact hfold (e.replaced, rom)

theorem restore_add {e e' : Cheats} {code : String} {c : Cheat} {rom rom' : Array UInt8}
    (h : e.add code rom = .ok (c, e', rom')) : e'.restore rom' = e.restore rom := by
  unfold add at h
  split at h
  · simp at h
  · rename_i parsed _
    have hinstall := restore_install e parsed rom
    dsimp only at h
    generalize e.install parsed rom = p at h hinstall
    simp only [Except.ok.injEq, Prod.mk.injEq] at h
    obtain ⟨rfl, rfl, rfl⟩ := h
    exact hinstall

/-- Clearing the cheats touches no byte but those that were replaced. -/
theorem restore_getElem? (e : Cheats) (rom : Array UInt8) {i : Nat}
    (h : i ∉ e.replaced.map Prod.fst) : (e.restore rom)[i]? = rom[i]? := by
  obtain ⟨active, replaced⟩ := e
  unfold restore
  dsimp only at h ⊢
  induction replaced generalizing rom with
  | nil => rfl
  | cons p ps ih =>
      simp only [List.map_cons, List.mem_cons, not_or] at h
      rw [List.foldl_cons, ih _ h.2, Array.getElem?_setIfInBounds_ne (Ne.symm h.1)]

theorem active_install (e : Cheats) (c : Cheat) (rom : Array UInt8) :
    (e.install c rom).1.active = e.active := by cases c <;> rfl

/-! ### Requests -/

/-- Cheats, and the image that they are for. -/
structure Patched where
  cheats : Cheats := {}
  rom : Array UInt8
deriving DecidableEq, Repr

/-- A code to be put in force, with the image at hand or without it. -/
structure Request where
  code : String
  atHand : Bool
deriving DecidableEq, Repr

namespace Patched

/-- What a request makes of the cheats and of the image, and its answer. -/
def request (p : Patched) (r : Request) : Patched × Except Error Cheat :=
  if r.atHand then
    match p.cheats.add r.code p.rom with
    | .ok (c, cheats, rom) => (⟨cheats, rom⟩, .ok c)
    | .error x => (p, .error x)
  else
    match Cheat.parse r.code with
    | .ok c => ({ p with cheats := p.cheats.record r.code c }, .ok c)
    | .error x => (p, .error x)

/-- The cheats and the image after some requests. -/
def after (p : Patched) (rs : List Request) : Patched := rs.foldl (fun p r => (p.request r).1) p

/-- No cheats, and the image with the bytes put back that they replaced. -/
def cleared (p : Patched) : Patched := ⟨{}, p.cheats.restore p.rom⟩

/-- A request is granted if its code can be read; the code joins those in force, and what clearing
would give stays. -/
theorem request_granted (p : Patched) {r : Request} {c : Cheat}
    (h : Cheat.parse r.code = .ok c) :
    (p.request r).2 = .ok c ∧ (p.request r).1.cheats.active = p.cheats.active.push (r.code, c) ∧
      (p.request r).1.cleared = p.cleared := by
  unfold request
  split
  · have hadd : p.cheats.add r.code p.rom =
        .ok (c, (p.cheats.install c p.rom).1.record r.code c, (p.cheats.install c p.rom).2) := by
      rw [add, h]
    rw [hadd]
    refine ⟨rfl, ?_, ?_⟩
    · exact congrArg (·.push (r.code, c)) (active_install p.cheats c p.rom)
    · exact congrArg (Patched.mk {}) (restore_install p.cheats c p.rom)
  · rw [h]
    exact ⟨rfl, rfl, rfl⟩

/-- Any other request is refused, and changes nothing. -/
theorem request_refused (p : Patched) {r : Request} {x : Error}
    (h : Cheat.parse r.code = .error x) : p.request r = (p, .error x) := by
  unfold request
  split
  · rw [add, h]
  · rw [h]

theorem cleared_request (p : Patched) (r : Request) : (p.request r).1.cleared = p.cleared := by
  cases h : Cheat.parse r.code with
  | ok c => exact (p.request_granted h).2.2
  | error x => rw [p.request_refused h]

theorem cleared_after (p : Patched) (rs : List Request) : (p.after rs).cleared = p.cleared := by
  induction rs generalizing p with
  | nil => rfl
  | cons r rs ih => exact (ih (p.request r).1).trans (p.cleared_request r)

theorem codes_request (p : Patched) (r : Request) :
    (p.request r).1.cheats.codes =
      p.cheats.codes ++ [r.code].filter fun code => (Cheat.parse code).isOk := by
  cases h : Cheat.parse r.code with
  | ok c => simp [codes, (p.request_granted h).2.1, h, Except.isOk, Except.toBool]
  | error x => simp [p.request_refused h, h, Except.isOk, Except.toBool]

theorem codes_after (p : Patched) (rs : List Request) :
    (p.after rs).cheats.codes =
      p.cheats.codes ++ (rs.map Request.code).filter fun code => (Cheat.parse code).isOk := by
  induction rs generalizing p with
  | nil => simp [after]
  | cons r rs ih =>
      refine (ih (p.request r).1).trans ?_
      rw [codes_request, List.append_assoc, ← List.filter_append, List.map_cons,
        List.singleton_append]

end Patched

/-- **Cheats are undone completely.**  After any requests, granted or refused, with the image or
without it, clearing gives the image as it was before the first of them and leaves no cheat; until
then the codes in force are those that can be read.  A request that is refused changes neither the
image nor the codes nor what is remembered. -/
theorem undone :
    (∀ rom rs, ((Patched.mk {} rom).after rs).cleared = Patched.mk {} rom ∧
      ((Patched.mk {} rom).after rs).cheats.codes =
        (rs.map Request.code).filter fun code => (Cheat.parse code).isOk) ∧
    ∀ (p : Patched) r, (∃ c, Cheat.parse r.code = .ok c ∧ (p.request r).2 = .ok c) ∨
      ∃ x, Cheat.parse r.code = .error x ∧ p.request r = (p, .error x) := by
  refine ⟨fun rom rs => ⟨Patched.cleared_after _ rs, Patched.codes_after _ rs⟩, fun p r => ?_⟩
  cases h : Cheat.parse r.code with
  | ok c => exact .inl ⟨c, rfl, (p.request_granted h).1⟩
  | error x => exact .inr ⟨x, rfl, p.request_refused h⟩

end Cheats

/-! ### Machines -/

namespace Machine

open Cheats (Patched)

/-- A machine has the cheats, and in its cartridge the image that they are for. -/
def Bears (c : Cartridge) (m : Machine) (p : Patched) : Prop :=
  m.board.memory.cartridge = some { c with rom := p.rom } ∧ m.cheats = p.cheats

theorem Bears.addCheat {c : Cartridge} {m : Machine} {p : Patched} (h : Bears c m p)
    (code : String) : Bears c (m.addCheat code).1 (p.request ⟨code, true⟩).1 := by
  unfold Machine.addCheat Patched.request
  rw [h.1, h.2, if_pos rfl]
  dsimp only
  cases p.cheats.add code p.rom with
  | error x => exact h
  | ok s => exact ⟨rfl, rfl⟩

theorem Bears.clearCheats {c : Cartridge} {m : Machine} {p : Patched} (h : Bears c m p) :
    Bears c m.clearCheats p.cleared := by
  unfold Machine.clearCheats
  rw [h.1, h.2]
  exact ⟨rfl, rfl⟩

/-- A machine that had no cheats has its cartridge back when the codes that were added are
cleared. -/
theorem clearCheats_added {c : Cartridge} {m : Machine}
    (hcart : m.board.memory.cartridge = some c) (hnone : m.cheats = {}) (codes : List String) :
    let cleared := (codes.foldl (fun m code => (m.addCheat code).1) m).clearCheats
    cleared.board.memory.cartridge = some c ∧ cleared.cheats = {} := by
  have hrun (p : Patched) (m : Machine) (h : Bears c m p) :
      Bears c (codes.foldl (fun m code => (m.addCheat code).1) m).clearCheats p.cleared := by
    induction codes generalizing m p with
    | nil => exact h.clearCheats
    | cons code codes ih =>
        have hnext := ih _ _ (h.addCheat code)
        rwa [p.cleared_request] at hnext
  exact hrun ⟨{}, c.rom⟩ m ⟨hcart, hnone⟩

end Machine

end MasterSystem
