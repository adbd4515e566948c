import MasterSystem.Proofs.Machine.FirstField

/-! # Replaying from a save state

The state of a machine that a host can reach, restored into a machine that was loaded in the same
way, gives a machine that is alike but for the picture being drawn, which no state holds
(`Reached.restore`).  From there on a host gets the same from both, call by call, except where a
field is shown with a row that was drawn before the state was saved (`replay`). -/

namespace MasterSystem

open Video (Vdp Frame)
open Video.Vdp (LineStart Remains Leaks)
open Snapshot (State)

/-! ### The restored board -/

theorem Video.Vdp.dot_new {x y : Nat} : dot (.new screenWidth maxHeight) x y = 0 := by
  unfold dot Frame.new
  rw [Video.getD_replicate]

/-- Before a line has started, one scratch picture is old and the other one black. -/
theorem Video.Vdp.Framed.remains {v : Vdp} (h : v.Framed) :
    Remains v.scratch [] v.scratch v.display (.new screenWidth maxHeight) v.display where
  size := h.scratch
  size' := Array.size_replicate
  drawn y _ hdrawn := absurd hdrawn (not_drawn_nil y)
  older _ _ _ _ _ := ⟨rfl, dot_new⟩
  width := rfl
  height := rfl
  shown := iff_of_true rfl (not_leaks_nil v.scratch)

namespace Mainboard

theorem eq_of_parts {b c : Mainboard} (hmemory : b.memory = c.memory) (hvdp : b.vdp = c.vdp)
    (hsound : b.sound = c.sound) (hcontrols : b.controls = c.controls) (hmake : b.make = c.make)
    (hcycle : b.cycle = c.cycle) (hnotes : b.notes = c.notes) : b = c := by
  unfold make at hmake
  simp only [Prod.mk.injEq] at hmake
  obtain ⟨hconsole, hjapan, hpal, -⟩ := hmake
  cases b
  cases c
  simp_all

variable {s : Settings} {b c : Mainboard}

/-- Boards that the same settings and the same cartridge make consist of the same. -/
theorem Wired.make_eq (hb : b.Wired s) (hc : c.Wired s)
    (hcart : c.memory.cartridge = b.memory.cartridge)
    (hboot : c.memory.bootRom = b.memory.bootRom) : c.make = b.make := by
  rw [hc.console, hb.console, hcart, hboot]

theorem Wired.admits (hb : b.Wired s) (hc : c.Wired s)
    (hcart : c.memory.cartridge = b.memory.cartridge)
    (hboot : c.memory.bootRom = b.memory.bootRom) {x : State} (hram : x.ram = b.memory.ram)
    (hmapper : x.mapper = b.memory.mapper) (hmodel : x.vdp.model = b.vdp.model)
    (hfm : x.sound.fmFitted = b.sound.fmFitted) (hdisplay : x.vdp.display = b.vdp.display) :
    c.Admits x := by
  have hconsole : c.console = b.console := congrArg Prod.fst (hb.make_eq hc hcart hboot)
  have hinfo : c.info = b.info := by
    unfold info
    rw [hcart]
  have hhost := congrArg Prod.fst hc.host
  have hhost' := congrArg Prod.fst hb.host
  refine ⟨?_, ?_, ?_, ?_, ?_, ?_⟩
  · rw [hram, hb.ram, hc.ram, hconsole]
  · rw [hmapper, hb.board, hc.board, hcart]
  · rw [hmapper, hb.cartridge, hc.cartridge, hcart]
  · rw [hmodel]
    refine hhost'.trans (Eq.trans ?_ hhost.symm)
    show videoModel b.console = videoModel c.console
    rw [hconsole]
  · rw [hfm, hb.fm, hc.fm, hconsole, hinfo]
  · have hshape := hb.framed.display
    unfold Vdp.displayConsistent at hshape ⊢
    rwa [hdisplay]

end Mainboard

namespace Machine

open Mainboard (Apart Parted)

variable {m f : Machine}

/-- Two machines hold the same: the settings, the cheats, the cartridge and the boot ROM. -/
structure Holds (m f : Machine) : Prop where
  settings : f.settings = m.settings
  cheats : f.cheats = m.cheats
  cartridge : f.board.memory.cartridge = m.board.memory.cartridge
  bootRom : f.board.memory.bootRom = m.board.memory.bootRom

/-- A frame leaves all of that as it is. -/
theorem Reached.holds_run (h : Reached m) (hsteps : m.runField.2 = .ok ())
    (video : Option (Array UInt8)) (audio : Option Nat) : Holds (m.run video audio).1 m := by
  obtain ⟨hready, hcart⟩ := h.ready
  have hmake := (run_make hcart hready.paused hsteps video audio).1
  obtain ⟨sound, hrun⟩ := Machine.run_eq hcart hready.paused hsteps video audio
  obtain ⟨hsettings, hcheats, -⟩ := closeFrame_host { m with cpu := m.atBlank }
    (runToBlank stepLimit m.frameCycle m.cpu).2.1
  rw [← (runField_ok hsteps).2] at hsettings hcheats
  refine ⟨?_, ?_, (congrArg (·.2.2.2.1) hmake).symm, (congrArg (·.2.2.2.2) hmake).symm⟩
  · rw [hrun]
    exact hsettings.symm
  · rw [hrun]
    exact hcheats.symm

/-- The video processor as it is restored: only the picture being drawn is missing. -/
theorem restore_vdp (hm : m.Ready) :
    ({ m.board.vdp.saved with glasses := m.settings.glasses } : Vdp).setPhaserTarget
        (m.board.controls.phaser.map Phaser.target) =
      m.board.vdp.withPictures (.new Video.screenWidth Video.maxHeight) m.board.vdp.display := by
  have hglasses : m.board.vdp.glasses = m.settings.glasses :=
    congrArg (fun p => p.2.1) hm.wired.host
  have haim : m.board.vdp.phaserTarget = m.board.controls.phaser.map Phaser.target :=
    congrArg (fun p => p.2.2) hm.wired.host
  have hlight : (if m.board.vdp.phaserTarget.isNone = true then false else false) =
      m.board.vdp.lightDetected := by
    rw [hm.light]
    split <;> rfl
  rw [← hglasses, ← haim]
  unfold Vdp.setPhaserTarget Vdp.saved Vdp.withPictures
  dsimp only
  rw [hlight, ← hm.wired.quiet.video]

theorem restoreBoard_saved (hm : m.Ready) (hf : f.Ready) (h : Holds m f) :
    restoreBoard f.board m.state.saved f.settings =
      { m.board.withPictures (.new Video.screenWidth Video.maxHeight) m.board.vdp.display with
        cycle := 0 } := by
  have hwired := hf.wired
  rw [h.settings] at hwired ⊢
  have hmake := hm.wired.make_eq hwired h.cartridge h.bootRom
  refine Mainboard.eq_of_parts ?_ (restore_vdp hm) ?_ ?_ hmake rfl (hf.notes.trans hm.notes.symm)
  · -- Only a boot ROM that is there can be mapped, so the check when restoring changes nothing.
    have hmapped : (m.board.memory.bootRomMapped && f.board.memory.bootRom.isSome) =
        m.board.memory.bootRomMapped := by
      have hboot := hm.wired.mapped
      rw [h.bootRom]
      cases hb : m.board.memory.bootRomMapped with
      | false => rfl
      | true => rw [hboot hb, Bool.and_true]
    show { f.board.memory with
      ram := m.board.memory.ram
      mapper := m.board.memory.mapper
      bootRomMapped := m.board.memory.bootRomMapped && f.board.memory.bootRom.isSome
      control := m.board.memory.control } = m.board.memory
    dsimp only
    rw [hmapped, h.cartridge, h.bootRom]
  · show m.board.sound.saved = m.board.sound
    unfold Sound.Mixer.saved
    rw [← hm.wired.quiet.sound]
  · show { m.board.controls.saved with allowOpposites := m.settings.allowOpposites } =
      m.board.controls
    rw [← hm.wired.opposites]
    rfl

/-- **A state is restored into any machine that holds the same**, and gives a machine that is alike
but for the picture being drawn. -/
theorem Ready.restore (hm : m.Ready) (hf : f.Ready) (h : Holds m f) {info : Info}
    (hinfo : m.cartridge = some info) (hfits : m.state.Fits) :
    (f.restore (Snapshot.encode info.crc m.state).toArray).2 = .ok () ∧
      Alike m.board.vdp.scratch [] m
        (f.restore (Snapshot.encode info.crc m.state).toArray).1 := by
  have hwired := hf.wired
  rw [h.settings] at hwired
  have hinfo' : f.cartridge = some info := by
    unfold cartridge Mainboard.info at hinfo ⊢
    rw [h.cartridge]
    exact hinfo
  have hadmits : f.board.Admits m.state.saved :=
    hm.wired.admits hwired h.cartridge h.bootRom rfl rfl rfl rfl rfl
  have hdecode := Snapshot.decode_encode info.crc hfits
  have hboard := restoreBoard_saved hm hf h
  unfold Machine.restore
  rw [hinfo']
  dsimp only
  rw [hdecode]
  dsimp only
  rw [corruption?_eq_none.2 hadmits]
  refine ⟨rfl, ⟨rfl, ?_, ?_⟩, h.settings, h.cheats, hm.paused.symm, rfl, rfl⟩
  · show m.cpu.strict = f.cpu.strict
    rw [hm.strict, hf.strict, h.settings]
  · show Apart _ [] m.board (restoreBoard f.board m.state.saved f.settings)
    rw [hboard]
    exact fun cycle => ⟨rfl, hm.wired.framed.remains⟩

/-- A reachable machine can be saved, and restored into one that was loaded with the same. -/
theorem Reached.restore (hm : Reached m) (hf : Fresh f) (h : Holds m f) (hfits : m.state.Fits) :
    ∃ bytes, m.save = .ok bytes ∧ (f.restore bytes).2 = .ok () ∧
      Alike m.board.vdp.scratch [] m (f.restore bytes).1 := by
  obtain ⟨hready, hcart⟩ := hm.ready
  obtain ⟨cartridge, hcart⟩ := Option.isSome_iff_exists.1 hcart
  have hinfo : m.cartridge = some cartridge.info := by
    unfold Machine.cartridge Mainboard.info
    rw [hcart]
    rfl
  obtain ⟨hok, halike⟩ := hready.restore hf.ready h hinfo hfits
  refine ⟨_, ?_, hok, halike⟩
  unfold save
  rw [hinfo]

/-- **A replay.**  The state of a machine that was loaded, has run and was played with can be saved,
and restored into a machine that was loaded with the same.  Whatever a host then does with the two,
it gets the same samples and faults from both, call by call.  They show the same picture exactly
when the last field shown since has no row that was drawn before the state was saved, and then the
host gets the same altogether. -/
theorem replay (hm : Reached m) (hf : Fresh f) (h : Holds m f) (hfits : m.state.Fits) :
    ∃ bytes, m.save = .ok bytes ∧ (f.restore bytes).2 = .ok () ∧
      ∀ (cs : List Call) (c : Call),
        let x := (m.after cs).call c
        let y := ((f.restore bytes).1.after cs).call c
        y.2.map Output.samples = x.2.map Output.samples ∧
        (y.1.board.vdp.display = x.1.board.vdp.display ↔
          ¬ Leaks m.board.vdp.scratch (m.record (cs ++ [c]))) ∧
        (¬ Leaks m.board.vdp.scratch (m.record (cs ++ [c])) → y.2 = x.2) := by
  obtain ⟨bytes, hsave, hrestore, halike⟩ := hm.restore hf h hfits
  refine ⟨bytes, hsave, hrestore, ?_⟩
  intro cs c
  obtain ⟨hmatches, hcall⟩ := (halike.after cs).call c
  have hshown := hcall.vdp.remains.shown
  rw [List.nil_append, ← record_snoc] at hshown
  exact ⟨hmatches.samples, hshown, fun hleaks => hmatches.video (hshown.2 hleaks)⟩

/-- A field is drawn and a player aims at the screen before the state is saved.  The field is black,
so that no row of it can be told from what the restored machine starts with. -/
theorem replay_of_aim : ∃ (m₀ m : Machine) (bytes : Array UInt8),
    (new { fm := false }).insert haltingImage
      { console := .master, zone := .exportNtsc, board := .romOnly } none = (m₀, .ok ()) ∧
    m = (m₀.run none (some 0)).1.setPhaser (some ⟨128, 96, false⟩) ∧ m.frameCount = 1 ∧
    m.save = .ok bytes ∧ (m₀.restore bytes).2 = .ok () ∧
    ∀ (cs : List Call) (c : Call),
      (((m₀.restore bytes).1.after cs).call c).2 = ((m.after cs).call c).2 := by
  obtain ⟨c, m₀, hm₀, hfresh, hloaded, hidle⟩ := idle_haltingImage
  obtain ⟨hsteps, hblank⟩ := hidle.field
  obtain ⟨hcount, hfits, hscratch⟩ := hidle.first_field hloaded
  have hrun : Reached (m₀.run none (some 0)).1 := .run hloaded hsteps hblank none (some 0)
  have hholds : Holds (m₀.run none (some 0)).1 m₀ := hloaded.holds_run hsteps none (some 0)
  refine ⟨m₀, (m₀.run none (some 0)).1.setPhaser (some ⟨128, 96, false⟩), ?_⟩
  generalize (m₀.run none (some 0)).1 = k at *
  have hvdp := hfits.vdp
  have haimed : (k.setPhaser (some ⟨128, 96, false⟩)).state.Fits := by
    refine ⟨hfits.ram, hfits.mapper, ?_, hfits.sound, ?_, hfits.frameCount, hfits.frameCycle⟩
    · exact ⟨hvdp.vram, hvdp.cram, hvdp.palette, hvdp.line, hvdp.lineCycles, hvdp.display⟩
    · intro p hp
      obtain rfl : _ = p := Option.some.inj hp
      exact ⟨by decide, by decide⟩
  obtain ⟨bytes, hsave, hrestore, hreplay⟩ := replay (hrun.setPhaser (some ⟨128, 96, false⟩)) hfresh
    ⟨hholds.settings, hholds.cheats, hholds.cartridge, hholds.bootRom⟩ haimed
  refine ⟨bytes, hm₀, rfl, hcount, hsave, hrestore, fun cs d => (hreplay cs d).2.2 ?_⟩
  rintro ⟨before, t, after, -, -, -, y, -, -, hblack⟩
  refine hblack fun x _ => ?_
  show Vdp.dot k.board.vdp.scratch x y = 0
  rw [hscratch]
  exact Vdp.dot_new

end Machine

end MasterSystem
