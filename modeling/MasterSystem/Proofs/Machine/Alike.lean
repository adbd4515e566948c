import MasterSystem.Proofs.Machine.Clock
import MasterSystem.Proofs.Machine.Geometry
import MasterSystem.Proofs.Video.Remains

/-! # Machines that differ in their pictures

No program can read a picture, so two boards that are alike but for the pictures stay alike under
everything that a machine does.

* **Boards.**  `withPictures` commutes with the bus; `Mainboard.Parted` is therefore a simulation
  (`Parted.simulation`).
* **Frames.**  Processors on such boards run the same frame (`runToBlank_alike`), and the record of
  what remains of the older picture grows by the lines of the frame.
* **Machines.**  `Alike` machines give a host the same results and the same samples call by call,
  and the same pictures as long as the same field is shown (`Alike.call`). -/

namespace MasterSystem

open Video (Vdp Frame)
open Video.Vdp (LineStart Remains)
open Z80 (Processor)

/-! ### Boards -/

namespace Mainboard

/-- The board with other pictures. -/
def withPictures (b : Mainboard) (s d : Frame) : Mainboard :=
  { b with vdp := b.vdp.withPictures s d }

section

variable (b : Mainboard) (s d : Frame)

theorem write_withPictures (a : UInt16) (v : UInt8) :
    (b.withPictures s d).write a v = (b.write a v).withPictures s d := by
  unfold write
  dsimp only
  split <;> rfl

theorem input_withPictures (port : UInt8) :
    (b.withPictures s d).input port = ((b.input port).1, (b.input port).2.withPictures s d) := by
  have hgear : (b.withPictures s d).isGearPort port = b.isGearPort port := rfl
  have hfm : (b.withPictures s d).isFmPort port = b.isFmPort port := rfl
  unfold input
  rw [hgear, hfm]
  split
  · rfl
  · split
    · rfl
    · unfold readPort
      dsimp only
      repeat' split
      all_goals rfl

theorem collectVideo_withPictures :
    (b.withPictures s d).collectVideo = b.collectVideo.withPictures s d := by
  have hnotes : (b.withPictures s d).vdp.notes = b.vdp.notes := rfl
  unfold collectVideo
  rw [hnotes]
  split <;> rfl

theorem collectSound_withPictures :
    (b.withPictures s d).collectSound = b.collectSound.withPictures s d := by
  have hsound : (b.withPictures s d).sound = b.sound := rfl
  unfold collectSound
  rw [hsound]
  split <;> rfl

theorem writePort_withPictures (port v : UInt8) :
    (b.withPictures s d).writePort port v = (b.writePort port v).withPictures s d := by
  unfold writePort
  dsimp only
  split
  · have hunmaps : (b.withPictures s d).memory.unmapsBootRom v = b.memory.unmapsBootRom v := rfl
    unfold writeMemoryControl
    rw [hunmaps]
    split <;> rfl
  · split
    · have hraises : (b.withPictures s d).controls.raisesPin v = b.controls.raisesPin v := rfl
      unfold writePins
      rw [hraises]
      split <;> rfl
    · split
      · have hsound : (b.withPictures s d).sound = b.sound := rfl
        have hcycle : (b.withPictures s d).cycle = b.cycle := rfl
        unfold writePsg
        rw [hsound, hcycle]
        generalize b.sound.writePsg b.cycle v = m
        exact collectSound_withPictures { b with sound := m } s d
      · split
        · have hdata := Vdp.writeData_withPictures b.vdp s d v
          show { b with vdp := (b.vdp.withPictures s d).writeData v } = _
          rw [hdata]
          rfl
        · split
          · have hcontrol := Vdp.writeControl_withPictures b.vdp s d v
            show ({ b with vdp := (b.vdp.withPictures s d).writeControl v } :
              Mainboard).collectVideo = _
            rw [hcontrol]
            exact collectVideo_withPictures { b with vdp := b.vdp.writeControl v } s d
          · rfl

theorem output_withPictures (port v : UInt8) :
    (b.withPictures s d).output port v = (b.output port v).withPictures s d := by
  have hgear : (b.withPictures s d).isGearPort port = b.isGearPort port := rfl
  have hfm : (b.withPictures s d).isFmPort port = b.isFmPort port := rfl
  have hsound : (b.withPictures s d).sound = b.sound := rfl
  have hcycle : (b.withPictures s d).cycle = b.cycle := rfl
  unfold output
  rw [hgear, hfm]
  split
  · split
    · unfold writeStereo
      rw [hsound, hcycle]
      generalize b.sound.writeStereo b.cycle v = m
      exact collectSound_withPictures { b with sound := m } s d
    · rfl
  · split
    · unfold writeFmPort
      dsimp only
      rw [hsound, hcycle]
      generalize (if port == mixPort then b.sound.writeControl b.cycle v
        else b.sound.writeFm b.cycle port v) = m
      exact collectSound_withPictures { b with sound := m } s d
    · exact writePort_withPictures b s d port v

end

/-- Two boards that are alike but for their pictures. -/
structure Parted (old : Frame) (log : List LineStart) (b c : Mainboard) : Prop where
  same : c = b.withPictures c.vdp.scratch c.vdp.display
  remains : Remains old log b.vdp.scratch b.vdp.display c.vdp.scratch c.vdp.display

variable {old : Frame} {log : List LineStart} {b c : Mainboard}

theorem Parted.vdp (h : Parted old log b c) : Vdp.Parted old log b.vdp c.vdp :=
  ⟨congrArg Mainboard.vdp h.same, h.remains⟩

/-- What leaves the pictures alone. -/
theorem Parted.access (h : Parted old log b c) {g : Mainboard → Mainboard}
    (hg : ∀ b s d, g (withPictures b s d) = (g b).withPictures s d) :
    Parted old log (g b) (g c) := by
  have hpictures (e : Mainboard) :
      (g e).vdp.scratch = e.vdp.scratch ∧ (g e).vdp.display = e.vdp.display := by
    have hs := congrArg (fun k => k.vdp.scratch) (hg e e.vdp.scratch e.vdp.display)
    have hd := congrArg (fun k => k.vdp.display) (hg e e.vdp.scratch e.vdp.display)
    exact ⟨hs, hd⟩
  obtain ⟨hbs, hbd⟩ := hpictures b
  obtain ⟨hcs, hcd⟩ := hpictures c
  refine ⟨?_, ?_⟩
  · rw [hcs, hcd, ← hg, ← h.same]
  · rw [hbs, hbd, hcs, hcd]
    exact h.remains

/-- The bus cannot tell them apart. -/
theorem Parted.simulation : Z80.Bus.Simulation (Parted old log) where
  read {b c} h a := by
    rw [h.same]
    rfl
  write {b c} h a v := h.access (g := fun e => e.write a v)
    fun e s d => write_withPictures e s d a v
  input {b c} h p := by
    refine ⟨?_, h.access (g := fun e => (e.input (Word.low p)).2) fun e s d => ?_⟩
    · have hinput := input_withPictures b c.vdp.scratch c.vdp.display (Word.low p)
      rw [← h.same] at hinput
      exact (congrArg Prod.fst hinput).symm
    · exact congrArg Prod.snd (input_withPictures e s d (Word.low p))
  output {b c} h p v := h.access (g := fun e => e.output (Word.low p) v)
    fun e s d => output_withPictures e s d (Word.low p) v
  vector h := ⟨rfl, h⟩

/-- Two boards that are alike but for their pictures, and for the clock at which the last
instruction started. -/
def Apart (old : Frame) (log : List LineStart) (b c : Mainboard) : Prop :=
  ∀ cycle, Parted old log { b with cycle := cycle } { c with cycle := cycle }

theorem Parted.apart (h : Parted old log b c) : Apart old log b c :=
  fun cycle => h.access (g := fun e => { e with cycle := cycle }) fun _ _ _ => rfl

theorem Apart.access (h : Apart old log b c) {g : Mainboard → Mainboard}
    (hg : ∀ b s d, g (withPictures b s d) = (g b).withPictures s d)
    (hcycle : ∀ b cycle, g { b with cycle := cycle } = { g b with cycle := cycle }) :
    Apart old log (g b) (g c) := by
  intro cycle
  rw [← hcycle, ← hcycle]
  exact (h cycle).access hg

/-- Time passes for both boards alike. -/
theorem Parted.advance (h : Parted old log b c) (cycles : Nat) :
    (c.vdp.advance cycles).1 = (b.vdp.advance cycles).1 ∧
      Parted old (log ++ b.vdp.starts cycles)
        { b with vdp := (b.vdp.advance cycles).2.quiet, notes := #[] }
        { c with vdp := (c.vdp.advance cycles).2.quiet, notes := #[] } := by
  obtain ⟨hblank, hvdp⟩ := h.vdp.advance cycles
  have hquiet := hvdp.port (g := Vdp.quiet) fun _ _ _ => rfl
  refine ⟨hblank, ?_, hquiet.remains⟩
  have hboard : { c with vdp := (c.vdp.advance cycles).2.quiet, notes := #[] } =
      { b with vdp := (c.vdp.advance cycles).2.quiet, notes := #[] } := by
    rw [h.same]
    rfl
  rw [hboard]
  exact congrArg (fun v => { b with vdp := v, notes := #[] }) hquiet.same

end Mainboard

/-! ### Frames -/

namespace Machine

open Mainboard (Parted Apart)

variable {old : Frame} {log : List LineStart}

/-- Processors on such boards agree when their notes are collected. -/
theorem collect_alike {z w : Processor Mainboard} (h : Processor.Agree (Parted old log) z w) :
    Processor.Agree (Apart old log) (collect z) (collect w) := by
  refine ⟨?_, ?_, ?_⟩
  · rw [collect_regs, collect_regs, h.regs]
  · rw [collect_strict, collect_strict, h.strict]
  · rw [collect_bus, collect_bus]
    exact (h.bus.access (g := fun e => { e with notes := #[] }) fun _ _ _ => rfl).apart

theorem follow_alike {z w : Processor Mainboard} (h : Processor.Agree (Parted old log) z w)
    (cycles : Nat) : (follow w cycles).1 = (follow z cycles).1 ∧
      Processor.Agree (Apart old (log ++ z.bus.vdp.starts cycles)) (follow z cycles).2
        (follow w cycles).2 := by
  obtain ⟨hblank, hbus⟩ := h.bus.advance cycles
  rw [← follow_bus, ← follow_bus] at hbus
  refine ⟨hblank, ?_, ?_, hbus.apart⟩
  · rw [follow_regs, follow_regs, hbus.vdp.irq, h.regs]
  · rw [follow_strict, follow_strict, h.strict]

/-- Processors on boards that are alike run the same frame. -/
theorem runToBlank_alike : ∀ (n cycle : Nat) {log : List LineStart} {z w : Processor Mainboard},
    Processor.Agree (Apart old log) z w →
    (runToBlank n cycle w).1 = (runToBlank n cycle z).1 ∧
      (runToBlank n cycle w).2.1 = (runToBlank n cycle z).2.1 ∧
      Processor.Agree (Apart old (log ++ lines (beatsFrom n cycle z))) (runToBlank n cycle z).2.2
        (runToBlank n cycle w).2.2
  | 0, cycle, log, z, w, h => by
      show none = none ∧ cycle = cycle ∧ Processor.Agree (Apart old (log ++ [])) z w
      rw [List.append_nil]
      exact ⟨rfl, rfl, h⟩
  | n + 1, cycle, log, z, w, h => by
      have hready : Processor.Agree (Parted old log) { z with bus := { z.bus with cycle := cycle } }
          { w with bus := { w.bus with cycle := cycle } } := ⟨h.regs, h.strict, h.bus cycle⟩
      obtain ⟨hresult, hstep⟩ := hready.step Parted.simulation
      unfold runToBlank beatsFrom
      generalize Processor.step { z with bus := { z.bus with cycle := cycle } } = o
        at hresult hstep ⊢
      generalize Processor.step { w with bus := { w.bus with cycle := cycle } } = p
        at hresult hstep ⊢
      obtain ⟨z₁, r⟩ := o
      obtain ⟨w₁, r'⟩ := p
      obtain rfl : r = r' := hresult
      cases r with
      | error x =>
          show some x = some x ∧ cycle = cycle ∧
            Processor.Agree (Apart old (log ++ [])) (collect z₁) (collect w₁)
          rw [List.append_nil]
          exact ⟨rfl, rfl, collect_alike hstep⟩
      | ok c =>
          obtain ⟨hblank, hfollow⟩ := follow_alike hstep c
          dsimp only
          generalize follow z₁ c = f at hblank hfollow ⊢
          generalize follow w₁ c = g at hblank hfollow ⊢
          obtain ⟨blank, z₂⟩ := f
          obtain ⟨blank', w₂⟩ := g
          obtain rfl : blank' = blank := hblank
          cases blank' with
          | true =>
              dsimp only
              rw [lines_cons]
              show none = none ∧ _ ∧ Processor.Agree (Apart old (log ++ (_ ++ []))) z₂ w₂
              rw [List.append_nil]
              exact ⟨rfl, rfl, hfollow⟩
          | false =>
              have hrest := runToBlank_alike n (cycle + c) hfollow
              dsimp only
              rw [lines_cons, ← List.append_assoc]
              exact hrest

/-! ### Machines -/

/-- Two machines that are alike but for their pictures and their notes. -/
structure Alike (old : Frame) (log : List LineStart) (m m' : Machine) : Prop where
  cpu : Processor.Agree (Apart old log) m.cpu m'.cpu
  settings : m'.settings = m.settings
  cheats : m'.cheats = m.cheats
  paused : m'.paused = m.paused
  frameCount : m'.frameCount = m.frameCount
  frameCycle : m'.frameCycle = m.frameCycle

theorem closed_withPictures (cheats : Cheats) (cycle : Nat) (b : Mainboard) (s d : Frame) :
    closed cheats cycle (b.withPictures s d) = (closed cheats cycle b).withPictures s d := by
  have hrest : (b.withPictures s d).vdp.lineCycles = b.vdp.lineCycles := rfl
  have hsound : (b.withPictures s d).sound = b.sound := rfl
  unfold closed
  rw [hrest, hsound]
  rfl

theorem closed_cycle (cheats : Cheats) (cycle : Nat) (b : Mainboard) (n : Nat) :
    closed cheats cycle { b with cycle := n } = { closed cheats cycle b with cycle := n } := by
  unfold closed
  dsimp only

variable {m m' : Machine}

theorem Alike.vdp (h : Alike old log m m') : Vdp.Parted old log m.board.vdp m'.board.vdp :=
  (h.cpu.bus 0).vdp

/-- What a host does to the board, if it leaves the pictures alone. -/
theorem Alike.mapBoard (h : Alike old log m m') {g : Mainboard → Mainboard}
    (hg : ∀ b s d, g (Mainboard.withPictures b s d) = (g b).withPictures s d)
    (hcycle : ∀ b cycle, g { b with cycle := cycle } = { g b with cycle := cycle }) :
    Alike old log (m.mapBoard g) (m'.mapBoard g) :=
  ⟨⟨h.cpu.regs, h.cpu.strict, h.cpu.bus.access hg hcycle⟩, h.settings, h.cheats, h.paused,
    h.frameCount, h.frameCycle⟩

theorem closeFrame_strict (m : Machine) (cycle : Nat) :
    (m.closeFrame cycle).cpu.strict = m.cpu.strict := by
  unfold Machine.closeFrame
  dsimp only
  rw [collect_strict]

theorem Alike.closeFrame (h : Alike old log m m') (cycle : Nat) :
    Alike old log (m.closeFrame cycle) (m'.closeFrame cycle) := by
  obtain ⟨-, -, hregs, hcycle, hcount⟩ := closeFrame_spec m cycle
  obtain ⟨-, -, hregs', hcycle', hcount'⟩ := closeFrame_spec m' cycle
  obtain ⟨hsettings, hcheats, hpaused⟩ := closeFrame_host m cycle
  obtain ⟨hsettings', hcheats', hpaused'⟩ := closeFrame_host m' cycle
  refine ⟨⟨?_, ?_, ?_⟩, ?_, ?_, ?_, ?_, ?_⟩
  · rw [hregs, hregs', h.cpu.regs]
  · rw [closeFrame_strict, closeFrame_strict, h.cpu.strict]
  · show Apart old log (m.closeFrame cycle).board (m'.closeFrame cycle).board
    rw [closeFrame_board, closeFrame_board, h.cheats]
    exact h.cpu.bus.access (closed_withPictures m.cheats cycle) (closed_cycle m.cheats cycle)
  · rw [hsettings, hsettings', h.settings]
  · rw [hcheats, hcheats', h.cheats]
  · rw [hpaused, hpaused', h.paused]
  · rw [hcount, hcount', h.frameCount]
  · rw [hcycle, hcycle', h.vdp.lineCycles]

/-- Machines that are alike run the same field. -/
theorem Alike.runField (h : Alike old log m m') :
    m'.runField.2 = m.runField.2 ∧
      Alike old (log ++ lines m.beats) m.runField.1 m'.runField.1 := by
  obtain ⟨hfault, hclock, hcpu⟩ := runToBlank_alike stepLimit m.frameCycle h.cpu
  have hrun : runToBlank stepLimit m'.frameCycle m'.cpu =
      runToBlank stepLimit m.frameCycle m'.cpu := by
    rw [h.frameCycle]
  unfold Machine.runField beats
  rw [hrun]
  generalize runToBlank stepLimit m.frameCycle m.cpu = o at hfault hclock hcpu ⊢
  generalize runToBlank stepLimit m.frameCycle m'.cpu = p at hfault hclock hcpu ⊢
  obtain ⟨fault, cycle, z⟩ := o
  obtain ⟨fault', cycle', w⟩ := p
  obtain rfl : fault' = fault := hfault
  obtain rfl : cycle' = cycle := hclock
  have halike : Alike old (log ++ lines (beatsFrom stepLimit m.frameCycle m.cpu))
      { m with cpu := z } { m' with cpu := w } :=
    ⟨hcpu, h.settings, h.cheats, h.paused, h.frameCount, h.frameCycle⟩
  cases fault' with
  | some x => exact ⟨rfl, halike⟩
  | none => exact ⟨rfl, halike.closeFrame cycle'⟩

/-! ### What a host gets -/

theorem picture_size {v w : Vdp} (h : Vdp.Parted old log v w) (s : Settings) :
    (Picture.frame w s).pixels.size = (Picture.frame v s).pixels.size := by
  have hmodel : w.model = v.model := by
    rw [h.same]
    rfl
  have htiming : w.timing = v.timing := by
    rw [h.same]
    rfl
  have hsize : Picture.size w s = Picture.size v s := by
    unfold Picture.size Picture.width Picture.height
    rw [hmodel, htiming, h.remains.width, h.remains.height]
  rw [Picture.frame_pixels_size, Picture.frame_pixels_size, hsize]

/-- A picture shown alike is the same for the host. -/
theorem picture_eq {v w : Vdp} (h : Vdp.Parted old log v w) (hd : w.display = v.display)
    (s : Settings) : Picture.frame w s = Picture.frame v s := by
  rw [h.same, hd]
  rfl

/-- Whether a picture can be written does not depend on what it shows. -/
theorem Alike.writePicture (h : Alike old log m m') (dst : Array UInt8) :
    (m'.writePicture dst).map (fun _ => ()) = (m.writePicture dst).map fun _ => () := by
  have hsize := picture_size h.vdp m.settings
  unfold Machine.writePicture outputFrame Frame.writeTo
  rw [h.settings]
  dsimp only
  rw [hsize]
  by_cases hsmall : dst.size < (Picture.frame m.board.vdp m.settings).pixels.size *
      m.settings.pixelFormat.bytesPerPixel
  · simp only [if_pos hsmall]
  · simp only [if_neg hsmall]
    rfl

theorem Alike.writePicture_eq (h : Alike old log m m')
    (hd : m'.board.vdp.display = m.board.vdp.display) (dst : Array UInt8) :
    m'.writePicture dst = m.writePicture dst := by
  have hpicture := picture_eq h.vdp hd m.settings
  unfold Machine.writePicture outputFrame
  rw [h.settings, hpicture]

/-- The same, whether the host gave memory for the picture or not. -/
theorem Alike.writePictures (h : Alike old log m m') (video : Option (Array UInt8)) :
    (video.mapM m'.writePicture).map (fun _ => ()) =
      (video.mapM m.writePicture).map fun _ => () := by
  cases video with
  | none => rfl
  | some dst =>
      have hdst := h.writePicture dst
      show ((m'.writePicture dst).map some).map _ = ((m.writePicture dst).map some).map _
      generalize m'.writePicture dst = x' at hdst ⊢
      generalize m.writePicture dst = x at hdst ⊢
      cases x <;> cases x' <;> exact hdst

theorem Alike.writePictures_eq (h : Alike old log m m')
    (hd : m'.board.vdp.display = m.board.vdp.display) (video : Option (Array UInt8)) :
    video.mapM m'.writePicture = video.mapM m.writePicture := by
  cases video with
  | none => rfl
  | some dst =>
      show (m'.writePicture dst).map some = (m.writePicture dst).map some
      rw [h.writePicture_eq hd]

theorem Alike.takeSamples (h : Alike old log m m') (audio : Option Nat) :
    (m'.takeSamples audio).1 = (m.takeSamples audio).1 ∧
      Alike old log (m.takeSamples audio).2 (m'.takeSamples audio).2 := by
  have hsound : m'.board.sound = m.board.sound := by
    have hboard := congrArg Mainboard.sound (h.cpu.bus 0).same
    exact hboard
  unfold Machine.takeSamples
  cases audio with
  | some n =>
      dsimp only
      rw [hsound]
      generalize m.board.sound.readSamples n = p
      exact ⟨rfl, h.mapBoard (g := fun b => { b with sound := p.2 }) (fun _ _ _ => rfl)
        fun _ _ => rfl⟩
  | none =>
      exact ⟨rfl, h.mapBoard (g := fun b => { b with sound := b.sound.discard }) (fun _ _ _ => rfl)
        fun _ _ => rfl⟩

/-! ### Calls -/

/-- What a host can do with a machine that runs. -/
inductive Call where
  | run (video : Option (Array UInt8)) (audio : Option Nat)
  | press (player : Nat) (k : Key)
  | release (player : Nat) (k : Key)
  | setPhaser (p : Option Phaser)

/-- The machine after a call, and what the host gets. -/
def call (m : Machine) : Call → Machine × Except Error Output
  | .run video audio => m.run video audio
  | .press player k => (m.press player k, .ok {})
  | .release player k => (m.release player k, .ok {})
  | .setPhaser p => (m.setPhaser p, .ok {})

/-- The lines that start during a call. -/
def started (m : Machine) : Call → List LineStart
  | .run _ _ =>
    if m.board.memory.cartridge.isNone then [] else if m.paused then [] else lines m.beats
  | _ => []

/-- The machine after some calls. -/
def after (m : Machine) (cs : List Call) : Machine := cs.foldl (fun m c => (m.call c).1) m

/-- The lines that start during some calls. -/
def record : Machine → List Call → List LineStart
  | _, [] => []
  | m, c :: cs => m.started c ++ record (m.call c).1 cs

theorem record_snoc (m : Machine) (cs : List Call) (c : Call) :
    m.record (cs ++ [c]) = m.record cs ++ (m.after cs).started c := by
  induction cs generalizing m with
  | nil =>
      show m.started c ++ [] = [] ++ m.started c
      rw [List.append_nil, List.nil_append]
  | cons d cs ih =>
      rw [List.cons_append, record, record, ih, List.append_assoc]
      rfl

/-- How the replies of machines that are alike compare, with the machines after the call: the
samples and the faults are the same, and everything is if the machines show the same. -/
structure Matches (x y : Machine × Except Error Output) : Prop where
  samples : y.2.map Output.samples = x.2.map Output.samples
  video : y.1.board.vdp.display = x.1.board.vdp.display → y.2 = x.2

/-- What `run` gives the host after the field. -/
def deliver (m : Machine) (video : Option (Array UInt8)) (audio : Option Nat) :
    Machine × Except Error Output :=
  match video.mapM m.writePicture with
  | .error x => (m, .error x)
  | .ok video =>
    let (samples, m) := m.takeSamples audio
    (m, .ok { video := video, samples := samples })

theorem run_deliver (m : Machine) (video : Option (Array UInt8)) (audio : Option Nat) :
    m.run video audio =
      if m.board.memory.cartridge.isNone then (m, .error .noCartridge)
      else if m.paused then (m, .ok { video := video })
      else
        match m.runField with
        | (m, .error x) => (m, .error x)
        | (m, .ok ()) => m.deliver video audio := rfl

theorem Alike.deliver (h : Alike old log m m') (video : Option (Array UInt8))
    (audio : Option Nat) :
    Matches (m.deliver video audio) (m'.deliver video audio) ∧
      Alike old log (m.deliver video audio).1 (m'.deliver video audio).1 := by
  have hwritten := h.writePictures video
  have hsame := fun hd => h.writePictures_eq hd video
  obtain ⟨hsamples, htaken⟩ := h.takeSamples audio
  have hshown (k : Machine) : (k.takeSamples audio).2.board.vdp = k.board.vdp := by
    cases audio <;> rfl
  have hshown₁ := hshown m
  have hshown₂ := hshown m'
  unfold Machine.deliver
  generalize video.mapM m'.writePicture = p' at hwritten hsame ⊢
  generalize video.mapM m.writePicture = p at hwritten hsame ⊢
  generalize m.takeSamples audio = t at hsamples htaken hshown₁ ⊢
  generalize m'.takeSamples audio = t' at hsamples htaken hshown₂ ⊢
  obtain ⟨samples, k⟩ := t
  obtain ⟨samples', k'⟩ := t'
  obtain rfl : samples' = samples := hsamples
  cases p with
  | error x =>
      cases p' with
      | error x' =>
          obtain rfl : x' = x := Except.error.inj hwritten
          exact ⟨⟨rfl, fun _ => rfl⟩, h⟩
      | ok _ => simp [Except.map] at hwritten
  | ok video =>
      cases p' with
      | error x' => simp [Except.map] at hwritten
      | ok video' =>
          refine ⟨⟨rfl, fun hd => ?_⟩, htaken⟩
          have hd : k'.board.vdp.display = k.board.vdp.display := hd
          rw [hshown₁, hshown₂] at hd
          obtain rfl : video' = video := Except.ok.inj (hsame hd)
          rfl

theorem Alike.run (h : Alike old log m m') (video : Option (Array UInt8)) (audio : Option Nat) :
    Matches (m.run video audio) (m'.run video audio) ∧
      Alike old (log ++ m.started (.run video audio)) (m.run video audio).1
        (m'.run video audio).1 := by
  have hmemory : m'.board.memory = m.board.memory := by
    have hboard := congrArg Mainboard.memory (h.cpu.bus 0).same
    exact hboard
  rw [run_deliver, run_deliver, hmemory, h.paused]
  unfold started
  by_cases hcart : m.board.memory.cartridge.isNone = true
  · rw [if_pos hcart, if_pos hcart, if_pos hcart, List.append_nil]
    exact ⟨⟨rfl, fun _ => rfl⟩, h⟩
  rw [if_neg hcart, if_neg hcart, if_neg hcart]
  by_cases hpaused : m.paused = true
  · rw [if_pos hpaused, if_pos hpaused, if_pos hpaused, List.append_nil]
    exact ⟨⟨rfl, fun _ => rfl⟩, h⟩
  rw [if_neg hpaused, if_neg hpaused, if_neg hpaused]
  obtain ⟨hresult, hfield⟩ := h.runField
  generalize m.runField = o at hresult hfield ⊢
  generalize m'.runField = o' at hresult hfield ⊢
  obtain ⟨x, r⟩ := o
  obtain ⟨y, r'⟩ := o'
  obtain rfl : r' = r := hresult
  cases r' with
  | error e => exact ⟨⟨rfl, fun _ => rfl⟩, hfield⟩
  | ok _ => exact hfield.deliver video audio

/-- **Machines that are alike stay alike**, whatever a host does with them. -/
theorem Alike.call (h : Alike old log m m') (c : Call) :
    Matches (m.call c) (m'.call c) ∧
      Alike old (log ++ m.started c) (m.call c).1 (m'.call c).1 := by
  have hcontrols : m'.board.controls = m.board.controls := by
    have hboard := congrArg Mainboard.controls (h.cpu.bus 0).same
    exact hboard
  have hconsole : m'.board.console = m.board.console := by
    have hboard := congrArg Mainboard.console (h.cpu.bus 0).same
    exact hboard
  cases c with
  | run video audio => exact h.run video audio
  | press player k =>
      refine ⟨⟨rfl, fun _ => rfl⟩, ?_⟩
      have hpressed := h.mapBoard
        (g := fun b => { b with controls := m.board.controls.press player k }) (fun _ _ _ => rfl)
        fun _ _ => rfl
      show Alike old (log ++ []) (m.press player k) (m'.press player k)
      rw [List.append_nil]
      unfold Machine.press
      rw [hcontrols, hconsole]
      dsimp only
      split
      · refine ⟨⟨?_, hpressed.cpu.strict, hpressed.cpu.bus⟩, hpressed.settings, hpressed.cheats,
          hpressed.paused, hpressed.frameCount, hpressed.frameCycle⟩
        exact congrArg (fun r : Z80.Registers => { r with nmiPending := true }) hpressed.cpu.regs
      · exact hpressed
  | release player k =>
      refine ⟨⟨rfl, fun _ => rfl⟩, ?_⟩
      show Alike old (log ++ []) (m.release player k) (m'.release player k)
      rw [List.append_nil]
      exact h.mapBoard (g := fun b => { b with controls := b.controls.release player k })
        (fun _ _ _ => rfl) fun _ _ => rfl
  | setPhaser p =>
      refine ⟨⟨rfl, fun _ => rfl⟩, ?_⟩
      show Alike old (log ++ []) (m.setPhaser p) (m'.setPhaser p)
      rw [List.append_nil]
      exact h.mapBoard (g := fun b =>
        { b with
          controls := { b.controls with phaser := p }
          vdp := b.vdp.setPhaserTarget (p.map Phaser.target) }) (fun _ _ _ => rfl) fun _ _ => rfl

theorem Alike.after (h : Alike old log m m') (cs : List Call) :
    Alike old (log ++ m.record cs) (m.after cs) (m'.after cs) := by
  induction cs generalizing log m m' with
  | nil =>
      rw [record, List.append_nil]
      exact h
  | cons c cs ih =>
      rw [record, ← List.append_assoc]
      exact ih (h.call c).2

end Machine

end MasterSystem
