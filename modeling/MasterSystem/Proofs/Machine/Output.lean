import MasterSystem.Proofs.Machine.Place
import MasterSystem.Proofs.Machine.Reached
import MasterSystem.Proofs.Sound.Settled

/-! # What a host takes from a machine

A host may watch a frame or not, and listen to it or not.  The machine goes on as it would without
being watched or heard, down to what its resamplers hold.

* **Sound.**  No instruction starts behind the clock at which its frame is closed, so that the
  output has settled between two frames (`runToBlank_playing`, `Reached.settled`).
* **Frames.**  To deliver a picture changes nothing, and to read all samples is to drop them
  (`deliver_served`).
* **Runs.**  Calls lead to the machine to which they would lead if no output was wanted
  (`output_unseen`).  A fault ends this: the clock of the frame starts anew after it, behind changes
  of level that are already in the output. -/

namespace MasterSystem

open Sound (Mixer)
open Video.Vdp (LineStart)
open Z80 (Processor)

namespace Machine

/-! ### The sound of a frame -/

/-- An instruction adds no change of level behind the clock at which it starts. -/
theorem step_playing {z w : Processor Mainboard} {r : Except Z80.Fault Nat} {cycle : Nat}
    (h : z.bus.sound.output.Playing cycle)
    (hs : Processor.step { z with bus := { z.bus with cycle := cycle } } = (w, r)) :
    w.bus.sound.output.Playing cycle := by
  have hclock := cycle_bus cycle
  have hbus : Z80.Bus.Invariant fun b : Mainboard =>
      b.cycle = cycle ∧ b.sound.output.Playing cycle := by
    refine ⟨?_, ?_, ?_, id⟩
    · intro b hb a v
      refine ⟨hclock.write hb.1 a v, ?_⟩
      show (b.write a v).sound.output.Playing cycle
      rw [(b.write_rest a v).2.1]
      exact hb.2
    · intro b hb p
      refine ⟨hclock.input hb.1 p, ?_⟩
      show (b.input (Word.low p)).2.sound.output.Playing cycle
      rw [(b.input_rest (Word.low p)).2.1]
      exact hb.2
    · intro b hb p v
      exact ⟨hclock.output hb.1 p v,
        (Mixer.playing_stable cycle).output hb.1 hb.2 (Word.low p) v⟩
  have hstep := Processor.step_invariant hbus
    (z := { z with bus := { z.bus with cycle := cycle } }) ⟨rfl, h⟩
  rw [hs] at hstep
  exact hstep.2

/-- A frame that reaches its vertical blank has no change behind the clock at which it is closed:
its last instruction started before the line that the beam is on. -/
theorem runToBlank_playing : ∀ (n cycle : Nat) (z : Processor Mainboard),
    z.bus.vdp.lineCycles < cyclesPerLine → z.bus.sound.output.Playing cycle →
    (lines (beatsFrom n cycle z)).any LineStart.blank = true →
    (runToBlank n cycle z).2.2.bus.sound.output.Playing
      ((runToBlank n cycle z).2.1 - (runToBlank n cycle z).2.2.bus.vdp.lineCycles)
  | 0, _, _, _, _, hblank => by simp [beatsFrom, lines] at hblank
  | n + 1, cycle, z, hrest, hplaying, hblank => by
      unfold beatsFrom runToBlank at *
      generalize hs : Processor.step { z with bus := { z.bus with cycle := cycle } } = o at *
      obtain ⟨w, x | c⟩ := o
      · simp [lines] at hblank
      · have hstep := step_playing hplaying hs
        have hstarts := follow_starts w c
        have hnext := follow_lineCycles w c
        have hsound : (follow w c).2.bus.sound = w.bus.sound := by rw [follow_bus]
        dsimp only at *
        generalize hf : follow w c = p at *
        obtain ⟨_ | _, u⟩ := p
        · have hu : u.bus.sound.output.Playing (cycle + c) := by
            rw [show u.bus.sound = w.bus.sound from hsound]
            exact hstep.mono (Nat.le_add_right cycle c)
          refine runToBlank_playing n (cycle + c) u ?_ hu ?_
          · rw [hnext]
            exact Nat.mod_lt _ (by decide)
          · rw [lines_cons, List.any_append] at hblank
            dsimp only at hblank
            rwa [← hstarts, Bool.false_or] at hblank
        · -- The step began on the line before, so that the line of the beam started after it did.
          obtain ⟨s, hends⟩ := closes_step hs hf hrest
          have hover : u.bus.vdp.lineCycles < c := hends.overrun _ rfl
          show u.bus.sound.output.Playing (cycle + c - u.bus.vdp.lineCycles)
          rw [show u.bus.sound = w.bus.sound from hsound]
          exact hstep.mono (by omega)

/-- The output of a machine has settled. -/
def Settled (m : Machine) : Prop := m.board.sound.output.Settled

variable {m : Machine}

theorem Settled.runField (h : m.Settled) (hrest : m.board.vdp.lineCycles < cyclesPerLine)
    (hsteps : m.runField.2 = .ok ()) (hblank : (lines m.beats).any LineStart.blank = true) :
    m.runField.1.Settled := by
  have hplaying := runToBlank_playing stepLimit m.frameCycle m.cpu hrest (h.playing _) hblank
  rw [(runField_ok hsteps).2]
  unfold Settled
  rw [closeFrame_board]
  exact Mixer.settled_quiet (Mixer.settled_endFrame hplaying (Nat.le_refl _))

theorem Settled.takeSamples (h : m.Settled) (audio : Option Nat) :
    (m.takeSamples audio).2.Settled := by
  cases audio with
  | none => exact Mixer.settled_discard h
  | some n => exact Mixer.settled_readSamples h n

theorem Settled.deliver (h : m.Settled) (video : Option (Array UInt8)) (audio : Option Nat) :
    (m.deliver video audio).1.Settled := by
  unfold Machine.deliver
  split
  · exact h
  · exact h.takeSamples audio

theorem Fresh.settled (h : Fresh m) : m.Settled := by
  induction h with
  | new s => exact Mixer.settled_new _ _ _ _
  | @bootRom m m' data _ hload ih =>
      unfold insertBootRom at hload
      split at hload
      · simp at hload
      · obtain rfl : _ = m' := congrArg Prod.fst hload
        dsimp only
        split
        · exact Mixer.settled_reset ih
        · exact ih
  | @insert m m' data o path _ hload ih =>
      unfold Machine.insert at hload
      dsimp only at hload
      split at hload
      · obtain rfl : _ = m' := congrArg Prod.fst hload
        exact Mixer.settled_new _ _ _ _
      · simp at hload
  | @cheat m m' code c _ hadd ih =>
      unfold addCheat at hadd
      split at hadd
      · simp at hadd
      · split at hadd
        · simp at hadd
        · obtain rfl : _ = m' := congrArg Prod.fst hadd
          exact ih

/-- **Between two frames the output has settled**, whatever the host has taken from it. -/
theorem Reached.settled (h : Reached m) : m.Settled := by
  induction h with
  | load hfresh _ => exact hfresh.settled
  | run hm hsteps hblank video audio ih =>
      rw [hm.run_eq hsteps]
      exact (ih.runField hm.ready.1.rest hsteps hblank).deliver video audio
  | @press m _ player k ih =>
      unfold Machine.press
      dsimp only
      split <;> exact ih
  | release _ player k ih => exact ih
  | setPhaser _ p ih => exact ih

/-! ### Delivery -/

/-- A frame reaches its vertical blank, and what the host gives holds its picture and all of its
samples. -/
structure Served (m : Machine) (video : Option (Array UInt8)) (audio : Option Nat) : Prop where
  steps : m.runField.2 = .ok ()
  blank : (lines m.beats).any LineStart.blank = true
  picture : ∀ dst ∈ video,
    m.runField.1.outputFrame.pixels.size * m.settings.pixelFormat.bytesPerPixel ≤ dst.size
  samples : ∀ places ∈ audio, 2 * m.runField.1.board.sound.samplesAvail ≤ places

/-- To read all samples is to drop them. -/
theorem Settled.takeSamples_eq (h : m.Settled) {audio : Option Nat}
    (haudio : ∀ places ∈ audio, 2 * m.board.sound.samplesAvail ≤ places) :
    (m.takeSamples audio).2 = (m.takeSamples none).2 := by
  cases audio with
  | none => rfl
  | some places =>
      obtain ⟨hdropped, -⟩ := Sound.Stereo.Settled.read_all h (haudio places rfl)
      show m.mapBoard (fun b => { b with sound := (m.board.sound.readSamples places).2 }) =
        m.mapBoard fun b => { b with sound := b.sound.discard }
      unfold Machine.mapBoard Mixer.readSamples Mixer.discard
      dsimp only
      rw [hdropped]
      rfl

/-- A picture that fits is written. -/
theorem writePicture_fits {dst : Array UInt8}
    (h : m.outputFrame.pixels.size * m.settings.pixelFormat.bytesPerPixel ≤ dst.size) :
    ∃ written, m.writePicture dst = .ok written := by
  unfold writePicture Video.Frame.writeTo
  dsimp only
  rw [if_neg (Nat.not_lt.2 h)]
  exact ⟨_, rfl⟩

/-- What a host is given leaves no trace in the machine. -/
theorem deliver_served (h : m.Settled) {video : Option (Array UInt8)} {audio : Option Nat}
    (hvideo : ∀ dst ∈ video,
      m.outputFrame.pixels.size * m.settings.pixelFormat.bytesPerPixel ≤ dst.size)
    (haudio : ∀ places ∈ audio, 2 * m.board.sound.samplesAvail ≤ places) :
    (m.deliver video audio).1 = (m.deliver none none).1 ∧
      (m.deliver video audio).2.map (fun _ => ()) = .ok () := by
  have hwritten : ∃ written, video.mapM m.writePicture = .ok written := by
    cases video with
    | none => exact ⟨none, rfl⟩
    | some dst =>
        obtain ⟨written, hwritten⟩ := writePicture_fits (hvideo dst rfl)
        refine ⟨some written, ?_⟩
        show (m.writePicture dst).map some = _
        rw [hwritten]
        rfl
  obtain ⟨written, hwritten⟩ := hwritten
  have htaken := h.takeSamples_eq haudio
  unfold Machine.deliver
  rw [hwritten]
  dsimp only
  rw [htaken]
  exact ⟨rfl, rfl⟩

theorem runField_settings (h : m.runField.2 = .ok ()) :
    m.runField.1.settings = m.settings := by
  rw [(runField_ok h).2]
  exact (closeFrame_host _ _).1

/-- A frame is the same for every host that it serves. -/
theorem Reached.run_served (h : Reached m) {video : Option (Array UInt8)} {audio : Option Nat}
    (hserved : m.Served video audio) :
    (m.run video audio).1 = (m.run none none).1 ∧
      (m.run video audio).2.map (fun _ => ()) = (m.run none none).2.map fun _ => () := by
  have hfield := h.settled.runField h.ready.1.rest hserved.steps hserved.blank
  have hpicture := hserved.picture
  rw [← runField_settings hserved.steps] at hpicture
  obtain ⟨hmachine, hreply⟩ := deliver_served hfield hpicture hserved.samples
  rw [h.run_eq hserved.steps, h.run_eq hserved.steps]
  exact ⟨hmachine, hreply⟩

/-- So is a frame that a fault ends. -/
theorem Reached.run_failed (h : Reached m) (hfault : m.runField.2 ≠ .ok ())
    (video : Option (Array UInt8)) (audio : Option Nat) :
    (m.run video audio).1 = (m.run none none).1 ∧
      (m.run video audio).2.map (fun _ => ()) = (m.run none none).2.map fun _ => () := by
  obtain ⟨hready, hcart⟩ := h.ready
  rw [run_deliver, run_deliver, Option.isNone_eq_false_iff.2 hcart, hready.paused,
    if_neg (by decide), if_neg (by decide), if_neg (by decide), if_neg (by decide)]
  generalize m.runField = o at hfault ⊢
  obtain ⟨k, x | ⟨⟩⟩ := o
  · exact ⟨rfl, rfl⟩
  · exact absurd rfl hfault

/-! ### Runs -/

/-- The call without any wish for output. -/
def Call.muted : Call → Call
  | .run _ _ => .run none none
  | c => c

/-- Calls of which every frame serves the host, but for a fault that ends them. -/
inductive Fulfilled : Machine → List Call → Prop where
  | nil {m : Machine} : Fulfilled m []
  | run {m : Machine} {cs : List Call} {video : Option (Array UInt8)} {audio : Option Nat} :
      m.Served video audio → Fulfilled (m.run video audio).1 cs →
      Fulfilled m (.run video audio :: cs)
  | fault {m : Machine} {video : Option (Array UInt8)} {audio : Option Nat} :
      m.runField.2 ≠ .ok () → Fulfilled m [.run video audio]
  | press {m : Machine} {cs : List Call} {player : Nat} {k : Key} :
      Fulfilled (m.press player k) cs → Fulfilled m (.press player k :: cs)
  | release {m : Machine} {cs : List Call} {player : Nat} {k : Key} :
      Fulfilled (m.release player k) cs → Fulfilled m (.release player k :: cs)
  | setPhaser {m : Machine} {cs : List Call} {p : Option Phaser} :
      Fulfilled (m.setPhaser p) cs → Fulfilled m (.setPhaser p :: cs)

/-- The first `n` calls lead to the machine to which they lead without output, and there the next
call succeeds or fails as it does without. -/
structure Unseen (m : Machine) (cs : List Call) (n : Nat) : Prop where
  machine : m.after (cs.take n) = m.after ((cs.take n).map Call.muted)
  reply : ∀ c, cs[n]? = some c →
    ((m.after (cs.take n)).call c).2.map (fun _ => ()) =
      ((m.after (cs.take n)).call c.muted).2.map fun _ => ()

/-- One call more, in front. -/
theorem Unseen.cons {c : Call} {cs : List Call} (hmachine : (m.call c).1 = (m.call c.muted).1)
    (hreply : (m.call c).2.map (fun _ => ()) = (m.call c.muted).2.map fun _ => ())
    (h : ∀ n, Unseen (m.call c).1 cs n) (n : Nat) : Unseen m (c :: cs) n := by
  cases n with
  | zero =>
      refine ⟨rfl, ?_⟩
      intro d hd
      obtain rfl : c = d := Option.some.inj hd
      exact hreply
  | succ n =>
      obtain ⟨hrest, hnext⟩ := h n
      refine ⟨?_, hnext⟩
      show (m.call c).1.after (cs.take n) = (m.call c.muted).1.after ((cs.take n).map Call.muted)
      rw [← hmachine]
      exact hrest

theorem Unseen.nil (m : Machine) (n : Nat) : Unseen m [] n :=
  ⟨by rw [List.take_nil]; rfl, by simp⟩

theorem Fulfilled.unseen {cs : List Call} (hcs : Fulfilled m cs) (h : Reached m) :
    ∀ n, Unseen m cs n := by
  induction hcs with
  | nil => exact Unseen.nil _
  | run hserved _ ih =>
      obtain ⟨hmachine, hreply⟩ := h.run_served hserved
      exact .cons hmachine hreply (ih (.run h hserved.steps hserved.blank _ _))
  | fault hfault =>
      obtain ⟨hmachine, hreply⟩ := h.run_failed hfault _ _
      exact .cons hmachine hreply (Unseen.nil _)
  | press _ ih => exact .cons rfl rfl (ih (.press h _ _))
  | release _ ih => exact .cons rfl rfl (ih (.release h _ _))
  | setPhaser _ ih => exact .cons rfl rfl (ih (.setPhaser h _))

/-- **A machine does not see its host.**  Calls of which every frame serves the host lead, one by
one, to the machine to which they lead when no output is wanted: two hosts that play alike have the
same machine after every frame, whatever they watch and hear.  At the end of a frame, reading all of
its samples and dropping them is one transition, which leaves none on either side. -/
theorem output_unseen {m : Machine} (h : Reached m) :
    (∀ cs, Fulfilled m cs → ∀ n, Unseen m cs n) ∧
    ∀ places, m.Served none (some places) →
      (m.runField.1.takeSamples (some places)).2 = (m.runField.1.takeSamples none).2 ∧
      (m.runField.1.takeSamples (some places)).1.size = 2 * m.runField.1.board.sound.samplesAvail ∧
      ∀ s, ((m.runField.1.takeSamples none).2.board.sound.output.side s).avail = 0 := by
  refine ⟨fun cs hcs => hcs.unseen h, ?_⟩
  intro places hserved
  have hfield := h.settled.runField h.ready.1.rest hserved.steps hserved.blank
  obtain ⟨-, hsize⟩ := Sound.Stereo.Settled.read_all hfield (hserved.samples places rfl)
  exact ⟨hfield.takeSamples_eq hserved.samples, hsize,
    Sound.Stereo.Settled.discard_avail hfield⟩

/-- A program that halts runs a field, which a host watches and hears in full. -/
theorem output_unseen_of_halt : ∃ (m₀ : Machine) (dst : Array UInt8) (places : Nat),
    (new {}).insert haltingImage
      { console := .master, zone := .exportNtsc, board := .romOnly } none = (m₀, .ok ()) ∧
    Reached m₀ ∧ Fulfilled m₀ [.run (some dst) (some places)] ∧
    (m₀.run (some dst) (some places)).1 = (m₀.run none none).1 ∧
    m₀.Served none (some places) ∧
    (m₀.runField.1.takeSamples (some places)).2 = (m₀.runField.1.takeSamples none).2 := by
  obtain ⟨c, m₀, hm₀, hrom, hboard, hbus, hregs, -⟩ := insert_haltingImage
  have hwaits := haltingImage_waits hrom hboard hregs {} hbus
  have hsync := Synchronous.load hm₀
  obtain ⟨hsteps, hticks, -⟩ := Waits.field hwaits (hsync.clock ▸ hsync.rest) hsync.line
  have hblank := any_blank hsteps hticks (hsync.clock ▸ hsync.rest)
  have hreached : Reached m₀ := .load (.insert (.new {}) hm₀) hsync.cartridge
  let dst : Array UInt8 := Array.replicate
    (m₀.runField.1.outputFrame.pixels.size * m₀.settings.pixelFormat.bytesPerPixel) 0
  let places := 2 * m₀.runField.1.board.sound.samplesAvail
  have hpicture : ∀ d ∈ some dst,
      m₀.runField.1.outputFrame.pixels.size * m₀.settings.pixelFormat.bytesPerPixel ≤ d.size := by
    rintro _ ⟨⟩
    exact Nat.le_of_eq Array.size_replicate.symm
  have hsamples : ∀ n ∈ some places, 2 * m₀.runField.1.board.sound.samplesAvail ≤ n := by
    rintro _ ⟨⟩
    exact Nat.le_refl _
  have hserved : m₀.Served (some dst) (some places) := ⟨hsteps, hblank, hpicture, hsamples⟩
  have hheard : m₀.Served none (some places) := ⟨hsteps, hblank, by simp, hsamples⟩
  have hcalls : Fulfilled m₀ [.run (some dst) (some places)] := .run hserved .nil
  obtain ⟨hruns, htaken⟩ := output_unseen hreached
  exact ⟨m₀, dst, places, hm₀, hreached, hcalls, (hruns _ hcalls 1).machine, hheard,
    (htaken places hheard).1⟩

end Machine

end MasterSystem
