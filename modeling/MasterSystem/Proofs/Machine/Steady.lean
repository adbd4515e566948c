import MasterSystem.Proofs.Machine.Replay

/-! # Programs that keep the height of the picture

A program that leaves the height of the picture alone draws every field from the first row to the
last before it is shown.  Such a program is replayed exactly (`replay_steady`).

* **Frames.**  The beam of a chip passes every row (`Vdp.Whole`), whatever the processor does
  meanwhile (`runToBlank_whole`).
* **Calls.**  Nothing else that a host can do moves the beam (`whole_after`). -/

namespace MasterSystem

open Video (Vdp Frame)
open Video.Vdp (LineStart Whole)
open Z80 (Processor)

namespace Machine

variable {old : Frame} {height : Nat} {log : List LineStart}

/-! ### Frames -/

theorem runToBlank_whole : ∀ (n cycle : Nat) {log : List LineStart} {z : Processor Mainboard},
    Whole old height log z.bus.vdp →
    (∀ t ∈ lines (beatsFrom n cycle z), t.height = height) →
    Whole old height (log ++ lines (beatsFrom n cycle z)) (runToBlank n cycle z).2.2.bus.vdp
  | 0, cycle, log, z, h, _ => by
      show Whole old height (log ++ []) z.bus.vdp
      rw [List.append_nil]
      exact h
  | n + 1, cycle, log, z, h, hheight => by
      unfold beatsFrom at hheight
      unfold runToBlank beatsFrom
      generalize hs : Processor.step { z with bus := { z.bus with cycle := cycle } } = o
        at hheight ⊢
      obtain ⟨w, r⟩ := o
      have hstep := h.congr (step_timing hs) (step_line hs)
      cases r with
      | error x =>
          show Whole old height (log ++ []) (collect w).bus.vdp
          rw [List.append_nil, collect_bus]
          exact hstep
      | ok c =>
          have hbus : (follow w c).2.bus.vdp = (w.bus.vdp.advance c).2.quiet := by
            rw [follow_bus]
          dsimp only at hheight ⊢
          generalize follow w c = f at hheight hbus ⊢
          obtain ⟨blank, u⟩ := f
          rw [lines_cons] at hheight ⊢
          have hadvance : Whole old height (log ++ w.bus.vdp.starts c) u.bus.vdp := by
            have hlines := hstep.advance c fun t ht => hheight t (List.mem_append_left _ ht)
            exact hbus ▸ hlines.congr (w := (w.bus.vdp.advance c).2.quiet) rfl rfl
          rw [← List.append_assoc]
          cases blank with
          | true =>
              show Whole old height (_ ++ []) u.bus.vdp
              rw [List.append_nil]
              exact hadvance
          | false =>
              exact runToBlank_whole n (cycle + c) hadvance fun t ht =>
                hheight t (List.mem_append_right _ ht)

variable {m : Machine}

theorem whole_runField (h : Whole old height log m.board.vdp)
    (hheight : ∀ t ∈ lines m.beats, t.height = height) :
    Whole old height (log ++ lines m.beats) m.runField.1.board.vdp := by
  have hrun := runToBlank_whole stepLimit m.frameCycle (z := m.cpu) h hheight
  unfold Machine.runField beats
  generalize lines (beatsFrom stepLimit m.frameCycle m.cpu) = started at hrun ⊢
  generalize runToBlank stepLimit m.frameCycle m.cpu = o at hrun ⊢
  obtain ⟨x | x, cycle, z⟩ := o
  · have hclosed := (closeFrame_spec { m with cpu := z } cycle).1
    exact hrun.congr (congrArg Vdp.timing hclosed) (congrArg Vdp.line hclosed)
  · exact hrun

/-! ### Calls -/

theorem deliver_vdp (m : Machine) (video : Option (Array UInt8)) (audio : Option Nat) :
    (m.deliver video audio).1.board.vdp = m.board.vdp := by
  unfold Machine.deliver
  cases video.mapM m.writePicture with
  | error x => rfl
  | ok video => cases audio <;> rfl

theorem whole_call (h : Whole old height log m.board.vdp) (c : Call)
    (hheight : ∀ t ∈ m.started c, t.height = height) :
    Whole old height (log ++ m.started c) (m.call c).1.board.vdp := by
  cases c with
  | run video audio =>
      unfold started at hheight ⊢
      dsimp only at hheight
      show Whole old height _ (m.run video audio).1.board.vdp
      rw [run_deliver]
      dsimp only
      by_cases hcart : m.board.memory.cartridge.isNone = true
      · rw [if_pos hcart, if_pos hcart, List.append_nil]
        exact h
      rw [if_neg hcart] at hheight ⊢
      rw [if_neg hcart]
      by_cases hpaused : m.paused = true
      · rw [if_pos hpaused, if_pos hpaused, List.append_nil]
        exact h
      rw [if_neg hpaused] at hheight ⊢
      rw [if_neg hpaused]
      have hfield := whole_runField h hheight
      generalize m.runField = o at hfield ⊢
      obtain ⟨k, x | _⟩ := o
      · exact hfield
      · dsimp only
        rw [deliver_vdp]
        exact hfield
  | press player k =>
      show Whole old height (log ++ []) (m.press player k).board.vdp
      rw [List.append_nil]
      unfold Machine.press
      dsimp only
      split <;> exact h
  | release player k =>
      show Whole old height (log ++ []) m.board.vdp
      rw [List.append_nil]
      exact h
  | setPhaser p =>
      show Whole old height (log ++ []) (m.board.vdp.setPhaserTarget _)
      rw [List.append_nil]
      exact h.congr rfl rfl

theorem whole_after (cs : List Call) (h : Whole old height log m.board.vdp)
    (hheight : ∀ t ∈ m.record cs, t.height = height) :
    Whole old height (log ++ m.record cs) (m.after cs).board.vdp := by
  induction cs generalizing log m with
  | nil =>
      rw [record, List.append_nil]
      exact h
  | cons c cs ih =>
      rw [record] at hheight ⊢
      rw [← List.append_assoc]
      exact ih (whole_call h c fun t ht => hheight t (List.mem_append_left _ ht))
        fun t ht => hheight t (List.mem_append_right _ ht)

/-- **An exact replay.**  As long as the program keeps the height of the picture that it had when
the state was saved, the host gets the same from both machines in every call. -/
theorem replay_steady {f : Machine} (hm : Reached m) (hf : Fresh f) (h : Holds m f)
    (hfits : m.state.Fits) :
    ∃ bytes, m.save = .ok bytes ∧ (f.restore bytes).2 = .ok () ∧
      ∀ (cs : List Call) (c : Call),
        (∀ t ∈ m.record (cs ++ [c]), t.height = m.board.vdp.activeHeight) →
        (((f.restore bytes).1.after cs).call c).2 = ((m.after cs).call c).2 := by
  have hline := hm.ready.1.line
  have hbefore : Whole m.board.vdp.scratch m.board.vdp.activeHeight [] m.board.vdp := by
    refine ⟨?_, fun hlt => absurd hlt (by omega), Vdp.not_leaks_nil _⟩
    rw [hline]
    exact Vdp.activeHeight_lt _
  obtain ⟨bytes, hsave, hrestore, halike⟩ := hm.restore hf h hfits
  refine ⟨bytes, hsave, hrestore, fun cs c hheight => ?_⟩
  obtain ⟨hmatches, hcall⟩ := (halike.after cs).call c
  have hwhole := whole_after (cs ++ [c]) hbefore hheight
  have hshown := hcall.vdp.remains.shown
  rw [List.nil_append, ← record_snoc] at hshown
  rw [List.nil_append] at hwhole
  exact hmatches.video (hshown.2 hwhole.shown)

end Machine

end MasterSystem
