import MasterSystem.Proofs.Sound.Conservation

/-! # The sample clock

A resampler counts time in samples: the finished ones, and a rest that is carried from frame to
frame.  Where the frames are cut makes no difference to it.

* **Carry.**  The rest and the finished samples make up the position at which a frame was closed
  (`position_endFrame`), so that the next frame goes on from there.
* **Cuts.**  Two frames are one (`endFrame_endFrame`), and a change in the second lands where it
  would have landed in the first (`addDelta_endFrame`).
* **Runs.**  As long as no frame overruns the buffer (`Roomy`), the samples made available by any
  frames are those of their clocks together (`made_eq`), and frames without reads are one frame with
  all of their changes (`endFrame_after`). -/

namespace MasterSystem.Sound.Resampler

/-! ### Carry -/

section

variable (b : Resampler)

/-- What a closed frame hands on, together with the samples it finished, is its position. -/
theorem position_endFrame (m n : Nat) :
    (b.endFrame m).position n + timeUnit * (b.position m / timeUnit) = b.position (m + n) := by
  have hcarry := Nat.mod_add_div (b.position m) timeUnit
  have hpositions : b.position (m + n) = n * b.factor + b.position m := by
    unfold position
    rw [Nat.add_mul]
    omega
  show n * b.factor + b.position m % timeUnit + _ = _
  omega

theorem position_endFrame_div (m n : Nat) :
    b.position m / timeUnit + (b.endFrame m).position n / timeUnit =
      b.position (m + n) / timeUnit := by
  rw [← position_endFrame, Nat.add_mul_div_left _ _ (by decide), Nat.add_comm]

theorem position_endFrame_mod (m n : Nat) :
    (b.endFrame m).position n % timeUnit = b.position (m + n) % timeUnit := by
  rw [← position_endFrame, Nat.add_mul_mod_self_left]

/-- A clock of the next frame has the same phase as that clock of the frame that was closed. -/
theorem phase_endFrame (m n : Nat) :
    (b.endFrame m).position n / (timeUnit / phases) % phases =
      b.position (m + n) / (timeUnit / phases) % phases := by
  have hunit : timeUnit / phases * phases = timeUnit := by decide
  rw [← Nat.mod_mul_right_div_self, ← Nat.mod_mul_right_div_self, hunit, position_endFrame_mod]

variable {b}

theorem slotOf_endFrame {m : Nat} (h : b.slotOf m ≤ b.capacity) (n : Nat) :
    (b.endFrame m).slotOf n = b.slotOf (m + n) := by
  have hslots := b.position_endFrame_div m n
  have havail : (b.endFrame m).avail = b.avail + b.position m / timeUnit := Nat.min_eq_left h
  unfold slotOf
  omega

/-! ### Cuts -/

/-- Two frames are one, also when they overrun the buffer. -/
theorem endFrame_endFrame (b : Resampler) (m n : Nat) :
    (b.endFrame m).endFrame n = b.endFrame (m + n) := by
  have hslots := b.position_endFrame_div m n
  have havail : min ((b.endFrame m).slotOf n) b.capacity = min (b.slotOf (m + n)) b.capacity := by
    have hclosed : (b.endFrame m).avail = min (b.avail + b.position m / timeUnit) b.capacity := rfl
    unfold slotOf
    rw [hclosed, ← hslots]
    generalize b.position m / timeUnit = finished, (b.endFrame m).position n / timeUnit = later
    omega
  have hoffset := b.position_endFrame_mod m n
  show ({ b with avail := min _ b.capacity, offset := _ % timeUnit } : Resampler) = _
  rw [havail, hoffset]
  rfl

/-- A change in the next frame is a change later in the frame that was closed. -/
theorem addDelta_endFrame {m : Nat} (h : b.slotOf m ≤ b.capacity) (t : Nat) (delta : Int) :
    (b.endFrame m).addDelta t delta = (b.addDelta (m + t) delta).endFrame m := by
  have hslot := slotOf_endFrame h t
  have hphase := b.phase_endFrame m t
  by_cases hzero : delta = 0
  · unfold addDelta
    rw [if_pos hzero, if_pos hzero]
  · unfold addDelta
    rw [if_neg hzero, if_neg hzero, hslot, hphase]
    unfold endFrame slotOf capacity position
    dsimp only
    rw [spread_size]

end

/-! ### Runs -/

/-- The resampler after a use. -/
def use (b : Resampler) : Use → Resampler
  | .change time delta => b.addDelta time delta
  | .close clocks => b.endFrame clocks
  | .read dst count stride => (b.readInto dst count stride).2.2

/-- Clocks of the frames that are closed. -/
def clocks : List Use → Nat
  | [] => 0
  | .close n :: us => n + clocks us
  | _ :: us => clocks us

/-- Samples that become available, frame by frame. -/
def made (b : Resampler) : List Use → Nat
  | [] => 0
  | .close n :: us => (b.endFrame n).avail - b.avail + made (b.endFrame n) us
  | u :: us => made (b.use u) us

/-- Samples that are read. -/
def taken (b : Resampler) : List Use → Nat
  | [] => 0
  | .read dst count stride :: us =>
    let r := b.readInto dst count stride
    r.1 + taken r.2.2 us
  | u :: us => taken (b.use u) us

/-- No frame overruns the buffer. -/
def Roomy (b : Resampler) : List Use → Prop
  | [] => True
  | .close n :: us => b.slotOf n ≤ b.capacity ∧ Roomy (b.endFrame n) us
  | u :: us => Roomy (b.use u) us

theorem readInto_frame (b : Resampler) (dst : Array Int) (count stride : Nat) :
    (b.readInto dst count stride).2.2.avail + (b.readInto dst count stride).1 = b.avail ∧
      (b.readInto dst count stride).2.2.offset = b.offset ∧
      (b.readInto dst count stride).2.2.factor = b.factor := by
  refine ⟨?_, rfl, rfl⟩
  show b.avail - min _ b.avail + (integrate ..).2.size = b.avail
  rw [integrate_size, show (Array.mkEmpty _ : Array Int).size = 0 from rfl]
  omega

/-- Only frames move the sample clock. -/
theorem use_position {b : Resampler} {u : Use} (h : ∀ n, u ≠ .close n) :
    (b.use u).offset = b.offset ∧ ∀ n, (b.use u).position n = b.position n := by
  cases u with
  | change time delta =>
      show (b.addDelta time delta).offset = b.offset ∧ ∀ n, (b.addDelta time delta).position n = _
      unfold addDelta
      split <;> exact ⟨rfl, fun _ => rfl⟩
  | close n => exact absurd rfl (h n)
  | read dst count stride => exact ⟨rfl, fun _ => rfl⟩

/-- Samples are made available by time alone: as many as there are in the clocks of all frames, from
where the first frame starts. -/
theorem made_eq : ∀ {us : List Use} {b : Resampler}, b.Roomy us →
    b.offset < timeUnit ∨ (∃ n, .close n ∈ us) →
    b.made us = b.clocksToSamples (clocks us) ∧
      (us.foldl use b).offset = b.position (clocks us) % timeUnit := by
  intro us
  induction us with
  | nil =>
      intro b _ hstart
      have hlow : b.offset < timeUnit := hstart.resolve_right (by simp)
      have hposition : b.position 0 = b.offset := by
        unfold position
        omega
      unfold clocksToSamples
      rw [clocks, hposition, Nat.div_eq_of_lt hlow, Nat.mod_eq_of_lt hlow]
      exact ⟨rfl, rfl⟩
  | cons u us ih =>
      intro b hroom hstart
      -- A use that closes no frame hands on the clock and what is known of it.
      have hother (hu : ∀ n, u ≠ .close n) (hrest : (b.use u).Roomy us) :
          (b.use u).made us = b.clocksToSamples (clocks us) ∧
            (us.foldl use (b.use u)).offset = b.position (clocks us) % timeUnit := by
        obtain ⟨hoffset, hposition⟩ := use_position (b := b) hu
        have hnext : (b.use u).offset < timeUnit ∨ ∃ n, .close n ∈ us := by
          rw [hoffset]
          refine hstart.imp_right fun ⟨n, hn⟩ => ⟨n, ?_⟩
          exact (List.mem_cons.1 hn).resolve_left (hu n).symm
        have hlater := ih hrest hnext
        unfold clocksToSamples at hlater ⊢
        rwa [hposition] at hlater
      cases u with
      | change time delta => exact hother (by simp) hroom
      | read dst count stride => exact hother (by simp) hroom
      | close n =>
          obtain ⟨hfits, hrest⟩ := hroom
          obtain ⟨hmade, hoffset⟩ := ih hrest (.inl (Nat.mod_lt _ (by decide)))
          have havail : (b.endFrame n).avail = b.avail + b.position n / timeUnit :=
            Nat.min_eq_left hfits
          have hslots := b.position_endFrame_div n (clocks us)
          unfold clocksToSamples at hmade ⊢
          refine ⟨?_, hoffset.trans (b.position_endFrame_mod n (clocks us))⟩
          rw [made, hmade, havail, clocks, ← hslots, Nat.add_sub_cancel_left]

/-- What was made available is unread or has been read. -/
theorem avail_add_taken : ∀ {us : List Use} {b : Resampler}, b.Roomy us →
    (us.foldl use b).avail + b.taken us = b.avail + b.made us := by
  intro us
  induction us with
  | nil =>
      intro b _
      rfl
  | cons u us ih =>
      intro b hroom
      cases u with
      | change time delta =>
          rw [← (b.addDelta_frame time delta).1]
          exact ih (b := b.addDelta time delta) hroom
      | close n =>
          have hrest := ih hroom.2
          have hgrows : b.avail ≤ (b.endFrame n).avail :=
            Nat.le_min.2 ⟨Nat.le_add_right _ _, Nat.le_trans (Nat.le_add_right _ _) hroom.1⟩
          show (us.foldl use (b.endFrame n)).avail + (b.endFrame n).taken us = _
          rw [made]
          omega
      | read dst count stride =>
          have hrest := ih (b := (b.readInto dst count stride).2.2) hroom
          have hread := (b.readInto_frame dst count stride).1
          show (us.foldl use (b.readInto dst count stride).2.2).avail +
            ((b.readInto dst count stride).1 + (b.readInto dst count stride).2.2.taken us) =
              b.avail + (b.readInto dst count stride).2.2.made us
          omega

/-- Frames overrun no buffer that has room for all of them. -/
theorem Safe.roomy : ∀ {us : List Use} {b : Resampler}, b.Safe →
    b.slotOf (clocks us) ≤ b.capacity → b.Roomy us := by
  intro us
  induction us with
  | nil =>
      intro b _ _
      trivial
  | cons u us ih =>
      intro b hsafe hfits
      cases u with
      | change time delta =>
          obtain ⟨-, -, hcapacity, hslot⟩ := b.addDelta_frame time delta
          refine ih (b := b.addDelta time delta) (hsafe.addDelta time delta) ?_
          rw [hcapacity, hslot]
          exact hfits
      | close n =>
          have hclosed : b.slotOf n ≤ b.capacity :=
            Nat.le_trans (b.slotOf_mono (Nat.le_add_right n (clocks us))) hfits
          refine ⟨hclosed, ih (hsafe.endFrame n) ?_⟩
          rw [slotOf_endFrame hclosed]
          exact hfits
      | read dst count stride =>
          have hsize : (b.readInto dst count stride).2.2.capacity = b.capacity := by
            have hslots := drop_size (b := { b with integrator := _ }) ⟨hsafe.size, hsafe.avail⟩
              (Nat.min_le_right (min count ((dst.size + max stride 1 - 1) / max stride 1)) b.avail)
            exact congrArg (· - kernelWidth - 1) hslots
          have hread := (b.readInto_frame dst count stride).1
          refine ih (b := (b.readInto dst count stride).2.2) (hsafe.read _) ?_
          rw [hsize]
          refine Nat.le_trans ?_ hfits
          show (b.readInto dst count stride).2.2.avail + _ ≤ b.avail + _
          exact Nat.add_le_add_right (by omega) _

/-! ### Frames at once -/

/-- The changes of some frames, as changes of one frame at clocks counted on from `start`. -/
def changesFrom (start : Nat) : List Use → List Use
  | [] => []
  | .change time delta :: us => .change (start + time) delta :: changesFrom start us
  | .close n :: us => changesFrom (start + n) us
  | .read .. :: us => changesFrom start us

theorem changesFrom_endFrame {m : Nat} : ∀ {us : List Use} {b : Resampler} (start : Nat),
    b.slotOf m ≤ b.capacity →
    (changesFrom start us).foldl use (b.endFrame m) =
      ((changesFrom (m + start) us).foldl use b).endFrame m := by
  intro us
  induction us with
  | nil =>
      intro b start _
      rfl
  | cons u us ih =>
      intro b start h
      cases u with
      | change time delta =>
          obtain ⟨-, -, hcapacity, hslot⟩ := b.addDelta_frame (m + (start + time)) delta
          have hnext := ih (b := b.addDelta (m + (start + time)) delta) start
            (by rwa [hcapacity, hslot])
          rw [← addDelta_endFrame h] at hnext
          rw [changesFrom, changesFrom, Nat.add_assoc]
          exact hnext
      | close n =>
          rw [changesFrom, changesFrom, Nat.add_assoc]
          exact ih (start + n) h
      | read dst count stride => exact ih start h

/-- Frames of which nothing is read are one frame with all of their changes. -/
theorem endFrame_after : ∀ {us : List Use} {b : Resampler}, b.Roomy us →
    (∀ dst count stride, .read dst count stride ∉ us) → ∀ n,
    (us.foldl use b).endFrame n =
      ((changesFrom 0 us).foldl use b).endFrame (clocks us + n) := by
  intro us
  induction us with
  | nil =>
      intro b _ _ n
      rw [clocks, Nat.zero_add]
      rfl
  | cons u us ih =>
      intro b hroom hreads n
      have hrest : ∀ dst count stride, .read dst count stride ∉ us := fun dst count stride h =>
        hreads dst count stride (List.mem_cons_of_mem u h)
      cases u with
      | change time delta =>
          rw [changesFrom, Nat.zero_add]
          exact ih (b := b.addDelta time delta) hroom hrest n
      | close m =>
          have hlater := ih hroom.2 hrest n
          rw [changesFrom_endFrame 0 hroom.1, endFrame_endFrame, ← Nat.add_assoc,
            Nat.add_zero] at hlater
          rw [changesFrom, Nat.zero_add]
          exact hlater
      | read dst count stride => exact absurd List.mem_cons_self (hreads dst count stride)

/-- **Frame boundaries do not disturb the sample clock.**  Two frames are one, a change in the
second is a change later in the first, and frames make as many samples available as their clocks
together, counted from where the first one starts, whatever is read in between.  What was made
available has been read or can be read. -/
theorem sample_clock (b : Resampler) :
    (∀ m n, (b.endFrame m).endFrame n = b.endFrame (m + n)) ∧
    (∀ m, b.slotOf m ≤ b.capacity → ∀ time delta,
      (b.endFrame m).addDelta time delta = (b.addDelta (m + time) delta).endFrame m) ∧
    ∀ us, b.Roomy us → (b.offset < timeUnit ∨ ∃ n, .close n ∈ us) →
      b.made us = (clocks us * b.factor + b.offset) / timeUnit ∧
      (us.foldl use b).offset = (clocks us * b.factor + b.offset) % timeUnit ∧
      (us.foldl use b).avail + b.taken us = b.avail + b.made us := by
  refine ⟨b.endFrame_endFrame, fun m h => addDelta_endFrame h, ?_⟩
  intro us hroom hstart
  obtain ⟨hmade, hoffset⟩ := made_eq hroom hstart
  exact ⟨hmade, hoffset, avail_add_taken hroom⟩

/-- Three frames of a resampler for 64 samples, with changes and a read between them. -/
theorem sample_clock_of_three :
    let b := new 3579545 44100 64
    let us : List Use := [.change 20 700, .close 1000, .read (Array.replicate 9 0) 100 2,
      .change 80 50, .close 1500, .close 2000]
    b.slotOf 1000 ≤ b.capacity ∧
      (b.endFrame 1000).addDelta 80 50 = (b.addDelta 1080 50).endFrame 1000 ∧
      b.Roomy us ∧ b.made us = 55 ∧ (us.foldl use b).avail + b.taken us = 55 := by
  intro b us
  have hfits : b.slotOf 1000 ≤ b.capacity := by decide
  have hroom : b.Roomy us := (Safe.new 3579545 44100 64).roomy (by decide)
  have hclock := sample_clock b
  obtain ⟨hmade, -, htaken⟩ := hclock.2.2 us hroom (.inr ⟨1000, by simp [us]⟩)
  have hcount : b.made us = 55 := hmade.trans (by decide)
  exact ⟨hfits, hclock.2.1 1000 hfits 80 50, hroom, hcount, by rw [htaken, hcount]; rfl⟩

end MasterSystem.Sound.Resampler
