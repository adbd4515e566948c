import MasterSystem.Proofs.Sound.ShiftRegister

/-! # Windows that are cut in two

The tone generator is played in windows, which end wherever something is written to it.  A tone that
is played to a clock and from there to another is in the state in which it would be without the
stop, and has added the same changes (`Square.run_run`).  For the noise this holds exactly as long
as the channel has not drifted from its shift register when it stops (`Noise.run_run_iff`): a window
starts from the level of the bit that is put out, also where the last one has followed it to the
opposite level.

* **Edges.**  Edges at one distance are counted on where the count stopped (`edges_split`), and the
  next one is not before the end of the window (`stop_le_edge`).
* **Tones.**  The half wave that a window ends in is the one that the next starts with
  (`Square.played_played`, `Square.changes_split`).
* **Noise.**  Two windows and one shift the register alike and at the same clocks; their levels are
  opposite if the channel has drifted at the cut (`Noise.played_played`). -/

namespace MasterSystem.Sound

/-! ### Edges -/

section

variable {time middle stop period : Nat}

/-- The first edge that is not counted is at the end or after it. -/
theorem stop_le_edge (hperiod : 0 < period) :
    stop ≤ time + edges time stop period * period := by
  have hdiv := Nat.div_add_mod (stop - time + (period - 1)) period
  have hmod := Nat.mod_lt (stop - time + (period - 1)) hperiod
  unfold edges
  rw [Nat.mul_comm] at hdiv
  omega

/-- Edges are counted on where the count stopped. -/
theorem edges_split (hperiod : 0 < period) (h : middle ≤ stop) :
    edges time stop period = edges time middle period +
      edges (time + edges time middle period * period) stop period := by
  generalize hfirst : edges time middle period = n
  by_cases hstop : stop ≤ time + n * period
  · have hle : edges time stop period ≤ n := by
      unfold edges
      refine Nat.le_of_lt_succ ((Nat.div_lt_iff_lt_mul hperiod).2 ?_)
      rw [Nat.succ_mul]
      omega
    have hge : n ≤ edges time stop period := by
      rw [← hfirst]
      exact Nat.div_le_div_right (by omega)
    rw [edges_of_le hperiod hstop]
    omega
  · have hrest : stop - time + (period - 1) =
        stop - (time + n * period) + (period - 1) + n * period := by omega
    unfold edges
    rw [hrest, Nat.add_mul_div_right _ _ hperiod, Nat.add_comm]

end

/-! ### Tones -/

/-- A channel that has a level need not be brought to it. -/
theorem Oscillator.change_level (o : Oscillator) (time : Nat) : o.change time o.level = [] := by
  unfold change
  rw [if_pos (Int.sub_self _)]

namespace Square

/-- The clock of the first edge that a window leaves over.  Without a period there is none, and the
end of the window stands for it. -/
def nextEdge (s : Square) (start stop : Nat) : Nat :=
  if s.period = 0 then stop
  else start + s.osc.delay + s.edgesUntil start stop * s.period

/-- The level of a tone in one of its half waves. -/
def levelIn (s : Square) (enabled phase : Bool) : Int :=
  if s.osc.volume enabled = 0 ∨ s.period ≤ inaudible then 0
  else if phase then s.osc.volume enabled else -s.osc.volume enabled

/-- The half wave that a tone is in after `n` edges. -/
def phaseAfter (s : Square) (n : Nat) : Bool := s.phase ^^ (n % 2 == 1)

/-- The tone in one of its half waves, with its level in the output. -/
def settle (s : Square) (enabled phase : Bool) (delay : Nat) : Square :=
  { s with
    osc := { s.osc with level := s.levelIn enabled phase, delay := delay }
    phase := phase }

/-- The tone after it has played from one clock to another. -/
def played (s : Square) (start stop : Nat) (enabled : Bool) : Square :=
  s.settle enabled (s.phaseAfter (s.edgesUntil start stop)) (s.nextEdge start stop - stop)

/-- The next edge is not before the end of the window. -/
theorem stop_le_nextEdge (s : Square) (start stop : Nat) : stop ≤ s.nextEdge start stop := by
  unfold nextEdge edgesUntil
  split
  · exact Nat.le_refl _
  · rename_i hperiod
    exact stop_le_edge (Nat.pos_of_ne_zero hperiod)

/-- What a window does to the tone. -/
theorem run_eq (s : Square) (start stop : Nat) (enabled : Bool) (out : Stereo) :
    (s.run start stop enabled out).1 = s.played start stop enabled := by
  unfold run played settle levelIn
  dsimp only
  rw [Oscillator.setLevel_eq, Oscillator.setLevel_eq]
  split <;> rfl

/-- The next window goes on from the next edge. -/
theorem nextEdge_played (s : Square) (start middle : Nat) (enabled : Bool) :
    middle + (s.played start middle enabled).osc.delay = s.nextEdge start middle :=
  Nat.add_sub_cancel' (s.stop_le_nextEdge start middle)

theorem edgesUntil_split (s : Square) (start : Nat) {middle stop : Nat} (h : middle ≤ stop)
    (enabled : Bool) : s.edgesUntil start stop =
      s.edgesUntil start middle + (s.played start middle enabled).edgesUntil middle stop := by
  have hnext := s.nextEdge_played start middle enabled
  have hperiod : (s.played start middle enabled).period = s.period := rfl
  unfold edgesUntil
  rw [hnext, hperiod]
  unfold nextEdge edgesUntil
  by_cases hzero : s.period = 0
  · simp only [hzero, if_pos]
  · simp only [hzero, if_neg, not_false_eq_true]
    exact edges_split (Nat.pos_of_ne_zero hzero) h

theorem nextEdge_split (s : Square) (start : Nat) {middle stop : Nat} (h : middle ≤ stop)
    (enabled : Bool) :
    (s.played start middle enabled).nextEdge middle stop = s.nextEdge start stop := by
  have hnext := s.nextEdge_played start middle enabled
  have hedges := s.edgesUntil_split start h enabled
  have hperiod : (s.played start middle enabled).period = s.period := rfl
  unfold nextEdge
  rw [hnext, hperiod, hedges]
  unfold nextEdge
  by_cases hzero : s.period = 0
  · simp only [hzero, if_pos]
  · simp only [hzero, if_neg, not_false_eq_true, Nat.add_mul, Nat.add_assoc]

theorem phaseAfter_add (s : Square) (m n : Nat) :
    s.phaseAfter (m + n) = (s.phaseAfter m ^^ (n % 2 == 1)) := by
  unfold phaseAfter
  rcases Nat.mod_two_eq_zero_or_one m with hm | hm <;>
    rcases Nat.mod_two_eq_zero_or_one n with hn | hn <;> simp [Nat.add_mod, hm, hn]

/-- A tone goes on where it stopped. -/
theorem played_played (s : Square) (start : Nat) {middle stop : Nat} (h : middle ≤ stop)
    (enabled : Bool) :
    (s.played start middle enabled).played middle stop enabled = s.played start stop enabled := by
  have hnext := s.nextEdge_split start h enabled
  have hphase : (s.played start middle enabled).phaseAfter
      ((s.played start middle enabled).edgesUntil middle stop) =
      s.phaseAfter (s.edgesUntil start stop) := by
    rw [s.edgesUntil_split start h enabled, phaseAfter_add]
    rfl
  calc (s.played start middle enabled).played middle stop enabled
      = (s.played start middle enabled).settle enabled
          ((s.played start middle enabled).phaseAfter
            ((s.played start middle enabled).edgesUntil middle stop))
          ((s.played start middle enabled).nextEdge middle stop - stop) := rfl
    _ = (s.played start middle enabled).settle enabled (s.phaseAfter (s.edgesUntil start stop))
          (s.nextEdge start stop - stop) := by rw [hphase, hnext]
    _ = s.played start stop enabled := rfl

/-! #### Changes -/

theorem edgeChanges_add (routing : Routing) (period : Nat) : ∀ (m n time : Nat) (delta : Int),
    edgeChanges routing period (m + n) time delta =
      edgeChanges routing period m time delta ++
        edgeChanges routing period n (time + m * period) (if m % 2 = 1 then -delta else delta)
  | 0, n, time, delta => by simp [edgeChanges]
  | m + 1, n, time, delta => by
      have hrest := edgeChanges_add routing period m n (time + period) (-delta)
      have htime : time + period + m * period = time + (m + 1) * period := by
        rw [Nat.succ_mul]
        omega
      have hdelta : (if m % 2 = 1 then - -delta else -delta) =
          if (m + 1) % 2 = 1 then -delta else delta := by
        rcases Nat.mod_two_eq_zero_or_one m with hm | hm <;> simp [Nat.add_mod, hm]
      rw [htime, hdelta] at hrest
      rw [Nat.add_right_comm]
      exact congrArg (⟨routing, time, -delta⟩ :: ·) hrest

theorem halfWave_played (s : Square) (start stop : Nat) (enabled : Bool) :
    (s.played start stop enabled).halfWave enabled =
      if s.edgesUntil start stop % 2 = 1 then -s.halfWave enabled else s.halfWave enabled := by
  have hphase : (s.played start stop enabled).phase = s.phaseAfter (s.edgesUntil start stop) := rfl
  have hvolume : (s.played start stop enabled).osc.volume enabled = s.osc.volume enabled := rfl
  unfold halfWave
  rw [hphase, hvolume]
  unfold phaseAfter
  rcases Nat.mod_two_eq_zero_or_one (s.edgesUntil start stop) with h | h <;> rw [h] <;>
    cases s.phase <;> simp

/-- The changes of a window are those of its two parts. -/
theorem changes_split (s : Square) (start : Nat) {middle stop : Nat} (h : middle ≤ stop)
    (enabled : Bool) : s.changes start stop enabled =
      s.changes start middle enabled ++
        (s.played start middle enabled).changes middle stop enabled := by
  by_cases hunheard : s.osc.volume enabled = 0 ∨ s.period ≤ inaudible
  · have hlevel : (s.played start middle enabled).osc.level = 0 := if_pos hunheard
    have hsecond : (s.played start middle enabled).changes middle stop enabled = [] := by
      unfold changes
      rw [if_pos (show (s.played start middle enabled).osc.volume enabled = 0 ∨
        (s.played start middle enabled).period ≤ inaudible from hunheard), ← hlevel,
        Oscillator.change_level]
    rw [hsecond, List.append_nil]
    unfold changes
    rw [if_pos hunheard, if_pos hunheard]
  · have hlevel : (s.played start middle enabled).osc.level =
        (s.played start middle enabled).halfWave enabled := if_neg hunheard
    have hperiod : s.period ≠ 0 := by
      rintro hzero
      exact hunheard (.inr (hzero ▸ Nat.zero_le _))
    have hnext := s.nextEdge_played start middle enabled
    have hwave : (s.played start middle enabled).halfWave enabled * 2 =
        if s.edgesUntil start middle % 2 = 1 then -(s.halfWave enabled * 2)
        else s.halfWave enabled * 2 := by
      rw [halfWave_played]
      split
      · exact Int.neg_mul _ _
      · rfl
    have hsecond : (s.played start middle enabled).changes middle stop enabled =
        edgeChanges s.osc.routing s.period
          ((s.played start middle enabled).edgesUntil middle stop)
          (start + s.osc.delay + s.edgesUntil start middle * s.period)
          ((s.played start middle enabled).halfWave enabled * 2) := by
      unfold changes
      rw [if_neg (show ¬((s.played start middle enabled).osc.volume enabled = 0 ∨
        (s.played start middle enabled).period ≤ inaudible) from hunheard), ← hlevel,
        Oscillator.change_level, hnext]
      unfold nextEdge
      rw [if_neg hperiod]
      rfl
    rw [hsecond, hwave]
    unfold changes
    rw [if_neg hunheard, if_neg hunheard, s.edgesUntil_split start h enabled, edgeChanges_add,
      List.append_assoc]

theorem run_run (s : Square) (start : Nat) {middle stop : Nat} (h : middle ≤ stop)
    (enabled : Bool) (out : Stereo) :
    (s.run start middle enabled out).1.run middle stop enabled (s.run start middle enabled out).2 =
      s.run start stop enabled out := by
  refine Prod.ext ?_ ?_
  · rw [run_eq, run_eq, run_eq, s.played_played start h]
  · rw [run_output, run_output, run_output, run_eq, s.changes_split start h, Stereo.addAll_append]

/-- The tone and the output after windows that end at some clocks. -/
def runThrough (enabled : Bool) : List Nat → Nat → Square × Stereo → Square × Stereo
  | [], _, r => r
  | stop :: stops, start, r => runThrough enabled stops stop (r.1.run start stop enabled r.2)

/-- Windows in turn are one window to the end of the last. -/
theorem runThrough_eq (enabled : Bool) : ∀ (stops : List Nat) (start middle stop : Nat)
    (s : Square) (out : Stereo), (middle :: stops).Pairwise (· ≤ ·) → (∀ t ∈ stops, t ≤ stop) →
    middle ≤ stop →
    runThrough enabled (stops ++ [stop]) middle (s.run start middle enabled out) =
      s.run start stop enabled out
  | [], start, middle, stop, s, out, _, _, h => s.run_run start h enabled out
  | next :: stops, start, middle, stop, s, out, hsorted, hstop, h => by
      obtain ⟨hfirst, hsorted⟩ := List.pairwise_cons.1 hsorted
      obtain ⟨hnext, hstop⟩ := List.forall_mem_cons.1 hstop
      have hrest := runThrough_eq enabled stops start next stop s out hsorted hstop hnext
      rw [← s.run_run start (hfirst next List.mem_cons_self) enabled out] at hrest
      exact hrest

/-- **Tones do not depend on how time is cut.**  Whatever its period, loudness, side and half wave,
a tone that is played to a clock and from there to another is in the same state as if it had been
played there at once, and so is the output; the same goes for any number of stops.  The clock of the
next edge is what is left over of it after the window: it never lies before the end. -/
theorem run_cut (s : Square) (start : Nat) {middle stop : Nat} (h : middle ≤ stop)
    (enabled : Bool) (out : Stereo) :
    (s.run start middle enabled out).1.run middle stop enabled (s.run start middle enabled out).2 =
      s.run start stop enabled out ∧
    (s.run start stop enabled out).1.osc.delay + stop = s.nextEdge start stop ∧
    ∀ stops : List Nat, (middle :: stops).Pairwise (· ≤ ·) → (∀ t ∈ stops, t ≤ stop) →
      runThrough enabled (stops ++ [stop]) middle (s.run start middle enabled out) =
        s.run start stop enabled out := by
  refine ⟨s.run_run start h enabled out, ?_, ?_⟩
  · rw [run_eq]
    exact Nat.sub_add_cancel (s.stop_le_nextEdge start stop)
  · intro stops hsorted hstop
    exact runThrough_eq enabled stops start middle stop s out hsorted hstop h

/-- A tone of 440 Hz is stopped at one of its edges. -/
theorem run_cut_at_edge :
    4064 ≤ 10000 ∧
    ∀ out : Stereo,
      let s : Square := { osc := { attenuation := 0 }, period := 4064 }
      (s.run 0 4064 true out).1.run 4064 10000 true (s.run 0 4064 true out).2 =
        s.run 0 10000 true out ∧ (s.run 0 10000 true out).1.osc.delay + 10000 = 12192 := by
  refine ⟨by decide, fun out => ?_⟩
  obtain ⟨hcut, hdelay, -⟩ := run_cut { osc := { attenuation := 0 }, period := 4064 } 0
    (by decide : 4064 ≤ 10000) true out
  exact ⟨hcut, hdelay⟩

end Square

/-! ### Noise -/

namespace Noise

/-- The clock of the first shift that a window leaves over, if the channel is heard. -/
def nextShift (s : Noise) (start stop tone : Nat) (enabled : Bool) : Nat :=
  start + s.osc.delay + s.shifts start stop tone enabled * s.shiftPeriod tone

theorem stop_le_nextShift (s : Noise) (start stop tone : Nat) {enabled : Bool}
    (hvolume : s.osc.volume enabled ≠ 0) : stop ≤ s.nextShift start stop tone enabled := by
  unfold nextShift shifts
  rw [if_neg hvolume]
  exact stop_le_edge (s.shiftPeriod_pos tone)

theorem nextShift_played (s : Noise) (start middle tone : Nat) {enabled : Bool}
    (hvolume : s.osc.volume enabled ≠ 0) :
    middle + (s.played start middle tone enabled).osc.delay =
      s.nextShift start middle tone enabled :=
  Nat.add_sub_cancel' (s.stop_le_nextShift start middle tone hvolume)

theorem shifts_split (s : Noise) (start tone : Nat) {middle stop : Nat} (h : middle ≤ stop)
    (enabled : Bool) : s.shifts start stop tone enabled =
      s.shifts start middle tone enabled +
        (s.played start middle tone enabled).shifts middle stop tone enabled := by
  have hsame : (s.played start middle tone enabled).osc.volume enabled = s.osc.volume enabled := rfl
  have hperiod : (s.played start middle tone enabled).shiftPeriod tone = s.shiftPeriod tone := rfl
  by_cases hvolume : s.osc.volume enabled = 0
  · unfold shifts
    rw [hsame, if_pos hvolume, if_pos hvolume, if_pos hvolume]
  · have hnext := s.nextShift_played start middle tone hvolume
    unfold nextShift at hnext
    unfold shifts at hnext ⊢
    rw [hsame, hperiod, hnext, if_neg hvolume, if_neg hvolume, if_neg hvolume]
    exact edges_split (s.shiftPeriod_pos tone) h

/-- The channel with a level in the output, and its register. -/
def settle (s : Noise) (level : Int) (delay : Nat) (shifter : UInt16) : Noise :=
  { s with osc := { s.osc with level := level, delay := delay }, shifter := shifter }

theorem nextShift_split (s : Noise) (start tone : Nat) {middle stop : Nat} (h : middle ≤ stop)
    (enabled : Bool) :
    (s.played start middle tone enabled).nextShift middle stop tone enabled - stop =
      s.nextShift start stop tone enabled - stop := by
  have hshifts := s.shifts_split start tone h enabled
  have hperiod : (s.played start middle tone enabled).shiftPeriod tone = s.shiftPeriod tone := rfl
  by_cases hvolume : s.osc.volume enabled = 0
  · have hnone (start stop : Nat) : s.shifts start stop tone enabled = 0 := if_pos hvolume
    have hrest : (s.played start middle tone enabled).shifts middle stop tone enabled = 0 :=
      if_pos hvolume
    have hdelay : (s.played start middle tone enabled).osc.delay =
        start + s.osc.delay + s.shifts start middle tone enabled * s.shiftPeriod tone - middle :=
      rfl
    unfold nextShift
    rw [hdelay, hrest, hnone, hnone, Nat.zero_mul, Nat.zero_mul]
    omega
  · have hnext := s.nextShift_played start middle tone hvolume
    unfold nextShift at hnext ⊢
    rw [hnext, hperiod, hshifts, Nat.add_mul, Nat.add_assoc]

/-- Two windows end with the register and at the clock at which one does; how far the first has
drifted is forgotten. -/
theorem played_played (s : Noise) (start tone : Nat) {middle stop : Nat} (h : middle ≤ stop)
    (enabled : Bool) :
    (s.played start middle tone enabled).played middle stop tone enabled =
      (s.played start stop tone enabled).settle
        (levelOf (s.osc.volume enabled) ((bit (s.played start stop tone enabled).shifter 0 ^^
          drifts s.taps (s.shifts start stop tone enabled) s.shifter) ^^
          drifts s.taps (s.shifts start middle tone enabled) s.shifter))
        (s.played start stop tone enabled).osc.delay
        (s.played start stop tone enabled).shifter := by
  have hshifts := s.shifts_split start tone h enabled
  have hshifter : (s.played start stop tone enabled).shifter =
      ((s.played start middle tone enabled).played middle stop tone enabled).shifter := by
    show shifted s.taps (s.shifts start stop tone enabled) s.shifter = _
    rw [hshifts, shifted_add]
    rfl
  have hlevel : ((s.played start middle tone enabled).played middle stop tone enabled).osc.level =
      levelOf (s.osc.volume enabled) ((bit (s.played start stop tone enabled).shifter 0 ^^
        drifts s.taps (s.shifts start stop tone enabled) s.shifter) ^^
        drifts s.taps (s.shifts start middle tone enabled) s.shifter) := by
    have hcancel (b x y : Bool) : (b ^^ y) = ((b ^^ (x ^^ y)) ^^ x) := by
      cases b <;> cases x <;> cases y <;> rfl
    rw [hshifter, hshifts, drifts_add, ← hcancel]
    rfl
  have hdelay := s.nextShift_split start tone h enabled
  calc (s.played start middle tone enabled).played middle stop tone enabled
      = s.settle ((s.played start middle tone enabled).played middle stop tone enabled).osc.level
          ((s.played start middle tone enabled).nextShift middle stop tone enabled - stop)
          ((s.played start middle tone enabled).played middle stop tone enabled).shifter := rfl
    _ = _ := by
      rw [hlevel, hdelay, ← hshifter]
      rfl

/-- Two windows end like one exactly if the first has not drifted. -/
theorem played_played_iff (s : Noise) (start tone : Nat) {middle stop : Nat} (h : middle ≤ stop)
    (enabled : Bool) :
    (s.played start middle tone enabled).played middle stop tone enabled =
        s.played start stop tone enabled ↔
      s.osc.volume enabled = 0 ∨
        drifts s.taps (s.shifts start middle tone enabled) s.shifter = false := by
  have hone : s.played start stop tone enabled = (s.played start stop tone enabled).settle
      (levelOf (s.osc.volume enabled) (bit (s.played start stop tone enabled).shifter 0 ^^
        drifts s.taps (s.shifts start stop tone enabled) s.shifter))
      (s.played start stop tone enabled).osc.delay (s.played start stop tone enabled).shifter := rfl
  rw [s.played_played start tone h enabled]
  constructor
  · intro hsame
    have hlevel := congrArg (fun n : Noise => n.osc.level) (hsame.trans hone)
    exact levelOf_xor.1 hlevel
  · intro hstep
    rw [levelOf_xor.2 hstep]
    exact hone.symm

/-! #### Changes -/

theorem changes_eq (s : Noise) (start stop tone : Nat) (enabled : Bool) :
    s.changes start stop (s.shiftPeriod tone) enabled =
      s.osc.change start (s.bitLevel enabled) ++
        shiftChanges s.osc.routing s.taps (s.shiftPeriod tone) (s.shifts start stop tone enabled)
          (start + s.osc.delay) s.shifter (s.bitLevel enabled * 2) := by
  unfold changes shifts
  congr 1
  by_cases hvolume : s.osc.volume enabled = 0
  · rw [if_pos (.inl hvolume), if_pos hvolume]
    rfl
  · rw [if_neg hvolume]
    split
    · rename_i hstop
      rw [edges_of_le (s.shiftPeriod_pos tone) (hstop.resolve_left hvolume)]
      rfl
    · rfl

theorem shiftChanges_add (routing : Routing) (taps : UInt16) (period : Nat) :
    ∀ (m n time : Nat) (shifter : UInt16) (delta : Int),
      shiftChanges routing taps period (m + n) time shifter delta =
        shiftChanges routing taps period m time shifter delta ++
          shiftChanges routing taps period n (time + m * period) (shifted taps m shifter)
            (if flips taps m shifter then -delta else delta)
  | 0, n, time, shifter, delta => by simp [shiftChanges, shifted, flips]
  | m + 1, n, time, shifter, delta => by
      have htime : time + period + m * period = time + (m + 1) * period := by
        rw [Nat.succ_mul]
        omega
      have hflips : flips taps (m + 1) shifter =
          (turns shifter ^^ flips taps m (shift shifter taps)) := rfl
      have hrest := shiftChanges_add routing taps period m n (time + period)
        (shift shifter taps)
      rw [htime] at hrest
      rw [Nat.add_right_comm, shiftChanges, shiftChanges, hflips]
      cases turns shifter with
      | true =>
          have hdelta : (if flips taps m (shift shifter taps) then - -delta else -delta) =
              if true ^^ flips taps m (shift shifter taps) then -delta else delta := by
            cases flips taps m (shift shifter taps) <;> simp
          have hrest := hrest (-delta)
          rw [hdelta] at hrest
          exact congrArg (⟨routing, time, -delta⟩ :: ·) hrest
      | false =>
          have hrest := hrest delta
          rw [Bool.false_xor]
          exact hrest

/-- The changes of a window are those of its two parts, as long as the first has not drifted. -/
theorem changes_split (s : Noise) (start tone : Nat) {middle stop : Nat} (h : middle ≤ stop)
    {enabled : Bool} (hstep : s.osc.volume enabled = 0 ∨
      drifts s.taps (s.shifts start middle tone enabled) s.shifter = false) :
    s.changes start stop (s.shiftPeriod tone) enabled =
      s.changes start middle (s.shiftPeriod tone) enabled ++
        (s.played start middle tone enabled).changes middle stop (s.shiftPeriod tone) enabled := by
  have hperiod : (s.played start middle tone enabled).shiftPeriod tone = s.shiftPeriod tone := rfl
  have hvolume : (s.played start middle tone enabled).osc.volume enabled = s.osc.volume enabled :=
    rfl
  have hlevel : (s.played start middle tone enabled).osc.level =
      (s.played start middle tone enabled).bitLevel enabled := by
    rw [bitLevel_eq, hvolume]
    exact levelOf_xor.2 hstep
  have hfollowed := followed_level (s.osc.volume enabled) s.taps
    (s.shifts start middle tone enabled) s.shifter
  have hsecond := (s.played start middle tone enabled).changes_eq middle stop tone enabled
  have hclock : shiftChanges s.osc.routing s.taps (s.shiftPeriod tone)
      ((s.played start middle tone enabled).shifts middle stop tone enabled)
      (start + s.osc.delay + s.shifts start middle tone enabled * s.shiftPeriod tone)
      (s.played start middle tone enabled).shifter
      ((s.played start middle tone enabled).osc.level * 2) =
      shiftChanges s.osc.routing s.taps (s.shiftPeriod tone)
        ((s.played start middle tone enabled).shifts middle stop tone enabled)
        (middle + (s.played start middle tone enabled).osc.delay)
        (s.played start middle tone enabled).shifter
        ((s.played start middle tone enabled).osc.level * 2) := by
    by_cases hzero : s.osc.volume enabled = 0
    · have hrest : (s.played start middle tone enabled).shifts middle stop tone enabled = 0 :=
        if_pos hzero
      rw [hrest]
      rfl
    · rw [s.nextShift_played start middle tone hzero]
      rfl
  rw [hperiod, ← hlevel, Oscillator.change_level, List.nil_append] at hsecond
  rw [hsecond, changes_eq, changes_eq, s.shifts_split start tone h, shiftChanges_add, bitLevel_eq,
    hfollowed, ← List.append_assoc]
  exact congrArg (_ ++ ·) hclock

theorem run_run_iff (s : Noise) (start tone : Nat) {middle stop : Nat} (h : middle ≤ stop)
    (enabled : Bool) (out : Stereo) :
    (s.run start middle tone enabled out).1.run middle stop tone enabled
        (s.run start middle tone enabled out).2 = s.run start stop tone enabled out ↔
      s.osc.volume enabled = 0 ∨
        drifts s.taps (s.shifts start middle tone enabled) s.shifter = false := by
  constructor
  · intro hsame
    have hstate := congrArg Prod.fst hsame
    rw [run_eq, run_eq, run_eq] at hstate
    exact (s.played_played_iff start tone h enabled).1 hstate
  · intro hstep
    have hperiod : (s.played start middle tone enabled).shiftPeriod tone = s.shiftPeriod tone := rfl
    refine Prod.ext ?_ ?_
    · rw [run_eq, run_eq, run_eq]
      exact (s.played_played_iff start tone h enabled).2 hstep
    · rw [run_output, run_output, run_output, run_eq, hperiod, s.changes_split start tone h hstep,
        Stereo.addAll_append]

/-- The channel is in step with its register after a window if it has not drifted. -/
theorem run_level_iff (s : Noise) (start stop tone : Nat) (enabled : Bool) (out : Stereo) :
    (s.run start stop tone enabled out).1.osc.level =
        (s.run start stop tone enabled out).1.bitLevel enabled ↔
      s.osc.volume enabled = 0 ∨
        drifts s.taps (s.shifts start stop tone enabled) s.shifter = false := by
  rw [run_eq, bitLevel_eq]
  exact levelOf_xor

/-- **When the noise does not depend on how time is cut.**  A window can be cut without a trace
exactly if the channel is silent or has not drifted up to the cut, and after a window the level is
that of the bit put out under the same condition.  Periodic noise never drifts.  White noise has
drifted when the number of ones put out is odd. -/
theorem run_cut_iff (s : Noise) (start tone : Nat) {middle stop : Nat} (h : middle ≤ stop)
    (enabled : Bool) (out : Stereo) :
    ((s.run start middle tone enabled out).1.run middle stop tone enabled
        (s.run start middle tone enabled out).2 = s.run start stop tone enabled out ↔
      s.osc.volume enabled = 0 ∨
        drifts s.taps (s.shifts start middle tone enabled) s.shifter = false) ∧
    ((s.run start stop tone enabled out).1.osc.level =
        (s.run start stop tone enabled out).1.bitLevel enabled ↔
      s.osc.volume enabled = 0 ∨
        drifts s.taps (s.shifts start stop tone enabled) s.shifter = false) ∧
    (∀ v : NoiseVariant, s.taps = v.periodicTaps → ∀ n, drifts s.taps n s.shifter = false) ∧
    (∀ v : NoiseVariant, s.taps = v.whiteTaps →
      ∀ n, drifts s.taps n s.shifter = oddOnes (outputs s.taps n s.shifter)) := by
  refine ⟨s.run_run_iff start tone h enabled out, s.run_level_iff start stop tone enabled out,
    ?_, ?_⟩
  · intro v htaps n
    have hlowest : bit v.periodicTaps 0 = false := by cases v <;> decide
    unfold drifts
    rw [htaps, hlowest, Bool.false_and]
  · intro v htaps n
    have hlowest : bit v.whiteTaps 0 = true := by cases v <;> decide
    unfold drifts
    rw [htaps, hlowest, Bool.true_and]

/-- White noise that has just been chosen puts out its first one with the sixteenth shift. -/
theorem run_cut_iff_of_white :
    8192 ≤ 16384 ∧
    ∀ out : Stereo,
      let s : Noise := { osc := { attenuation := 0 }, shifter := 0x8000, taps := 0x0009 }
      (s.run 0 8192 0 true out).1.run 8192 16384 0 true (s.run 0 8192 0 true out).2 ≠
        s.run 0 16384 0 true out := by
  refine ⟨by decide, fun out => ?_⟩
  obtain ⟨hcut, -, -, -⟩ := run_cut_iff
    { osc := { attenuation := 0 }, shifter := 0x8000, taps := 0x0009 } 0 0
    (by decide : 8192 ≤ 16384) true out
  exact fun hsame => absurd (hcut.1 hsame) (by decide +kernel)

end Noise

end MasterSystem.Sound
