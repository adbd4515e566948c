import MasterSystem.Proofs.Machine.Wiring
import MasterSystem.Proofs.Snapshot.PowerOn
import MasterSystem.Proofs.Sound.Changes
import MasterSystem.Proofs.Sound.Conservation

/-! # The output between two frames

Samples can be read or dropped.  To read none leaves the output untouched, while to drop none still
clears the slots past the width of a kernel: the two agree only where those are empty already, so
that no change of level may lie behind the clock at which a frame was closed.

* **Clocks.**  What is done to the sound at a clock adds no change behind that clock
  (`Psg.by_changesUntil`, `FmChip.by_changesUntil`).
* **Frames.**  While a frame runs its changes lie before its clock (`Playing`), and closing it there
  or later settles the output (`Playing.endFrame`).  The sides keep the same count of samples all
  the while (`Resampler.meter`).
* **Samples.**  From an output that has settled, to read all samples is to drop them
  (`Stereo.Settled.readInterleaved_eq`). -/

namespace MasterSystem.Sound

/-! ### When changes happen -/

/-- Changes that happen at a clock or before. -/
def By (time : Nat) (cs : List Change) : Prop := ∀ c ∈ cs, c.time ≤ time

section

variable {time : Nat} {cs ds : List Change}

theorem By.nil : By time [] := by simp [By]

theorem By.cons {c : Change} (hc : c.time ≤ time) (hcs : By time cs) : By time (c :: cs) :=
  List.forall_mem_cons.2 ⟨hc, hcs⟩

theorem By.append (hcs : By time cs) (hds : By time ds) : By time (cs ++ ds) :=
  List.forall_mem_append.2 ⟨hcs, hds⟩

theorem By.flatMap {α : Type} {xs : List α} {f : α → List Change}
    (h : ∀ x ∈ xs, By time (f x)) : By time (xs.flatMap f) := by
  intro c hc
  obtain ⟨x, hx, hc⟩ := List.mem_flatMap.1 hc
  exact h x hx c hc

end

/-- An edge that is counted comes before the end. -/
theorem edge_lt {time stop period k : Nat} (h : k < edges time stop period) :
    time + k * period < stop := by
  unfold edges at h
  obtain rfl | hpos := Nat.eq_zero_or_pos period
  · simp at h
  · have hk := (Nat.le_div_iff_mul_le hpos).1 (Nat.succ_le_of_lt h)
    rw [Nat.succ_mul] at hk
    omega

theorem Oscillator.by_change (o : Oscillator) {start time : Nat} (h : start ≤ time) (level : Int) :
    By time (o.change start level) := by
  unfold change
  split
  · exact .nil
  · exact .cons h .nil

namespace Square

theorem by_edgeChanges (routing : Routing) {period limit : Nat} : ∀ (n time : Nat) (delta : Int),
    (∀ k < n, time + k * period ≤ limit) → By limit (edgeChanges routing period n time delta)
  | 0, _, _, _ => .nil
  | n + 1, time, delta, h => by
      refine .cons ?_ (by_edgeChanges routing n (time + period) (-delta) ?_)
      · simpa using h 0 (Nat.succ_pos n)
      · intro k hk
        have hnext := h (k + 1) (Nat.succ_lt_succ hk)
        rw [Nat.succ_mul] at hnext
        omega

theorem by_changes (s : Square) {start stop : Nat} (h : start ≤ stop) (enabled : Bool) :
    By stop (s.changes start stop enabled) := by
  unfold changes
  split
  · exact s.osc.by_change h 0
  · refine .append (s.osc.by_change h _) (by_edgeChanges _ _ _ _ ?_)
    intro k hk
    unfold edgesUntil at hk
    split at hk
    · simp at hk
    · exact Nat.le_of_lt (edge_lt hk)

end Square

namespace Noise

theorem by_shiftChanges (routing : Routing) (taps : UInt16) {period limit : Nat} :
    ∀ (n time : Nat) (shifter : UInt16) (delta : Int), (∀ k < n, time + k * period ≤ limit) →
      By limit (shiftChanges routing taps period n time shifter delta)
  | 0, _, _, _, _ => .nil
  | n + 1, time, shifter, delta, h => by
      have hrest (delta : Int) : By limit (shiftChanges routing taps period n (time + period)
          (shift shifter taps) delta) := by
        refine by_shiftChanges routing taps n (time + period) _ _ ?_
        intro k hk
        have hnext := h (k + 1) (Nat.succ_lt_succ hk)
        rw [Nat.succ_mul] at hnext
        omega
      unfold shiftChanges
      split
      · exact .cons (by simpa using h 0 (Nat.succ_pos n)) (hrest _)
      · exact hrest _

theorem by_changes (s : Noise) {start stop : Nat} (h : start ≤ stop) (period : Nat)
    (enabled : Bool) : By stop (s.changes start stop period enabled) := by
  unfold changes
  refine .append (s.osc.by_change h _) ?_
  split
  · exact .nil
  · exact by_shiftChanges _ _ _ _ _ _ fun k hk => Nat.le_of_lt (edge_lt hk)

end Noise

namespace Psg

theorem by_changesUntil (p : Psg) (time : Nat) : By time (p.changesUntil time) := by
  unfold changesUntil
  split
  · exact .nil
  · refine .flatMap fun channel _ => ?_
    unfold channelChanges
    split
    · exact Square.by_changes _ (by omega) _
    · exact Noise.by_changes _ (by omega) _ _

theorem by_stereoChanges (p : Psg) (time : Nat) (data : UInt8) (out : Stereo) :
    By time (p.stereoChanges time data out) := by
  refine .append (p.by_changesUntil time) (.flatMap fun channel _ => ?_)
  unfold routeChange
  dsimp only
  split
  · exact .nil
  · exact .cons (Nat.le_refl time) .nil

end Psg

namespace FmChip

theorem by_playChanges {limit : Nat} : ∀ (n : Nat) (f : FmChip),
    (∀ k < n, f.nextSample + k * sampleClocks ≤ limit) → By limit (playChanges n f)
  | 0, _, _ => .nil
  | n + 1, f, h => by
      have hclock := sample_nextSample f
      unfold playChanges
      dsimp only
      generalize (if f.sample.2.enabled then f.sample.1 else 0) = level
      refine .append ?_ (by_playChanges n _ ?_)
      · split
        · exact .nil
        · exact .cons (by simpa [hclock] using h 0 (Nat.succ_pos n)) .nil
      · intro k hk
        have hnext := h (k + 1) (Nat.succ_lt_succ hk)
        rw [Nat.succ_mul] at hnext
        dsimp only
        rw [hclock]
        omega

theorem by_changesUntil (f : FmChip) (time : Nat) : By time (f.changesUntil time) :=
  by_playChanges _ f fun _ hk => Nat.le_of_lt (@edge_lt f.nextSample time sampleClocks _ hk)

end FmChip

theorem Mixer.by_changesUntil (m : Mixer) (time : Nat) : By time (m.changesUntil time) := by
  refine .append (m.psg.by_changesUntil time) ?_
  cases m.fm with
  | none => exact .nil
  | some f => exact f.by_changesUntil time

/-! ### A side -/

namespace Resampler

variable {b c : Resampler} {time : Nat}

/-- While a frame runs: none of its changes lies behind its clock. -/
structure Playing (b : Resampler) (time : Nat) : Prop where
  safe : b.Safe
  reach : b.Reach [time]

/-- Between two frames: nothing lies behind the samples and the width of a kernel. -/
structure Settled (b : Resampler) : Prop where
  safe : b.Safe
  empty : b.EmptyFrom (b.avail + kernelWidth)

theorem Settled.playing (h : b.Settled) (time : Nat) : b.Playing time :=
  ⟨h.safe, h.empty.reach [time]⟩

/-- Changes that lie before a clock lie before every later one. -/
theorem Reach.mono {s t : Nat} (h : b.Reach [s]) (hst : s ≤ t) : b.Reach [t] := by
  intro i hi hbefore
  have hslot := b.slotOf_mono hst
  have hlast := hbefore t List.mem_cons_self
  refine h i hi ?_
  rintro _ (_ | ⟨_, ⟨⟩⟩)
  omega

theorem Playing.mono (h : b.Playing time) {later : Nat} (hlater : time ≤ later) :
    b.Playing later := ⟨h.safe, h.reach.mono hlater⟩

theorem Playing.addDelta (h : b.Playing time) {clock : Nat} (hclock : clock ≤ time) (delta : Int) :
    (b.addDelta clock delta).Playing time := by
  refine ⟨h.safe.addDelta clock delta, ?_⟩
  intro i hi hbefore
  have hlast := hbefore time List.mem_cons_self
  have hslot := (b.addDelta clock delta).slotOf_mono hclock
  refine h.reach.addDelta clock delta i hi ?_
  rintro _ (_ | ⟨_, hm⟩)
  · omega
  · exact hbefore _ hm

theorem Playing.addAll (h : b.Playing time) {cs : List Change} (hcs : By time cs) :
    (b.addAll cs).Playing time := by
  induction cs generalizing b with
  | nil => exact h
  | cons c cs ih =>
      obtain ⟨hc, hrest⟩ := List.forall_mem_cons.1 hcs
      exact ih (h.addDelta hc c.delta) hrest

theorem Playing.endFrame (h : b.Playing time) {clocks : Nat} (hclocks : time ≤ clocks) :
    (b.endFrame clocks).Settled := by
  refine ⟨h.safe.endFrame clocks, h.reach.endFrame h.safe ?_⟩
  rintro _ (_ | ⟨_, ⟨⟩⟩)
  exact hclocks

theorem read_size (b : Resampler) (count : Nat) : (b.read count).1.size = min count b.avail := by
  unfold Resampler.read
  dsimp only
  rw [integrate_size]
  exact Nat.zero_add _

theorem Settled.read (h : b.Settled) (count : Nat) : (b.read count).2.Settled :=
  ⟨h.safe.read count, (Reach.read h.safe count).emptyFrom⟩

/-- Slots that are empty from a place on end in zeros. -/
theorem EmptyFrom.drop_eq {n : Nat} (h : b.EmptyFrom n) :
    b.slots.toList.drop n = List.replicate (b.slots.size - n) 0 := by
  apply List.eq_replicate_iff.2
  refine ⟨by simp, ?_⟩
  intro w hw
  obtain ⟨k, hk, rfl⟩ := List.mem_iff_getElem.1 hw
  have hslot := h (n + k) (by omega)
  rw [List.length_drop, Array.length_toList] at hk
  simpa [Array.getD_eq_getD_getElem?, show n + k < b.slots.size by omega] using hslot

/-- A resampler that has settled stays as it is when no sample is read. -/
theorem Settled.read_zero (h : b.Settled) : (b.read 0).2 = b := by
  have hslots : (b.drop 0).slots = b.slots := by
    apply Array.toList_inj.1
    rw [drop_slots h.safe (Nat.zero_le b.avail), List.drop_zero, Nat.sub_zero, ← h.empty.drop_eq,
      List.take_append_drop]
  unfold Resampler.read
  rw [Nat.zero_min]
  show ({ b with slots := (b.drop 0).slots } : Resampler) = b
  rw [hslots]

theorem Pristine.settled (h : Pristine b) : b.Settled := ⟨h.safe, h.kept.reach.emptyFrom⟩

/-! ### The count of samples -/

/-- What decides how many samples a frame gives, and how many there are. -/
def meter (b : Resampler) : Nat × Nat × Nat × Nat := (b.factor, b.offset, b.avail, b.slots.size)

theorem addDelta_meter (b : Resampler) (time : Nat) (delta : Int) :
    (b.addDelta time delta).meter = b.meter := by
  unfold addDelta
  split
  · rfl
  · unfold meter
    dsimp only
    rw [spread_size]

theorem addAll_meter (b : Resampler) (cs : List Change) : (b.addAll cs).meter = b.meter := by
  induction cs generalizing b with
  | nil => rfl
  | cons c cs ih => exact (ih _).trans (b.addDelta_meter c.time c.delta)

theorem clear_meter (h : b.meter = c.meter) : b.clear.meter = c.clear.meter := by
  unfold meter at h
  simp only [Prod.mk.injEq] at h
  obtain ⟨hfactor, -, -, hsize⟩ := h
  unfold meter clear
  dsimp only
  rw [Array.size_replicate, Array.size_replicate, hfactor, hsize]

theorem endFrame_meter (h : b.meter = c.meter) (clocks : Nat) :
    (b.endFrame clocks).meter = (c.endFrame clocks).meter := by
  unfold meter at h
  simp only [Prod.mk.injEq] at h
  obtain ⟨hfactor, hoffset, havail, hsize⟩ := h
  unfold meter endFrame slotOf position capacity
  dsimp only
  rw [hfactor, hoffset, havail, hsize]

theorem read_meter (h : b.meter = c.meter) (hb : b.Safe) (hc : c.Safe) (count : Nat) :
    (b.read count).2.meter = (c.read count).2.meter := by
  unfold meter at h
  simp only [Prod.mk.injEq] at h
  obtain ⟨hfactor, hoffset, havail, hsize⟩ := h
  have hdropped (b : Resampler) (hb : b.Safe) : (b.read count).2.meter =
      (b.factor, b.offset, b.avail - min count b.avail, b.slots.size) := by
    have hsize (level : Int) := drop_size (b := { b with integrator := level })
      ⟨hb.size, hb.avail⟩ (Nat.min_le_right count b.avail)
    unfold meter read
    dsimp only
    rw [hsize]
    rfl
  rw [hdropped b hb, hdropped c hc, hfactor, hoffset, havail, hsize]

end Resampler

/-! ### The output -/

namespace Stereo

variable {out next : Stereo} {time : Nat}

/-- While a frame runs: none of its changes lies behind its clock, on either side. -/
structure Playing (out : Stereo) (time : Nat) : Prop where
  side : ∀ s, (out.side s).Playing time
  meter : out.left.meter = out.right.meter

/-- Between two frames: on either side nothing lies behind the samples, of which there are as many
on the one as on the other. -/
structure Settled (out : Stereo) : Prop where
  side : ∀ s, (out.side s).Settled
  meter : out.left.meter = out.right.meter

/-- Only the sides matter. -/
theorem Playing.congr (h : out.Playing time) (hs : ∀ s, next.side s = out.side s) :
    next.Playing time := by
  have hleft : next.left = out.left := hs .left
  have hright : next.right = out.right := hs .right
  refine ⟨fun s => hs s ▸ h.side s, ?_⟩
  rw [hleft, hright]
  exact h.meter

theorem Settled.congr (h : out.Settled) (hs : ∀ s, next.side s = out.side s) : next.Settled := by
  have hleft : next.left = out.left := hs .left
  have hright : next.right = out.right := hs .right
  refine ⟨fun s => hs s ▸ h.side s, ?_⟩
  rw [hleft, hright]
  exact h.meter

theorem Settled.playing (h : out.Settled) (time : Nat) : out.Playing time :=
  ⟨fun s => (h.side s).playing time, h.meter⟩

theorem Playing.mono (h : out.Playing time) {later : Nat} (hlater : time ≤ later) :
    out.Playing later := ⟨fun s => (h.side s).mono hlater, h.meter⟩

theorem Playing.addAll (h : out.Playing time) {cs : List Change} (hcs : By time cs) :
    (out.addAll cs).Playing time := by
  have hheard (s : Side) : By time (heard s cs) := fun c hc => hcs c (List.mem_of_mem_filter hc)
  refine ⟨?_, ?_⟩
  · intro s
    rw [side_addAll]
    exact (h.side s).addAll (hheard s)
  · have hmeter (s : Side) : ((out.addAll cs).side s).meter = (out.side s).meter := by
      rw [side_addAll, Resampler.addAll_meter]
    exact (hmeter .left).trans (h.meter.trans (hmeter .right).symm)

theorem side_endFrame (out : Stereo) (clocks : Nat) (s : Side) :
    (out.endFrame clocks).side s = (out.side s).endFrame clocks := by
  cases s with
  | left => exact endFrame_left out clocks
  | right => exact endFrame_right out clocks

/-- Closing a frame behind its changes settles the output. -/
theorem Playing.endFrame (h : out.Playing time) {clocks : Nat} (hclocks : time ≤ clocks) :
    (out.endFrame clocks).Settled := by
  refine ⟨?_, ?_⟩
  · intro s
    rw [side_endFrame]
    exact (h.side s).endFrame hclocks
  · have hleft := side_endFrame out clocks .left
    have hright := side_endFrame out clocks .right
    exact (congrArg Resampler.meter hleft).trans
      ((Resampler.endFrame_meter h.meter clocks).trans (congrArg Resampler.meter hright).symm)

/-- The output with some pairs of samples read. -/
def take (out : Stereo) (count : Nat) : Stereo :=
  { out with left := (out.left.read count).2, right := (out.right.read count).2 }

theorem Settled.take (h : out.Settled) (count : Nat) : (out.take count).Settled := by
  refine ⟨?_, ?_⟩
  · intro s
    cases s with
    | left => exact (h.side .left).read count
    | right => exact (h.side .right).read count
  · exact Resampler.read_meter h.meter (h.side .left).safe (h.side .right).safe count

theorem Settled.take_zero (h : out.Settled) : out.take 0 = out := by
  have hleft : (out.left.read 0).2 = out.left := (h.side .left).read_zero
  have hright : (out.right.read 0).2 = out.right := (h.side .right).read_zero
  unfold Stereo.take
  rw [hleft, hright]

theorem discard_eq (out : Stereo) : out.discard = out.take out.samplesAvail := rfl

/-- Reading takes the samples that fit, also where there are none. -/
theorem Settled.readInterleaved_eq (h : out.Settled) (length : Nat) :
    (out.readInterleaved length).2 = out.take (min out.samplesAvail (length / 2)) := by
  unfold readInterleaved
  dsimp only
  split
  · -- An output that has not settled would differ here: nothing is read, and nothing cleared.
    rename_i hnone
    rw [hnone, h.take_zero]
  · rfl

/-- The sides have as many samples as the output. -/
theorem Settled.avail (h : out.Settled) (s : Side) : (out.side s).avail = out.samplesAvail := by
  have hsame : out.left.avail = out.right.avail := congrArg (fun k => k.2.2.1) h.meter
  unfold samplesAvail
  cases s with
  | left =>
      show out.left.avail = _
      omega
  | right =>
      show out.right.avail = _
      omega

theorem Settled.discard (h : out.Settled) : out.discard.Settled := h.take _

theorem Settled.readInterleaved (h : out.Settled) (length : Nat) :
    (out.readInterleaved length).2.Settled := by
  rw [h.readInterleaved_eq]
  exact h.take _

theorem length_interleave : ∀ (ls rs : List Int), ls.length = rs.length →
    (interleave ls rs).length = 2 * ls.length
  | [], [], _ => rfl
  | l :: ls, r :: rs, h => by
      have hrest := length_interleave ls rs (Nat.succ.inj h)
      simp only [interleave, List.length_cons, hrest]
      omega

/-- To read all samples is to drop them, and gives two numbers for each pair. -/
theorem Settled.read_all (h : out.Settled) {length : Nat}
    (hlength : 2 * out.samplesAvail ≤ length) :
    (out.readInterleaved length).2 = out.discard ∧
      (out.readInterleaved length).1.size = 2 * out.samplesAvail := by
  have hall : min out.samplesAvail (length / 2) = out.samplesAvail := by omega
  refine ⟨?_, ?_⟩
  · rw [h.readInterleaved_eq, hall, discard_eq]
  · have hsize (s : Side) : ((out.side s).read out.samplesAvail).1.toList.length =
        out.samplesAvail := by
      rw [Array.length_toList, Resampler.read_size, h.avail, Nat.min_self]
    have hpairs := length_interleave _ _ ((hsize .left).trans (hsize .right).symm)
    unfold Stereo.readInterleaved
    dsimp only
    rw [hall]
    split
    · rename_i hnone
      rw [hnone]
      rfl
    · exact hpairs.trans (congrArg (2 * ·) (hsize .left))

/-- Nothing is left on either side when all samples were dropped. -/
theorem Settled.discard_avail (h : out.Settled) (s : Side) : (out.discard.side s).avail = 0 := by
  have hside : (out.discard.side s).avail = (out.side s).avail -
      min out.samplesAvail (out.side s).avail := by
    cases s <;> rfl
  rw [hside, h.avail]
  omega

end Stereo

/-! ### The console's sound -/

namespace Mixer

variable {m : Mixer} {time : Nat}

/-- A write to a port at the clock of the frame. -/
theorem playing_operate (h : m.output.Playing time) {o : Operation} (hby : By time (m.changes o))
    (hopen : opening o m.output = m.output)
    (hclose : ∀ out, closing o out = out) : (m.operate o).output.Playing time := by
  refine (h.addAll hby).congr fun s => ?_
  rw [operate_side, hopen, hclose]

/-- Whatever is written to the ports, no change lies behind the clock. -/
theorem playing_stable (time : Nat) : Mixer.Stable time fun m => m.output.Playing time where
  writePsg {m} h v := playing_operate (o := .writePsg time v) h (m.psg.by_changesUntil time) rfl
    fun _ => rfl
  writeStereo {m} h v := playing_operate (o := .writeStereo time v) h
    (m.psg.by_stereoChanges time v m.output) rfl fun _ => rfl
  writeFm {m} h port v := by
    refine playing_operate (o := .writeFm time port v) h ?_ rfl fun _ => rfl
    unfold changes
    dsimp only
    split
    · exact .nil
    · cases m.fm with
      | none => exact .nil
      | some f => exact f.by_changesUntil time
  writeControl {m} h v := playing_operate (o := .writeControl time v) h (m.by_changesUntil time) rfl
    fun _ => rfl
  quiet h := h.congr fun s => by cases s <;> rfl

/-- Closing a frame behind its changes settles the output. -/
theorem settled_endFrame (h : m.output.Playing time) {clocks : Nat} (hclocks : time ≤ clocks) :
    (m.endFrame clocks).output.Settled := by
  rw [endFrame_output]
  exact ((h.mono hclocks).addAll (m.by_changesUntil clocks)).endFrame (Nat.le_refl clocks)

theorem settled_quiet (h : m.output.Settled) : m.quiet.output.Settled :=
  h.congr fun s => by cases s <;> rfl

theorem settled_readSamples (h : m.output.Settled) (length : Nat) :
    (m.readSamples length).2.output.Settled := h.readInterleaved length

theorem settled_discard (h : m.output.Settled) : m.discard.output.Settled := h.discard

/-- After power-on the output has settled. -/
theorem settled_new (timing : Standard) (sampleRate : Nat) (noise : NoiseVariant)
    (fmFitted : Bool) : (Mixer.new timing sampleRate noise fmFitted).output.Settled := by
  have hside := (Resampler.Pristine.new timing.clockHz sampleRate (capacity sampleRate)).settled
  unfold Mixer.new
  rw [applyMix_zero (by cases fmFitted <;> simp)]
  exact ⟨fun s => by cases s <;> exact hside, rfl⟩

/-- A reset empties the output. -/
theorem settled_reset (h : m.output.Settled) : m.reset.output.Settled := by
  have hside (s : Side) : ((m.output.clear).side s).Settled := by
    have hsize := (h.side s).safe.size
    cases s with
    | left => exact (Resampler.Pristine.clear hsize).settled
    | right => exact (Resampler.Pristine.clear hsize).settled
  have hmeter : m.output.clear.left.meter = m.output.clear.right.meter :=
    Resampler.clear_meter h.meter
  unfold reset
  rw [applyMix_zero]
  · exact ⟨hside, hmeter⟩
  · intro f hf
    cases hm : m.fm with
    | none => simp [hm] at hf
    | some g =>
        rw [hm] at hf
        obtain rfl : _ = f := Option.some.inj hf
        rfl

end Mixer

end MasterSystem.Sound
