import Mathlib
import MasterSystem.Proofs.Sound.Changes

/-! # No level is stuck

A channel remembers the level that it has put into the output, and so does the FM chip.  On each
side of the output the changes of level always sum to the levels of the channels that are routed
there and of the FM chip: a channel that falls silent or leaves a side takes with it all that it had
put there.

* **Net change.**  `net` is the sum of the changes that reach a side, `share` is what a part of the
  sound has put there.
* **Conservation.**  Every part of the sound adds changes whose sum is the change of its share
  (`Square.net_changes`, `Noise.net_changes`, `Psg.net_routeAll`, `FmChip.net_playChanges`), and so
  does every operation (`Mixer.share_operate`).
* **Runs.**  The changes since power-on or the last reset (`Mixer.ledger`) sum to the share of the
  whole (`Mixer.net_ledger`). -/

namespace MasterSystem.Sound

/-! ### Sums -/

/-- The sum of the changes that reach a side. -/
def net (s : Side) (cs : List Change) : Int := ((heard s cs).map Change.delta).sum

theorem net_append (s : Side) (cs ds : List Change) : net s (cs ++ ds) = net s cs + net s ds := by
  unfold net heard
  rw [List.filter_append, List.map_append, List.sum_append]

theorem net_cons (s : Side) (c : Change) (cs : List Change) :
    net s (c :: cs) = (if c.routing.reaches s then c.delta else 0) + net s cs := by
  unfold net heard
  rw [List.filter_cons]
  split
  · rw [List.map_cons, List.sum_cons]
  · rw [Int.zero_add]

theorem net_nil (s : Side) : net s [] = 0 := rfl

/-! ### Oscillators -/

/-- What a channel has put into a side. -/
def Oscillator.share (o : Oscillator) (s : Side) : Int :=
  if o.routing.reaches s then o.level else 0

theorem Oscillator.net_change (o : Oscillator) (time : Nat) (level : Int) (s : Side) :
    net s (o.change time level) = (if o.routing.reaches s then level else 0) - o.share s := by
  unfold change share
  split
  · rw [net_nil]
    split <;> omega
  · rw [net_cons, net_nil]
    dsimp only
    split <;> omega

namespace Square

/-- Edges go up and down in turn. -/
theorem net_edgeChanges (r : Routing) (period : Nat) (s : Side) : ∀ (n time : Nat) (delta : Int),
    net s (edgeChanges r period n time delta) =
      if r.reaches s then (if n % 2 = 1 then -delta else 0) else 0
  | 0, _, _ => by simp [edgeChanges, net_nil]
  | n + 1, time, delta => by
      rw [edgeChanges, net_cons, net_edgeChanges r period s n]
      dsimp only
      split
      · rcases Nat.mod_two_eq_zero_or_one n with h | h
        · rw [if_neg (by omega), if_pos (by omega), Int.add_zero]
        · rw [if_pos h, if_neg (by omega), Int.neg_neg, Int.add_left_neg]
      · rfl

theorem run_routing (s : Square) (start stop : Nat) (enabled : Bool) (out : Stereo) :
    (s.run start stop enabled out).1.osc.routing = s.osc.routing := by
  unfold run
  dsimp only
  rw [Oscillator.setLevel_eq, Oscillator.setLevel_eq]
  split <;> rfl

theorem run_level (s : Square) (start stop : Nat) (enabled : Bool) (out : Stereo) :
    (s.run start stop enabled out).1.osc.level =
      if s.osc.volume enabled = 0 ∨ s.period ≤ inaudible then 0
      else if s.edgesUntil start stop % 2 = 1 then -s.halfWave enabled else s.halfWave enabled := by
  unfold run halfWave edgesUntil
  dsimp only
  rw [Oscillator.setLevel_eq, Oscillator.setLevel_eq]
  split
  · rfl
  · dsimp only
    generalize (if s.period = 0 then 0 else edges (start + s.osc.delay) stop s.period) = n
    rcases Nat.mod_two_eq_zero_or_one n with h | h
    · rw [h]
      cases s.phase <;> rfl
    · rw [h]
      cases s.phase <;> simp

/-- A tone's changes sum to the change of its share. -/
theorem net_changes (s : Square) (start stop : Nat) (enabled : Bool) (out : Stereo) (side : Side) :
    net side (s.changes start stop enabled) =
      (s.run start stop enabled out).1.osc.share side - s.osc.share side := by
  have hafter : (s.run start stop enabled out).1.osc.share side =
      if s.osc.routing.reaches side then (s.run start stop enabled out).1.osc.level else 0 := by
    rw [← run_routing s start stop enabled out]
    rfl
  rw [hafter, run_level]
  unfold changes
  split
  · rw [Oscillator.net_change]
  · rw [net_append, Oscillator.net_change, net_edgeChanges]
    split
    · split <;> omega
    · exact Int.add_zero _

end Square

namespace Noise

/-- The last edge's change tells what all of them sum to. -/
theorem net_shiftChanges (r : Routing) (taps : UInt16) (period : Nat) (s : Side) :
    ∀ (n time : Nat) (shifter : UInt16) (delta : Int) (out : Stereo),
      2 * net s (shiftChanges r taps period n time shifter delta) =
        if r.reaches s then
          (playShifts r taps period n time shifter delta out).2.1 - delta else 0
  | 0, _, _, _, _ => by simp [shiftChanges, playShifts, net_nil]
  | n + 1, time, shifter, delta, out => by
      rw [shiftChanges, playShifts]
      split
      · have ih := net_shiftChanges r taps period s n (time + period) (shift shifter taps) (-delta)
          (out.addDelta r time (-delta))
        rw [net_cons]
        dsimp only
        split <;> rename_i hside
        · rw [if_pos hside] at ih
          omega
        · rw [if_neg hside] at ih
          omega
      · exact net_shiftChanges r taps period s n (time + period) (shift shifter taps) delta out

/-- The noise's changes sum to the change of its share. -/
theorem net_changes (s : Noise) (start stop tone : Nat) (enabled : Bool) (out : Stereo)
    (side : Side) :
    net side (s.changes start stop (s.shiftPeriod tone) enabled) =
      (s.run start stop tone enabled out).1.osc.share side - s.osc.share side := by
  unfold run changes
  dsimp only
  have hlevel : (if s.shifter &&& 1 == 0 then s.osc.volume enabled else -s.osc.volume enabled) =
      s.bitLevel enabled := rfl
  rw [hlevel, net_append, Oscillator.net_change, Oscillator.setLevel_eq]
  dsimp only
  by_cases hsilent : s.osc.volume enabled = 0 ∨ stop ≤ start + s.osc.delay
  · rw [if_pos hsilent, if_pos hsilent, net_nil, Int.add_zero]
    rfl
  · rw [if_neg hsilent, if_neg hsilent]
    have hshifts := net_shiftChanges s.osc.routing s.taps (s.shiftPeriod tone) side
      (edges (start + s.osc.delay) stop (s.shiftPeriod tone)) (start + s.osc.delay) s.shifter
      (s.bitLevel enabled * 2) (out.addAll (s.osc.change start (s.bitLevel enabled)))
    generalize playShifts _ _ _ _ _ _ _ _ = played at hshifts ⊢
    unfold Oscillator.share
    dsimp only
    split <;> rename_i hside
    · rw [if_pos hside] at hshifts
      generalize net side (shiftChanges _ _ _ _ _ _ _) = sum at hshifts ⊢
      generalize s.bitLevel enabled = level at hshifts ⊢
      generalize played.2.1 = last at hshifts ⊢
      omega
    · rw [if_neg hside] at hshifts
      omega

end Noise

/-! ### The tone generator -/

namespace Psg

/-- What the four channels have put into a side. -/
def share (p : Psg) (s : Side) : Int := (channels.map fun i => (p.osc i).share s).sum

/-- Channels that differ in other things have put as much into a side. -/
theorem share_congr {p q : Psg} (h : ∀ i < 4, (q.osc i).level = (p.osc i).level ∧
    (q.osc i).routing = (p.osc i).routing) (s : Side) : q.share s = p.share s := by
  unfold share
  congr 1
  apply List.map_congr_left
  intro i hi
  have hlt : i < 4 := (by decide : ∀ i ∈ channels, i < 4) i hi
  unfold Oscillator.share
  rw [(h i hlt).1, (h i hlt).2]

theorem net_changesUntil (p : Psg) (time : Nat) (out : Stereo) (s : Side) :
    net s (p.changesUntil time) = (p.runUntil time out).1.share s - p.share s := by
  unfold changesUntil runUntil
  split
  · rw [net_nil, Int.sub_self]
  · dsimp only
    have h0 := p.tones[0].net_changes p.time time p.enabled out s
    generalize p.tones[0].run p.time time p.enabled out = r0 at h0 ⊢
    have h1 := p.tones[1].net_changes p.time time p.enabled r0.2 s
    generalize p.tones[1].run p.time time p.enabled r0.2 = r1 at h1 ⊢
    have h2 := p.tones[2].net_changes p.time time p.enabled r1.2 s
    have hperiod := run_period p.tones[2] p.time time p.enabled r1.2
    generalize p.tones[2].run p.time time p.enabled r1.2 = r2 at h2 hperiod ⊢
    have h3 := p.noise.net_changes p.time time p.tones[2].period p.enabled r2.2 s
    rw [hperiod]
    generalize p.noise.run p.time time p.tones[2].period p.enabled r2.2 = r3 at h3 ⊢
    have hchanges : channels.flatMap (p.channelChanges time) =
        p.tones[0].changes p.time time p.enabled ++ (p.tones[1].changes p.time time p.enabled ++
          (p.tones[2].changes p.time time p.enabled ++
            (p.noise.changes p.time time (p.noise.shiftPeriod p.tones[2].period) p.enabled ++
              []))) := rfl
    have hshare (q : Psg) : q.share s =
        q.tones[0].osc.share s + (q.tones[1].osc.share s + (q.tones[2].osc.share s +
          (q.noise.osc.share s + 0))) := rfl
    rw [hchanges, net_append, net_append, net_append, net_append, net_nil, h0, h1, h2, h3, hshare,
      hshare]
    dsimp only [Vector.getElem_mk, List.getElem_toArray, List.getElem_cons_zero,
      List.getElem_cons_succ]
    omega

/-- Putting another oscillator in a channel's place. -/
theorem share_setOsc (p : Psg) {i : Nat} (hi : i < 4) (o : Oscillator) (s : Side) :
    (p.setOsc i o).share s = p.share s - (p.osc i).share s + o.share s := by
  have hne {j : Nat} (hj : j < 4) (h : i ≠ j) := osc_setOsc_ne p hi hj h o
  have hself := osc_setOsc_self p i o
  unfold share channels
  simp only [List.map_cons, List.map_nil, List.sum_cons, List.sum_nil]
  obtain rfl | rfl | rfl | rfl : i = 0 ∨ i = 1 ∨ i = 2 ∨ i = 3 := by omega
  all_goals
    rw [hself, hne (by decide) (by decide), hne (by decide) (by decide),
      hne (by decide) (by decide)]
    omega

/-- A channel leaves nothing behind on the side that it leaves. -/
theorem net_routeChange (p : Psg) {i : Nat} (hi : i < 4) (r : Routing) (time : Nat) (out : Stereo)
    (s : Side) :
    net s (p.routeChange i r time) = (p.route i r time out).1.share s - p.share s := by
  unfold routeChange route
  dsimp only
  by_cases hsame : (p.osc i).routing = r
  · rw [if_pos (.inl hsame), if_pos hsame, net_nil, Int.sub_self]
  · have hzero : ({ p.osc i with level := 0, routing := r } : Oscillator).share s = 0 := by
      unfold Oscillator.share
      exact ite_self 0
    rw [if_neg hsame]
    dsimp only
    rw [share_setOsc p hi, hzero]
    unfold Oscillator.share
    by_cases hlevel : (p.osc i).level = 0
    · rw [if_pos (.inr hlevel), net_nil, hlevel, ite_self]
      omega
    · rw [if_neg (not_or.2 ⟨hsame, hlevel⟩), net_cons, net_nil]
      dsimp only
      split <;> omega

theorem net_routeAll (p : Psg) (data : UInt8) (time : Nat) (side : Side) : ∀ (channels : List Nat)
    (s : Psg × Stereo), channels.Nodup → (∀ i ∈ channels, i < 4) →
    (∀ i ∈ channels, s.1.osc i = p.osc i) →
    net side (p.routeChanges data time channels) =
      (routeAll data time channels s).1.share side - s.1.share side
  | [], s, _, _, _ => (Int.sub_self (s.1.share side)).symm
  | i :: channels, s, hnodup, hlt, hosc => by
      obtain ⟨hi, hnodup⟩ := List.nodup_cons.1 hnodup
      have hchange := routeChange_congr (hosc i List.mem_cons_self) (routingOf data i) time
      have hfirst := net_routeChange s.1 (hlt i List.mem_cons_self) (routingOf data i) time s.2 side
      have hrest := net_routeAll p data time side channels
        (s.1.route i (routingOf data i) time s.2) hnodup
        (fun j hj => hlt j (List.mem_cons_of_mem i hj)) (route_osc hi hlt hosc _ time s.2)
      have hall : (routeAll data time (i :: channels) s).1 =
          (routeAll data time channels (s.1.route i (routingOf data i) time s.2)).1 := rfl
      rw [hchange] at hfirst
      unfold routeChanges at hrest ⊢
      rw [List.flatMap_cons, net_append, hfirst, hrest, hall]
      omega

theorem net_stereoChanges (p : Psg) (time : Nat) (data : UInt8) (out : Stereo) (s : Side) :
    net s (p.stereoChanges time data out) =
      (p.writeStereo time data out).1.share s - p.share s := by
  have hroute := net_routeAll (p.runUntil time out).1 data time s channels
    ({ (p.runUntil time out).1 with stereo := data }, (p.runUntil time out).2) (by decide)
    (by decide) (fun _ _ => rfl)
  have hstereo : ({ (p.runUntil time out).1 with stereo := data } : Psg).share s =
      (p.runUntil time out).1.share s := rfl
  rw [writeStereo_eq]
  dsimp only
  unfold stereoChanges rerouted
  rw [net_append, net_changesUntil p time out, hroute, hstereo]
  omega

/-- A command sets up a channel, and takes effect when the channel is played. -/
theorem share_command (p : Psg) (data : UInt8) (s : Side) :
    (p.command data).share s = p.share s := by
  have hlatch : (if data &&& 0x80 != 0 then { p with latch := data } else p).share s =
      p.share s := by
    split <;> rfl
  unfold command
  dsimp only
  rw [← hlatch]
  generalize (if data &&& 0x80 != 0 then { p with latch := data } else p) = q
  have hchannel : channelOf q.latch < 4 := by
    unfold channelOf
    rw [UInt8.toNat_and]
    exact Nat.lt_of_le_of_lt Nat.and_le_right (by decide)
  split
  · rw [share_setOsc q hchannel]
    exact Int.sub_add_cancel _ _
  · split
    · rename_i hlt
      refine share_congr (fun i _ => ?_) s
      unfold osc
      split
      · dsimp only
        by_cases hi : channelOf q.latch = i
        · subst hi
          rw [Vector.getElem_set_self]
          exact ⟨rfl, rfl⟩
        · rw [Vector.getElem_set_ne _ _ hi]
          exact ⟨rfl, rfl⟩
      · exact ⟨rfl, rfl⟩
    · rfl

theorem share_new (variant : NoiseVariant) (s : Side) : (new variant).share s = 0 := by
  have hquiet : quiet.share s = 0 := by
    unfold Oscillator.share
    exact ite_self 0
  have hosc (i : Nat) : (new variant).osc i = quiet := by
    unfold osc new
    split
    · dsimp only
      rw [Vector.getElem_replicate]
    · rfl
  unfold share channels
  simp only [List.map_cons, List.map_nil, List.sum_cons, List.sum_nil, hosc, hquiet]
  rfl

end Psg

/-! ### The FM chip -/

namespace FmChip

/-- The chip's changes sum to the difference of its samples, on either side. -/
theorem net_playChanges (s : Side) : ∀ (n : Nat) (f : FmChip) (out : Stereo),
    net s (playChanges n f) = (play n f out).1.lastOutput - f.lastOutput
  | 0, f, _ => (Int.sub_self f.lastOutput).symm
  | n + 1, f, out => by
      have hlast := sample_lastOutput f
      have hcenter : Routing.center.reaches s = true := by
        cases s <;> rfl
      unfold play playChanges
      dsimp only
      generalize (if f.sample.2.enabled then f.sample.1 else 0) = level
      generalize (if level = f.sample.2.lastOutput then out else _) = next
      rw [net_append, net_playChanges s n _ next, ← hlast]
      dsimp only
      split
      · rename_i hsame
        rw [net_nil, hsame, Int.zero_add]
      · rw [net_cons, net_nil]
        dsimp only
        rw [if_pos hcenter]
        omega

theorem net_changesUntil (f : FmChip) (time : Nat) (out : Stereo) (s : Side) :
    net s (f.changesUntil time) = (f.runUntil time out).1.lastOutput - f.lastOutput :=
  net_playChanges s _ f out

theorem store_lastOutput (f : FmChip) (v : UInt8) : (f.store v).lastOutput = f.lastOutput := by
  unfold store
  dsimp only
  split
  · rfl
  · split <;> rfl

end FmChip

/-! ### The console's sound -/

namespace Mixer

/-- What all of the sound has put into a side. -/
def share (m : Mixer) (s : Side) : Int := m.psg.share s + m.fm.elim 0 FmChip.lastOutput

theorem share_applyMix (m : Mixer) (time : Nat) (s : Side) :
    (m.applyMix time).share s = m.share s + net s (m.changesUntil time) := by
  unfold applyMix changesUntil share
  dsimp only [Chip.setEnabled]
  rw [net_append, m.psg.net_changesUntil time m.output]
  generalize m.psg.runUntil time m.output = p
  have hpsg : ({ p.1 with enabled := m.mix.psg } : Psg).share s = p.1.share s := rfl
  cases m.fm with
  | none =>
      dsimp only [setFmEnabled, Option.elim]
      rw [hpsg, net_nil]
      omega
  | some f =>
      dsimp only [setFmEnabled, Option.elim, Chip.setEnabled]
      rw [hpsg, f.net_changesUntil time p.2]
      omega

theorem share_endFrame (m : Mixer) (clocks : Nat) (s : Side) :
    (m.endFrame clocks).share s = m.share s + net s (m.changesUntil clocks) := by
  unfold endFrame changesUntil share
  dsimp only [Chip.endFrame, Chip.runUntil, Chip.rebase]
  rw [net_append, m.psg.net_changesUntil clocks m.output]
  generalize m.psg.runUntil clocks m.output = p
  have hpsg : ({ p.1 with time := p.1.time - clocks } : Psg).share s = p.1.share s := rfl
  cases m.fm with
  | none =>
      dsimp only [Option.elim]
      rw [hpsg, net_nil]
      omega
  | some f =>
      dsimp only [Option.elim]
      rw [hpsg, f.net_changesUntil clocks p.2]
      omega

theorem share_writePsg (m : Mixer) (time : Nat) (v : UInt8) (s : Side) :
    (m.writePsg time v).share s = m.share s + net s (m.psg.changesUntil time) := by
  have hplay := m.psg.net_changesUntil time m.output s
  have hcommand := (m.psg.runUntil time m.output).1.share_command v s
  unfold writePsg Psg.writeData share
  dsimp only
  omega

theorem share_writeStereo (m : Mixer) (time : Nat) (v : UInt8) (s : Side) :
    (m.writeStereo time v).share s =
      m.share s + net s (m.psg.stereoChanges time v m.output) := by
  have hwrite := m.psg.net_stereoChanges time v m.output s
  unfold writeStereo share
  dsimp only
  omega

theorem share_writeFm (m : Mixer) (time : Nat) (port v : UInt8) (s : Side) :
    (m.writeFm time port v).share s =
      m.share s + net s (m.changes (.writeFm time port v)) := by
  unfold writeFm changes share
  cases hfm : m.fm with
  | none =>
      dsimp only
      rw [hfm, Option.elim_none, Option.elim_none, ite_self, net_nil, Int.add_zero, Int.add_zero]
  | some f =>
      dsimp only [Option.elim, Chip.write]
      split
      · rw [net_nil, Int.add_zero]
        rfl
      · have hplay := f.net_changesUntil time m.output s
        have hstore := (f.runUntil time m.output).1.store_lastOutput v
        unfold FmChip.writeData
        dsimp only
        omega

theorem share_writeControl (m : Mixer) (time : Nat) (v : UInt8) (s : Side) :
    (m.writeControl time v).share s = m.share s + net s (m.changesUntil time) := by
  unfold writeControl
  rw [share_applyMix]
  rfl

theorem share_cleared (m : Mixer) (s : Side) : m.cleared.share s = 0 := by
  have hpsg : m.cleared.psg.share s = 0 := Psg.share_new _ s
  unfold share
  rw [hpsg]
  unfold cleared
  dsimp only
  cases m.fm <;> rfl

/-- What an operation leaves of what was put into the output before it. -/
def kept : Operation → List Change → List Change
  | .reset, _ => []
  | _, cs => cs

/-- Every operation keeps the sum of the changes and the share in step. -/
theorem share_operate (m : Mixer) (o : Operation) (s : Side) {cs : List Change}
    (h : net s cs = m.share s) : net s (kept o cs ++ m.changes o) = (m.operate o).share s := by
  rw [net_append]
  cases o with
  | writePsg time v =>
      show net s cs + net s (m.psg.changesUntil time) = (m.writePsg time v).share s
      rw [h, share_writePsg]
  | writeStereo time v =>
      show net s cs + net s (m.psg.stereoChanges time v m.output) = (m.writeStereo time v).share s
      rw [h, share_writeStereo]
  | writeFm time port v =>
      show net s cs + net s (m.changes (.writeFm time port v)) = (m.writeFm time port v).share s
      rw [h, share_writeFm]
  | writeControl time v =>
      show net s cs + net s (m.changesUntil time) = (m.writeControl time v).share s
      rw [h, share_writeControl]
  | endFrame clocks =>
      show net s cs + net s (m.changesUntil clocks) = (m.endFrame clocks).share s
      rw [h, share_endFrame]
  | readSamples length => exact (Int.add_zero _).trans h
  | discard => exact (Int.add_zero _).trans h
  | reset =>
      have hmix := m.cleared.share_applyMix 0 s
      rw [share_cleared] at hmix
      exact hmix.symm

/-- The changes that are in the output after some operations: those since power-on or the last
reset. -/
def ledger : Mixer → List Change → List Operation → List Change
  | _, cs, [] => cs
  | m, cs, o :: os => ledger (m.operate o) (kept o cs ++ m.changes o) os

theorem net_ledger (s : Side) : ∀ (os : List Operation) (m : Mixer) (cs : List Change),
    net s cs = m.share s → net s (ledger m cs os) = (os.foldl operate m).share s
  | [], _, _, h => h
  | o :: os, m, _, h => net_ledger s os (m.operate o) _ (m.share_operate o s h)

/-- The sound of a console whose chips have just been switched on, before the mix control is in
force. -/
def unmixed (timing : Standard) (sampleRate : Nat) (noise : NoiseVariant) (fmFitted : Bool) :
    Mixer where
  psg := .new noise
  fm := if fmFitted then some {} else none
  control := 0
  output := .new timing.clockHz sampleRate (capacity sampleRate)
  sampleRate := sampleRate

/-- The changes that power-on adds. -/
def firstChanges (timing : Standard) (sampleRate : Nat) (noise : NoiseVariant)
    (fmFitted : Bool) : List Change :=
  (unmixed timing sampleRate noise fmFitted).changesUntil 0

theorem net_firstChanges (timing : Standard) (sampleRate : Nat) (noise : NoiseVariant)
    (fmFitted : Bool) (s : Side) :
    net s (firstChanges timing sampleRate noise fmFitted) =
      (new timing sampleRate noise fmFitted).share s := by
  have hmix := (unmixed timing sampleRate noise fmFitted).share_applyMix 0 s
  have hzero : (unmixed timing sampleRate noise fmFitted).share s = 0 := by
    have hpsg : (unmixed timing sampleRate noise fmFitted).psg.share s = 0 := Psg.share_new _ s
    unfold share
    rw [hpsg]
    cases fmFitted <;> rfl
  rw [hzero, Int.zero_add] at hmix
  exact hmix.symm

/-- **No level is stuck.**  Whatever is done to the sound, and at whatever times, the changes of
level that a side of the output got since power-on or the last reset sum to the levels of the
channels that are now routed to it and of the FM chip.  The changes written down are all that every
operation adds to either side. -/
theorem no_stuck_level (timing : Standard) (sampleRate : Nat) (noise : NoiseVariant)
    (fmFitted : Bool) (os : List Operation) (s : Side) :
    net s (ledger (new timing sampleRate noise fmFitted)
        (firstChanges timing sampleRate noise fmFitted) os) =
      (os.foldl operate (new timing sampleRate noise fmFitted)).share s ∧
    (new timing sampleRate noise fmFitted).output.side s =
      ((unmixed timing sampleRate noise fmFitted).output.addAll
        (firstChanges timing sampleRate noise fmFitted)).side s ∧
    (∀ (m : Mixer) (o : Operation), (m.operate o).output.side s =
      (closing o ((opening o m.output).addAll (m.changes o))).side s) ∧
    (∀ (out : Stereo) (cs : List Change),
      (out.addAll cs).side s = (out.side s).addAll (heard s cs)) := by
  refine ⟨net_ledger s os _ _ (net_firstChanges timing sampleRate noise fmFitted s), ?_, ?_, ?_⟩
  · exact congrArg (·.side s) ((unmixed timing sampleRate noise fmFitted).applyMix_output 0)
  · intro m o
    exact m.operate_side o s
  · intro out cs
    exact Stereo.side_addAll s cs out

end Mixer

end MasterSystem.Sound
