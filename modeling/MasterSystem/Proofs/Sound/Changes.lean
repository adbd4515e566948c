import MasterSystem.Proofs.Sound.Safety

/-! # What the chips add to the output

The output keeps no record of the changes of level that are added to it.  Here they are written down
for every operation of the sound, in the order in which they are added, and adding them to the
output is shown to be what the operation does to it (`Mixer.operate_side`).

* **Changes.**  A list of changes is added from left to right (`Stereo.addAll`); a side of the
  output gets those that are routed to it (`Stereo.side_addAll`).
* **Oscillators.**  A channel moves to the level of its half wave and from there plays its edges
  (`Square.run_output`, `Noise.run_output`).
* **Chips.**  The tone generator plays its channels in turn and takes the level of a channel off the
  side that the channel leaves (`Psg.runUntil_output`, `Psg.rerouted_output`); the FM chip plays
  the differences of its samples (`FmChip.runUntil_output`). -/

namespace MasterSystem.Sound

/-! ### Changes -/

/-- A change of level for the sides that a routing reaches. -/
structure Change where
  routing : Routing
  time : Nat
  delta : Int

/-- A side of the output. -/
inductive Side where
  | left
  | right

/-- Whether a routing reaches a side. -/
def Routing.reaches (r : Routing) : Side → Bool
  | .left => r.toLeft
  | .right => r.toRight

/-- The changes that reach a side. -/
def heard (s : Side) (cs : List Change) : List Change := cs.filter fun c => c.routing.reaches s

/-- A resampler after some changes of level. -/
def Resampler.addAll (b : Resampler) (cs : List Change) : Resampler :=
  cs.foldl (fun b c => b.addDelta c.time c.delta) b

namespace Stereo

/-- The resampler of a side. -/
def side (out : Stereo) : Side → Resampler
  | .left => out.left
  | .right => out.right

/-- The output after some changes of level. -/
def addAll (out : Stereo) (cs : List Change) : Stereo :=
  cs.foldl (fun out c => out.addDelta c.routing c.time c.delta) out

theorem addAll_append (out : Stereo) (cs ds : List Change) :
    out.addAll (cs ++ ds) = (out.addAll cs).addAll ds := List.foldl_append

theorem side_addLeft (out : Stereo) (time : Nat) (delta : Int) :
    (out.addLeft time delta).left = out.left.addDelta time delta ∧
      (out.addLeft time delta).right = out.right := by
  unfold addLeft
  dsimp only
  rw [noteIf_left, noteIf_right]
  exact ⟨rfl, rfl⟩

theorem side_addRight (out : Stereo) (time : Nat) (delta : Int) :
    (out.addRight time delta).left = out.left ∧
      (out.addRight time delta).right = out.right.addDelta time delta := by
  unfold addRight
  dsimp only
  rw [noteIf_left, noteIf_right]
  exact ⟨rfl, rfl⟩

theorem side_addDelta (out : Stereo) (r : Routing) (time : Nat) (delta : Int) (s : Side) :
    (out.addDelta r time delta).side s =
      if r.reaches s then (out.side s).addDelta time delta else out.side s := by
  obtain ⟨hll, hlr⟩ := side_addLeft out time delta
  obtain ⟨hrl, hrr⟩ := side_addRight out time delta
  obtain ⟨hcl, hcr⟩ := side_addRight (out.addLeft time delta) time delta
  cases r <;> cases s
  · rfl
  · rfl
  · exact hrl
  · exact hrr
  · exact hll
  · exact hlr
  · exact hcl.trans hll
  · exact hcr.trans (by rw [hlr]; rfl)

/-- A side gets the changes that reach it. -/
theorem side_addAll (s : Side) : ∀ (cs : List Change) (out : Stereo),
    (out.addAll cs).side s = (out.side s).addAll (heard s cs)
  | [], _ => rfl
  | c :: cs, out => by
      have hrest := side_addAll s cs (out.addDelta c.routing c.time c.delta)
      rw [side_addDelta] at hrest
      refine hrest.trans ?_
      unfold heard
      rw [List.filter_cons]
      split <;> rfl

end Stereo

/-! ### Oscillators -/

/-- The change that brings a channel to a level. -/
def Oscillator.change (o : Oscillator) (time : Nat) (level : Int) : List Change :=
  if level - o.level = 0 then [] else [⟨o.routing, time, level - o.level⟩]

theorem Oscillator.setLevel_eq (o : Oscillator) (time : Nat) (level : Int) (out : Stereo) :
    o.setLevel time level out = ({ o with level := level }, out.addAll (o.change time level)) := by
  unfold setLevel change
  dsimp only
  split
  · rename_i hsame
    obtain rfl : level = o.level := by omega
    rfl
  · rfl

namespace Square

/-- The changes of `n` edges from `time` on. -/
def edgeChanges (routing : Routing) (period : Nat) : Nat → Nat → Int → List Change
  | 0, _, _ => []
  | n + 1, time, delta =>
    ⟨routing, time, -delta⟩ :: edgeChanges routing period n (time + period) (-delta)

/-- The edges of a tone between two clocks. -/
def edgesUntil (s : Square) (start stop : Nat) : Nat :=
  if s.period = 0 then 0 else edges (start + s.osc.delay) stop s.period

/-- The level of the half wave that a tone is in. -/
def halfWave (s : Square) (enabled : Bool) : Int :=
  if s.phase then s.osc.volume enabled else -s.osc.volume enabled

/-- The changes that a tone adds between two clocks. -/
def changes (s : Square) (start stop : Nat) (enabled : Bool) : List Change :=
  if s.osc.volume enabled = 0 ∨ s.period ≤ inaudible then s.osc.change start 0
  else
    s.osc.change start (s.halfWave enabled) ++
      edgeChanges s.osc.routing s.period (s.edgesUntil start stop) (start + s.osc.delay)
        (s.halfWave enabled * 2)

theorem playEdges_eq (routing : Routing) (period : Nat) : ∀ (n time : Nat) (delta : Int)
    (out : Stereo), playEdges routing period n time delta out =
      out.addAll (edgeChanges routing period n time delta)
  | 0, _, _, _ => rfl
  | n + 1, time, delta, _ => playEdges_eq routing period n (time + period) (-delta) _

theorem run_output (s : Square) (start stop : Nat) (enabled : Bool) (out : Stereo) :
    (s.run start stop enabled out).2 = out.addAll (s.changes start stop enabled) := by
  unfold run changes
  dsimp only
  split
  · rw [Oscillator.setLevel_eq]
  · rw [Oscillator.setLevel_eq, playEdges_eq, Stereo.addAll_append]
    rfl

end Square

namespace Noise

/-- The changes of `n` shifts from `time` on. -/
def shiftChanges (routing : Routing) (taps : UInt16) (period : Nat) :
    Nat → Nat → UInt16 → Int → List Change
  | 0, _, _, _ => []
  | n + 1, time, shifter, delta =>
    if turns shifter then
      ⟨routing, time, -delta⟩ ::
        shiftChanges routing taps period n (time + period) (shift shifter taps) (-delta)
    else shiftChanges routing taps period n (time + period) (shift shifter taps) delta

/-- The level of the bit that the noise puts out. -/
def bitLevel (s : Noise) (enabled : Bool) : Int :=
  if s.shifter &&& 1 == 0 then s.osc.volume enabled else -s.osc.volume enabled

/-- The changes that the noise adds between two clocks, with `period` clocks between shifts. -/
def changes (s : Noise) (start stop period : Nat) (enabled : Bool) : List Change :=
  s.osc.change start (s.bitLevel enabled) ++
    if s.osc.volume enabled = 0 ∨ stop ≤ start + s.osc.delay then []
    else
      shiftChanges s.osc.routing s.taps period (edges (start + s.osc.delay) stop period)
        (start + s.osc.delay) s.shifter (s.bitLevel enabled * 2)

theorem playShifts_eq (routing : Routing) (taps : UInt16) (period : Nat) : ∀ (n time : Nat)
    (shifter : UInt16) (delta : Int) (out : Stereo),
    (playShifts routing taps period n time shifter delta out).2.2 =
      out.addAll (shiftChanges routing taps period n time shifter delta)
  | 0, _, _, _, _ => rfl
  | n + 1, time, shifter, delta, out => by
      unfold playShifts shiftChanges
      dsimp only
      split
      · exact playShifts_eq routing taps period n _ _ _ _
      · exact playShifts_eq routing taps period n _ _ _ _

theorem run_output (s : Noise) (start stop tone : Nat) (enabled : Bool) (out : Stereo) :
    (s.run start stop tone enabled out).2 =
      out.addAll (s.changes start stop (s.shiftPeriod tone) enabled) := by
  unfold run changes bitLevel
  dsimp only
  generalize (if s.shifter &&& 1 == 0 then s.osc.volume enabled else -s.osc.volume enabled) = level
  rw [Oscillator.setLevel_eq, Stereo.addAll_append]
  dsimp only
  split
  · rfl
  · exact playShifts_eq _ _ _ _ _ _ _ _

end Noise

/-! ### The tone generator -/

namespace Psg

/-- The channels, in the order in which they play. -/
def channels : List Nat := [0, 1, 2, 3]

/-- The changes that a channel adds up to a clock. -/
def channelChanges (p : Psg) (time channel : Nat) : List Change :=
  if h : channel < 3 then p.tones[channel].changes p.time time p.enabled
  else p.noise.changes p.time time p.noisePeriod p.enabled

/-- The changes that the chip adds up to a clock. -/
def changesUntil (p : Psg) (time : Nat) : List Change :=
  if time ≤ p.time then [] else channels.flatMap (p.channelChanges time)

theorem run_period (s : Square) (start stop : Nat) (enabled : Bool) (out : Stereo) :
    (s.run start stop enabled out).1.period = s.period := by
  unfold Square.run
  dsimp only
  split <;> rfl

theorem runUntil_output (p : Psg) (time : Nat) (out : Stereo) :
    (p.runUntil time out).2 = out.addAll (p.changesUntil time) := by
  unfold runUntil changesUntil
  split
  · rfl
  · dsimp only [channels]
    rw [Noise.run_output, Square.run_output, Square.run_output, Square.run_output, run_period,
      List.flatMap_cons, List.flatMap_cons, List.flatMap_cons, List.flatMap_singleton,
      Stereo.addAll_append, Stereo.addAll_append, Stereo.addAll_append]
    rfl

/-- The change that takes a channel off the side that it leaves. -/
def routeChange (p : Psg) (channel : Nat) (routing : Routing) (time : Nat) : List Change :=
  let o := p.osc channel
  if o.routing = routing ∨ o.level = 0 then [] else [⟨o.routing, time, -o.level⟩]

theorem route_output (p : Psg) (channel : Nat) (routing : Routing) (time : Nat) (out : Stereo) :
    (p.route channel routing time out).2 = out.addAll (p.routeChange channel routing time) := by
  unfold route routeChange
  dsimp only
  by_cases hsame : (p.osc channel).routing = routing
  · rw [if_pos hsame, if_pos (.inl hsame)]
    rfl
  · rw [if_neg hsame]
    dsimp only
    by_cases hlevel : (p.osc channel).level = 0
    · rw [if_pos hlevel, if_pos (.inr hlevel)]
      rfl
    · rw [if_neg hlevel, if_neg (not_or.2 ⟨hsame, hlevel⟩)]
      rfl

theorem osc_setOsc_self (p : Psg) (i : Nat) (o : Oscillator) : (p.setOsc i o).osc i = o := by
  unfold setOsc osc
  by_cases h : i < 3
  · rw [dif_pos h, dif_pos h]
    dsimp only
    rw [Vector.getElem_set_self]
  · rw [dif_neg h, dif_neg h]

theorem osc_setOsc_ne (p : Psg) {i j : Nat} (hi : i < 4) (hj : j < 4) (h : i ≠ j)
    (o : Oscillator) : (p.setOsc i o).osc j = p.osc j := by
  unfold setOsc osc
  by_cases hi3 : i < 3
  · rw [dif_pos hi3]
    split
    · dsimp only
      rw [Vector.getElem_set_ne _ _ h]
    · rfl
  · rw [dif_neg hi3, dif_pos (by omega), dif_pos (by omega)]

theorem route_osc_ne (p : Psg) {i j : Nat} (hi : i < 4) (hj : j < 4) (h : i ≠ j) (r : Routing)
    (time : Nat) (out : Stereo) : (p.route i r time out).1.osc j = p.osc j := by
  unfold route
  dsimp only
  split
  · rfl
  · exact osc_setOsc_ne p hi hj h _

/-- Routing a channel leaves those that come after it as they were. -/
theorem route_osc {p q : Psg} {i : Nat} {channels : List Nat} (hi : i ∉ channels)
    (hlt : ∀ j ∈ i :: channels, j < 4) (h : ∀ j ∈ i :: channels, q.osc j = p.osc j) (r : Routing)
    (time : Nat) (out : Stereo) : ∀ j ∈ channels, (q.route i r time out).1.osc j = p.osc j := by
  intro j hj
  have hij : i ≠ j := fun h => hi (h ▸ hj)
  have hj := List.mem_cons_of_mem i hj
  rw [route_osc_ne q (hlt i List.mem_cons_self) (hlt j hj) hij]
  exact h j hj

theorem routeChange_congr {p q : Psg} {i : Nat} (h : q.osc i = p.osc i) (r : Routing)
    (time : Nat) : q.routeChange i r time = p.routeChange i r time := by
  unfold routeChange
  rw [h]

/-- The chip and its output after some channels are routed as a byte says. -/
def routeAll (data : UInt8) (time : Nat) (channels : List Nat) (s : Psg × Stereo) : Psg × Stereo :=
  channels.foldl (fun s i => s.1.route i (routingOf data i) time s.2) s

/-- The changes that this adds. -/
def routeChanges (p : Psg) (data : UInt8) (time : Nat) (channels : List Nat) : List Change :=
  channels.flatMap fun i => p.routeChange i (routingOf data i) time

/-- Channels are routed in turn, none of which bears on another. -/
theorem routeAll_output (p : Psg) (data : UInt8) (time : Nat) : ∀ (channels : List Nat)
    (s : Psg × Stereo), channels.Nodup → (∀ i ∈ channels, i < 4) →
    (∀ i ∈ channels, s.1.osc i = p.osc i) →
    (routeAll data time channels s).2 = s.2.addAll (p.routeChanges data time channels)
  | [], _, _, _, _ => rfl
  | i :: channels, s, hnodup, hlt, hosc => by
      obtain ⟨hi, hnodup⟩ := List.nodup_cons.1 hnodup
      have hchange : s.1.routeChange i (routingOf data i) time =
          p.routeChange i (routingOf data i) time :=
        routeChange_congr (hosc i List.mem_cons_self) _ _
      refine (routeAll_output p data time channels _ hnodup
        (fun j hj => hlt j (List.mem_cons_of_mem i hj))
        (route_osc hi hlt hosc _ time s.2)).trans ?_
      unfold routeChanges
      rw [route_output, hchange, List.flatMap_cons, Stereo.addAll_append]

/-- The changes that writing the stereo register adds. -/
def stereoChanges (p : Psg) (time : Nat) (data : UInt8) (out : Stereo) : List Change :=
  p.changesUntil time ++ (p.runUntil time out).1.routeChanges data time channels

/-- The chip and its output when the stereo register is written, before the note. -/
def rerouted (p : Psg) (time : Nat) (data : UInt8) (out : Stereo) : Psg × Stereo :=
  routeAll data time channels ({ (p.runUntil time out).1 with stereo := data },
    (p.runUntil time out).2)

theorem writeStereo_eq (p : Psg) (time : Nat) (data : UInt8) (out : Stereo) :
    p.writeStereo time data out =
      ((p.rerouted time data out).1, (p.rerouted time data out).2.note (.stereo data)) := by
  simp only [writeStereo, rerouted, routeAll, channels, List.foldl_cons, List.foldl_nil]

theorem rerouted_output (p : Psg) (time : Nat) (data : UInt8) (out : Stereo) :
    (p.rerouted time data out).2 = out.addAll (p.stereoChanges time data out) := by
  unfold rerouted stereoChanges
  rw [Stereo.addAll_append, ← runUntil_output]
  refine routeAll_output _ data time channels _ (by decide) (by decide) ?_
  intro i _
  rfl

end Psg

/-! ### The FM chip -/

namespace FmChip

/-- The changes of `n` samples. -/
def playChanges : Nat → FmChip → List Change
  | 0, _ => []
  | n + 1, f =>
    let (s, f) := f.sample
    let s := if f.enabled then s else 0
    (if s = f.lastOutput then [] else [⟨.center, f.nextSample, s - f.lastOutput⟩]) ++
      playChanges n { f with lastOutput := s, nextSample := f.nextSample + sampleClocks }

/-- The changes that the chip adds up to a clock. -/
def changesUntil (f : FmChip) (time : Nat) : List Change :=
  playChanges ((time - f.nextSample + (sampleClocks - 1)) / sampleClocks) f

theorem play_output : ∀ (n : Nat) (f : FmChip) (out : Stereo),
    (play n f out).2 = out.addAll (playChanges n f)
  | 0, _, _ => rfl
  | n + 1, f, out => by
      unfold play playChanges
      dsimp only
      rw [play_output n, Stereo.addAll_append]
      congr 1
      generalize (if f.sample.2.enabled then f.sample.1 else 0) = level
      split <;> rfl

theorem runUntil_output (f : FmChip) (time : Nat) (out : Stereo) :
    (f.runUntil time out).2 = out.addAll (f.changesUntil time) := play_output _ f out

end FmChip

/-! ### The console's sound -/

namespace Mixer

/-- What is done to the sound of a console. -/
inductive Operation where
  | writePsg (time : Nat) (v : UInt8)
  | writeStereo (time : Nat) (v : UInt8)
  | writeFm (time : Nat) (port v : UInt8)
  | writeControl (time : Nat) (v : UInt8)
  | endFrame (clocks : Nat)
  | readSamples (length : Nat)
  | discard
  | reset

/-- The sound after an operation. -/
def operate (m : Mixer) : Operation → Mixer
  | .writePsg time v => m.writePsg time v
  | .writeStereo time v => m.writeStereo time v
  | .writeFm time port v => m.writeFm time port v
  | .writeControl time v => m.writeControl time v
  | .endFrame clocks => m.endFrame clocks
  | .readSamples length => (m.readSamples length).2
  | .discard => m.discard
  | .reset => m.reset

/-- The changes that both chips add up to a clock. -/
def changesUntil (m : Mixer) (time : Nat) : List Change :=
  m.psg.changesUntil time ++ (m.fm.elim [] fun f => f.changesUntil time)

/-- The sound after a reset, before the mix control is in force. -/
def cleared (m : Mixer) : Mixer :=
  { m with psg := m.psg.reset, fm := m.fm.map Chip.reset, control := 0, output := m.output.clear }

/-- The changes that an operation adds to the output. -/
def changes (m : Mixer) : Operation → List Change
  | .writePsg time _ => m.psg.changesUntil time
  | .writeStereo time v => m.psg.stereoChanges time v m.output
  | .writeFm time port _ =>
    if (port &&& 1).toUInt16 &&& 1 == 0 then [] else m.fm.elim [] fun f => f.changesUntil time
  | .writeControl time _ => m.changesUntil time
  | .endFrame clocks => m.changesUntil clocks
  | .readSamples _ => []
  | .discard => []
  | .reset => m.cleared.changesUntil 0

/-- What an operation does to the output before it adds changes. -/
def opening : Operation → Stereo → Stereo
  | .reset, out => out.clear
  | _, out => out

/-- What an operation does to the output after it has added changes. -/
def closing : Operation → Stereo → Stereo
  | .endFrame clocks, out => out.endFrame clocks
  | .readSamples length, out => (out.readInterleaved length).2
  | .discard, out => out.discard
  | _, out => out

theorem applyMix_output (m : Mixer) (time : Nat) :
    (m.applyMix time).output = m.output.addAll (m.changesUntil time) := by
  unfold applyMix changesUntil
  dsimp only [Chip.setEnabled]
  rw [Stereo.addAll_append, ← Psg.runUntil_output]
  cases m.fm with
  | none => rfl
  | some f => exact f.runUntil_output time _

theorem endFrame_output (m : Mixer) (clocks : Nat) :
    (m.endFrame clocks).output = (m.output.addAll (m.changesUntil clocks)).endFrame clocks := by
  unfold endFrame changesUntil
  dsimp only [Chip.endFrame, Chip.runUntil]
  rw [Stereo.addAll_append, ← Psg.runUntil_output]
  cases m.fm with
  | none => rfl
  | some f => exact congrArg (Stereo.endFrame · clocks) (f.runUntil_output clocks _)

theorem side_note (out : Stereo) (n : Note) (s : Side) : (out.note n).side s = out.side s := by
  cases s <;> rfl

theorem writePsg_output (m : Mixer) (time : Nat) (v : UInt8) :
    (m.writePsg time v).output = m.output.addAll (m.psg.changesUntil time) := by
  rw [← Psg.runUntil_output]
  rfl

theorem writeStereo_side (m : Mixer) (time : Nat) (v : UInt8) (s : Side) :
    (m.writeStereo time v).output.side s =
      (m.output.addAll (m.psg.stereoChanges time v m.output)).side s := by
  unfold writeStereo
  rw [Psg.writeStereo_eq]
  dsimp only
  rw [side_note, Psg.rerouted_output]

theorem writeFm_side (m : Mixer) (time : Nat) (port v : UInt8) (s : Side) :
    (m.writeFm time port v).output.side s =
      (m.output.addAll (m.changes (.writeFm time port v))).side s := by
  unfold writeFm changes
  cases m.fm with
  | none =>
      dsimp only [Option.elim]
      rw [ite_self]
      rfl
  | some f =>
      dsimp only [Option.elim, Chip.write]
      split
      · rfl
      · unfold FmChip.writeData
        dsimp only
        rw [side_note, FmChip.runUntil_output]

theorem writeControl_side (m : Mixer) (time : Nat) (v : UInt8) (s : Side) :
    (m.writeControl time v).output.side s = (m.output.addAll (m.changesUntil time)).side s := by
  unfold writeControl
  rw [applyMix_output, Stereo.side_addAll, Stereo.side_addAll]
  dsimp only
  rw [side_note]
  rfl

/-- **What an operation adds to a side.**  Nothing but the changes written down for it. -/
theorem operate_side (m : Mixer) (o : Operation) (s : Side) :
    (m.operate o).output.side s =
      (closing o ((opening o m.output).addAll (m.changes o))).side s := by
  cases o with
  | writePsg time v =>
      show (m.writePsg time v).output.side s = _
      rw [writePsg_output]
      rfl
  | writeStereo time v => exact m.writeStereo_side time v s
  | writeFm time port v => exact m.writeFm_side time port v s
  | writeControl time v => exact m.writeControl_side time v s
  | endFrame clocks =>
      show (m.endFrame clocks).output.side s = _
      rw [endFrame_output]
      rfl
  | readSamples length => rfl
  | discard => rfl
  | reset =>
      show (m.cleared.applyMix 0).output.side s = _
      rw [applyMix_output]
      rfl

end Mixer

end MasterSystem.Sound
