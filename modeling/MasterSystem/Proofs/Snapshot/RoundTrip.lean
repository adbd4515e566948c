import MasterSystem.Snapshot.State
import Mathlib.Data.List.Basic

/-! # Reading back what was written

A layout reads a value back from the bytes that it wrote, whatever follows them (`Codec.Reads`).
The value read need not be the value written: what a layout leaves out is read as after power-on.

* **Combinators.**  Each way to build a layout keeps the property (`Reads.map`, `Reads.pair`, …).
  Numbers are read back if they are within the range of their width.
* **Parts.**  `Fits` says so of the numbers in each part of the machine, and `State.Fits.reads` that
  a whole state is read back, normalised.
* **Anything else.**  From bytes that were never written, a state is read with the picture being
  drawn as after power-on (`decode_scratch`). -/

namespace MasterSystem

open Snapshot Codec

namespace Snapshot

namespace Codec

/-- What the layout wrote for `x` is read as `y`. -/
def Reads {α : Type} (c : Codec α) (x y : α) : Prop :=
  ∀ rest, c.read (c.write x ++ rest) = some (y, rest)

/-! ### Numbers -/

theorem range_pos : ∀ width, 0 < range width
  | 0 => by decide
  | width + 1 => by
      have := range_pos width
      rw [range]
      omega

theorem ofDigits_digits : ∀ (width n : Nat) (rest : List UInt8), n < range width →
    ofDigits width (digits width n ++ rest) = some (n, rest)
  | 0, n, rest, h => by
      rw [range] at h
      obtain rfl : n = 0 := by omega
      rfl
  | width + 1, n, rest, h => by
      rw [range] at h
      have ih := ofDigits_digits width (n / 256) rest (Nat.div_lt_of_lt_mul h)
      rw [digits, List.cons_append, ofDigits, ih]
      have hbyte : (UInt8.ofNat (n % 256)).toNat = n % 256 :=
        UInt8.toNat_ofNat_of_lt' (Nat.mod_lt _ (by decide))
      rw [Option.map_some, hbyte, Nat.mod_add_div]

theorem nat_reads {width n : Nat} (h : n < range width) : (nat width).Reads n n :=
  fun rest => ofDigits_digits width n rest h

theorem Reads.map {α β : Type} {c : Codec α} {f : α → β} {g : β → α} {x : β} {y : α}
    (h : c.Reads (g x) y) : (c.map f g).Reads x (f y) := by
  intro rest
  show (c.read (c.write (g x) ++ rest)).map _ = _
  rw [h rest]
  rfl

/-- Whether a number is within the range of its width in two's complement. -/
def IsSigned (width : Nat) (z : Int) : Prop :=
  -(range width : Int) ≤ 2 * z ∧ 2 * z < range width

instance (width : Nat) (z : Int) : Decidable (IsSigned width z) :=
  inferInstanceAs (Decidable (_ ∧ _))

theorem int_reads {width : Nat} {z : Int} (h : IsSigned width z) : (int width).Reads z z := by
  have hpos := range_pos width
  have hmod : z % range width = if z < 0 then z + range width else z := by
    obtain ⟨hlow, hhigh⟩ := h
    split
    · rw [← Int.add_emod_right, Int.emod_eq_of_lt (by omega) (by omega)]
    · exact Int.emod_eq_of_lt (by omega) (by omega)
  have hlt : (z % range width).toNat < range width := by
    have := Int.emod_lt_of_pos z (by omega : (0 : Int) < range width)
    have := Int.emod_nonneg z (by omega : (range width : Int) ≠ 0)
    omega
  have hz : signed width (z % range width).toNat = z := by
    obtain ⟨hlow, hhigh⟩ := h
    unfold signed
    rw [hmod]
    split <;> split at * <;> omega
  have hread : (int width).Reads z _ := Reads.map (nat_reads hlt)
  rwa [hz] at hread

theorem byte_reads (b : UInt8) : byte.Reads b b := fun _ => rfl

theorem word_reads (w : UInt16) : word.Reads w w := by
  have hlt : w.toNat < range 2 := w.toNat_lt
  have hread : word.Reads w _ := Reads.map (nat_reads hlt)
  rwa [UInt16.ofNat_toNat] at hread

theorem double_reads (w : UInt32) : double.Reads w w := by
  have hlt : w.toNat < range 4 := w.toNat_lt
  have hread : double.Reads w _ := Reads.map (nat_reads hlt)
  rwa [UInt32.ofNat_toNat] at hread

theorem quad_reads (w : UInt64) : quad.Reads w w := by
  have hlt : w.toNat < range 8 := w.toNat_lt
  have hread : quad.Reads w _ := Reads.map (nat_reads hlt)
  rwa [UInt64.ofNat_toNat] at hread

theorem bool_reads (b : Bool) : bool.Reads b b := by
  intro rest
  cases b <;> rfl

/-! ### Alternatives -/

theorem choice_reads {α : Type} [DecidableEq α] {values : List α} {x : α} (h : x ∈ values)
    (hsize : values.length ≤ range 4) : (choice values).Reads x x := by
  have hlt : values.idxOf x < values.length := List.idxOf_lt_length_of_mem h
  have hget : values[values.idxOf x]? = some x := by
    rw [List.getElem?_eq_getElem hlt, List.getElem_idxOf hlt]
  intro rest
  unfold choice
  dsimp only
  rw [nat_reads (show values.idxOf x < range 4 by omega)]
  simp [hget]

theorem option_reads {α : Type} {c : Codec α} {o p : Option α}
    (h : Option.Rel c.Reads o p) : c.option.Reads o p := by
  intro rest
  cases h with
  | none => rfl
  | @some x y h =>
      unfold option
      dsimp only
      rw [List.append_assoc, bool_reads true]
      simp [h rest]

/-! ### Sequences -/

theorem Reads.pair {α β : Type} {c : Codec α} {d : Codec β} {x x' : α} {y y' : β}
    (hx : c.Reads x x') (hy : d.Reads y y') : (c.pair d).Reads (x, y) (x', y') := by
  intro rest
  show (c.read (c.write x ++ d.write y ++ rest)).bind _ = _
  rw [List.append_assoc, hx]
  show (d.read (d.write y ++ rest)).bind _ = _
  rw [hy]
  rfl

theorem readMany_flatMap {α : Type} {c : Codec α} : ∀ (xs : List α) (ys : Array α)
    (rest : List UInt8), (∀ x ∈ xs, c.Reads x x) →
    c.readMany xs.length ys (xs.flatMap c.write ++ rest) = some (ys ++ xs.toArray, rest)
  | [], ys, rest, _ => by simp [readMany]
  | x :: xs, ys, rest, h => by
      rw [List.length_cons, readMany, List.flatMap_cons, List.append_assoc, h x (by simp)]
      dsimp only
      rw [readMany_flatMap xs (ys.push x) rest fun y hy => h y (by simp [hy])]
      simp

theorem array_reads {α : Type} {c : Codec α} {xs : Array α} (h : ∀ x ∈ xs, c.Reads x x)
    (hsize : xs.size < range 8) : c.array.Reads xs xs := by
  intro rest
  have hread := readMany_flatMap xs.toList #[] rest fun x hx => h x (by simpa using hx)
  unfold array
  dsimp only
  rw [List.append_assoc, nat_reads hsize]
  simpa using hread

theorem vector_reads {α : Type} {n : Nat} {c : Codec α} {xs : Vector α n}
    (h : ∀ x ∈ xs, c.Reads x x) : (c.vector n).Reads xs xs := by
  intro rest
  have hread := readMany_flatMap xs.toList #[] rest fun x hx => h x (by simpa using hx)
  rw [Vector.length_toList] at hread
  unfold vector
  dsimp only
  rw [hread]
  simp [Vector.toList]

theorem named_reads {α : Type} [DecidableEq α] [Text.Named α] {x : α}
    (h : x ∈ (Text.Named.names : List (α × String)).map Prod.fst)
    (hsize : (Text.Named.names : List (α × String)).length ≤ range 4) : named.Reads x x :=
  choice_reads h (by rwa [List.length_map])

end Codec

/-! ### Processor and memory -/

theorem registers_reads (r : Z80.Registers) : registers.Reads r r := by
  have hread : registers.Reads r _ := Reads.map <|
    (word_reads _).pair <| (word_reads _).pair <| (word_reads _).pair <| (word_reads _).pair <|
    (word_reads _).pair <| (word_reads _).pair <| (word_reads _).pair <| (word_reads _).pair <|
    (word_reads _).pair <| (word_reads _).pair <| (word_reads _).pair <| (word_reads _).pair <|
    (word_reads _).pair <| (byte_reads _).pair <| (byte_reads _).pair <| (bool_reads _).pair <|
    (bool_reads _).pair <| (byte_reads _).pair <| (bool_reads _).pair <| (bool_reads _).pair <|
    (bool_reads _).pair <| (bool_reads _).pair <| quad_reads _
  have hhigh : Word.high r.af = r.a := Word.high_ofBytes ..
  have hlow : Word.low r.af = r.f := Word.low_ofBytes ..
  simpa only [hhigh, hlow] using hread

theorem bytes_reads {xs : Array UInt8} (h : xs.size < range 8) : byte.array.Reads xs xs :=
  array_reads (fun x _ => byte_reads x) h

theorem mapper_reads {m : Mapper} (h : m.ram.size < range 8) : mapper.Reads m m := by
  intro rest
  have hnumber : boardNumber m < range 4 := by
    cases m <;> simp only [boardNumber, range] <;> omega
  have hboard : readBoard (boardNumber m) (writeBoard m ++ rest) = some (m, rest) := by
    cases m with
    | romOnly => rfl
    | sega m =>
        have hread : sega.Reads m _ := Reads.map <| (byte_reads _).pair <|
          (vector_reads fun x _ => byte_reads x).pair <| (bytes_reads h).pair <| bool_reads _
        simp only [boardNumber, readBoard, writeBoard, hread rest, Option.map_some, Mapper.ram]
    | codemasters m =>
        have hread : codemasters.Reads m _ := Reads.map <|
          (vector_reads fun x _ => byte_reads x).pair <| (bool_reads _).pair <|
          (bytes_reads h).pair <| bool_reads _
        simp only [boardNumber, readBoard, writeBoard, hread rest, Option.map_some, Mapper.ram]
    | korean m => rfl
    | msx m =>
        have hread := (vector_reads fun x _ => byte_reads x : (byte.vector 4).Reads m.pages m.pages)
        simp only [boardNumber, readBoard, writeBoard, hread rest, Option.map_some]
    | janggun m =>
        have hread : janggun.Reads m _ := Reads.map <|
          (vector_reads fun x _ => byte_reads x).pair <| vector_reads fun x _ => bool_reads x
        simp only [boardNumber, readBoard, writeBoard, hread rest, Option.map_some]
    | sg1000 m =>
        have hread : byte.array.Reads m.ram m.ram := bytes_reads h
        simp only [boardNumber, readBoard, writeBoard, hread rest, Option.map_some]
  unfold mapper
  dsimp only
  rw [List.append_assoc, nat_reads hnumber]
  exact hboard

end Snapshot

/-! ### Video -/

/-- The sizes of a picture are within their range. -/
structure Video.Frame.Fits (f : Video.Frame) : Prop where
  width : f.width < range 4
  height : f.height < range 4
  pixels : f.pixels.size < range 8

theorem Video.Frame.Fits.reads {f : Video.Frame} (h : f.Fits) : Snapshot.frame.Reads f f := by
  have hread : Snapshot.frame.Reads f _ := Reads.map <| (nat_reads h.width).pair <|
    (nat_reads h.height).pair <| array_reads (fun x _ => double_reads x) h.pixels
  exact hread

/-- The numbers of the video processor are within their ranges. -/
structure Video.Vdp.Fits (v : Video.Vdp) : Prop where
  vram : v.vram.size < range 8
  cram : v.cram.size < range 8
  palette : v.palette.colors.size < range 8
  line : v.line < range 4
  lineCycles : v.lineCycles < range 4
  display : v.display.Fits

/-- The video processor as it is read back. -/
def Video.Vdp.saved (v : Video.Vdp) : Video.Vdp :=
  { v with
    glasses := .both, phaserTarget := none, lightDetected := false
    scratch := .new Video.screenWidth Video.maxHeight, notes := #[] }

theorem Video.Vdp.Fits.reads {v : Video.Vdp} (h : v.Fits) : Snapshot.video.Reads v v.saved := by
  have hmodel : named.Reads v.model v.model :=
    named_reads (by cases v.model <;> decide) (by simp [Text.Named.names, range])
  have htiming : named.Reads v.timing v.timing :=
    named_reads (by cases v.timing <;> decide) (by simp [Text.Named.names, range])
  have hlow : byte.option.Reads v.controlLow v.controlLow := by
    refine option_reads ?_
    cases v.controlLow with
    | none => exact .none
    | some b => exact .some (byte_reads b)
  have hread : Snapshot.video.Reads v _ := Reads.map <| hmodel.pair <| htiming.pair <|
    (vector_reads fun x _ => byte_reads x).pair <| (bytes_reads h.vram).pair <|
    (bytes_reads h.cram).pair <| (byte_reads _).pair <|
    (array_reads (fun x _ => double_reads x) h.palette).pair <| (word_reads _).pair <|
    (byte_reads _).pair <| hlow.pair <| (byte_reads _).pair <| (byte_reads _).pair <|
    (nat_reads h.line).pair <| (nat_reads h.lineCycles).pair <| (byte_reads _).pair <|
    (bool_reads _).pair <| (byte_reads _).pair <| (byte_reads _).pair <| (bool_reads _).pair <|
    (bool_reads _).pair h.display.reads
  exact hread

/-! ### Sound -/

namespace Sound

/-- The numbers of an oscillator are within their ranges. -/
structure Oscillator.Fits (x : Oscillator) : Prop where
  level : IsSigned 4 x.level
  delay : x.delay < range 4

theorem Oscillator.Fits.reads {x : Oscillator} (h : x.Fits) : Snapshot.oscillator.Reads x x := by
  have hrouting : named.Reads x.routing x.routing :=
    named_reads (by cases x.routing <;> decide) (by simp [Text.Named.names, range])
  have hread : Snapshot.oscillator.Reads x _ := Reads.map <| (byte_reads _).pair <|
    hrouting.pair <| (int_reads h.level).pair (nat_reads h.delay)
  exact hread

/-- The numbers of a square wave are within their ranges. -/
structure Square.Fits (s : Square) : Prop where
  osc : s.osc.Fits
  period : s.period < range 4

theorem Square.Fits.reads {s : Square} (h : s.Fits) : Snapshot.square.Reads s s := by
  have hread : Snapshot.square.Reads s _ := Reads.map <| h.osc.reads.pair <|
    (nat_reads h.period).pair (bool_reads _)
  exact hread

/-- The numbers of the tone generator are within their ranges. -/
structure Psg.Fits (p : Psg) : Prop where
  tones : ∀ s ∈ p.tones, s.Fits
  noise : p.noise.osc.Fits
  time : p.time < range 4

theorem Psg.Fits.reads {p : Psg} (h : p.Fits) : Snapshot.psg.Reads p p := by
  have hnoise : Snapshot.noise.Reads p.noise _ := Reads.map <| h.noise.reads.pair <|
    (word_reads _).pair <| (word_reads _).pair (byte_reads _)
  have hvariant : named.Reads p.variant p.variant :=
    named_reads (by cases p.variant <;> decide) (by simp [Text.Named.names, range])
  have hread : Snapshot.psg.Reads p _ := Reads.map <|
    (vector_reads fun s hs => (h.tones s hs).reads).pair <| hnoise.pair <| (byte_reads _).pair <|
    (nat_reads h.time).pair <| hvariant.pair <| (byte_reads _).pair (bool_reads _)
  exact hread

/-- The numbers of an operator are within their ranges. -/
structure Fm.Operator.Fits (o : Fm.Operator) : Prop where
  phase : o.phase < range 4
  level : o.level < range 4
  older : IsSigned 4 o.older
  newer : IsSigned 4 o.newer

theorem Fm.Operator.Fits.reads {o : Fm.Operator} (h : o.Fits) : Snapshot.operator.Reads o o := by
  have hstage : named.Reads o.stage o.stage :=
    named_reads (by cases o.stage <;> decide) (by simp [Text.Named.names, range])
  have hread : Snapshot.operator.Reads o _ := Reads.map <| (nat_reads h.phase).pair <|
    (nat_reads h.level).pair <| hstage.pair <| (int_reads h.older).pair (int_reads h.newer)
  exact hread

/-- The numbers of the FM chip are within their ranges. -/
structure FmChip.Fits (f : FmChip) : Prop where
  regs : f.regs.size < range 8
  modulators : ∀ c ∈ f.channels, c.modulator.Fits
  carriers : ∀ c ∈ f.channels, c.carrier.Fits
  tremolo : f.counters.tremolo < range 4
  vibrato : f.counters.vibrato < range 4
  nextSample : f.nextSample < range 4
  lastOutput : IsSigned 4 f.lastOutput

theorem FmChip.Fits.reads {f : FmChip} (h : f.Fits) : Snapshot.fm.Reads f f := by
  have hchannel (c : FmChannel) (hc : c ∈ f.channels) : Snapshot.fmChannel.Reads c c := by
    have hread : Snapshot.fmChannel.Reads c _ := Reads.map <| (h.modulators c hc).reads.pair <|
      (h.carriers c hc).reads.pair (bool_reads _)
    exact hread
  have hread : Snapshot.fm.Reads f _ := Reads.map <| (byte_reads _).pair <|
    (bytes_reads h.regs).pair <| (vector_reads hchannel).pair <| (byte_reads _).pair <|
    (double_reads _).pair <| (double_reads _).pair <| (nat_reads h.tremolo).pair <|
    (nat_reads h.vibrato).pair <| (nat_reads h.nextSample).pair <|
    (int_reads h.lastOutput).pair (bool_reads _)
  exact hread

/-- The numbers of a resampler are within their ranges. -/
structure Resampler.Fits (b : Resampler) : Prop where
  factor : b.factor < range 8
  offset : b.offset < range 8
  avail : b.avail < range 8
  integrator : IsSigned 8 b.integrator
  slots : ∀ z ∈ b.slots, IsSigned 8 z
  size : b.slots.size < range 8

theorem Resampler.Fits.reads {b : Resampler} (h : b.Fits) : Snapshot.resampler.Reads b b := by
  have hread : Snapshot.resampler.Reads b _ := Reads.map <| (nat_reads h.factor).pair <|
    (nat_reads h.offset).pair <| (nat_reads h.avail).pair <| (int_reads h.integrator).pair <|
    array_reads (fun z hz => int_reads (h.slots z hz)) h.size
  exact hread

/-- The numbers of the sound chips are within their ranges. -/
structure Mixer.Fits (m : Mixer) : Prop where
  psg : m.psg.Fits
  fm : ∀ c ∈ m.fm, c.Fits
  left : m.output.left.Fits
  right : m.output.right.Fits
  sampleRate : m.sampleRate < range 4

/-- The sound chips as they are read back. -/
def Mixer.saved (m : Mixer) : Mixer := { m with output := { m.output with notes := #[] } }

theorem Mixer.Fits.reads {m : Mixer} (h : m.Fits) : Snapshot.mixer.Reads m m.saved := by
  have hfm : Snapshot.fm.option.Reads m.fm m.fm := by
    refine option_reads ?_
    cases hm : m.fm with
    | none => exact .none
    | some c => exact .some (h.fm c (by rw [hm]; rfl)).reads
  have houtput : Snapshot.stereo.Reads m.output _ := Reads.map <| h.left.reads.pair h.right.reads
  have hread : Snapshot.mixer.Reads m _ := Reads.map <| h.psg.reads.pair <| hfm.pair <|
    (byte_reads _).pair <| houtput.pair (nat_reads h.sampleRate)
  exact hread

end Sound

/-! ### Controls -/

/-- The numbers of a light phaser are within their ranges. -/
structure Phaser.Fits (p : Phaser) : Prop where
  x : IsSigned 4 p.x
  y : IsSigned 4 p.y

/-- The controls as they are read back. -/
def Controls.saved (c : Controls) : Controls := { c with allowOpposites := false }

theorem Controls.reads {c : Controls} (h : ∀ p ∈ c.phaser, p.Fits) :
    Snapshot.controls.Reads c c.saved := by
  have hphaser : Snapshot.phaser.option.Reads c.phaser c.phaser := by
    refine option_reads ?_
    cases hp : c.phaser with
    | none => exact .none
    | some p =>
        have hfits := h p (by rw [hp]; rfl)
        have hread : Snapshot.phaser.Reads p _ := Reads.map <| (int_reads hfits.x).pair <|
          (int_reads hfits.y).pair (bool_reads _)
        exact .some hread
  have hread : Snapshot.controls.Reads c _ := Reads.map <|
    (vector_reads fun x _ => byte_reads x).pair <| (byte_reads _).pair hphaser
  exact hread

/-! ### States -/

namespace Snapshot

/-- The numbers of a state are within their ranges. -/
structure State.Fits (s : State) : Prop where
  ram : s.ram.size < range 8
  mapper : s.mapper.ram.size < range 8
  vdp : s.vdp.Fits
  sound : s.sound.Fits
  phaser : ∀ p ∈ s.controls.phaser, p.Fits
  frameCount : s.frameCount < range 8
  frameCycle : s.frameCycle < range 4

/-- A state as it is read back. -/
def State.saved (s : State) : State :=
  { s with vdp := s.vdp.saved, sound := s.sound.saved, controls := s.controls.saved }

theorem State.Fits.reads {s : State} (h : s.Fits) : state.Reads s s.saved := by
  have hread : state.Reads s _ := Reads.map <| (registers_reads _).pair <|
    (bytes_reads h.ram).pair <| (mapper_reads h.mapper).pair <| (bool_reads _).pair <|
    (byte_reads _).pair <| h.vdp.reads.pair <| h.sound.reads.pair <|
    (Controls.reads h.phaser).pair <| (nat_reads h.frameCount).pair (nat_reads h.frameCycle)
  exact hread

theorem doubleAt_write (w : UInt32) (rest : List UInt8) :
    doubleAt (Codec.double.write w ++ rest) = w := by
  unfold doubleAt
  rw [double_reads w rest]
  rfl

/-- **A state is read back from its bytes**, if its numbers are within their ranges. -/
theorem decode_encode (crc : UInt32) {s : State} (h : s.Fits) :
    decode crc (encode crc s) = .ok s.saved := by
  have hbytes : encode crc s = magic ++ (double.write version ++ (double.write crc ++
      state.write s)) := by
    unfold encode header
    simp only [List.append_assoc]
  have hsize : ¬ (encode crc s).length < headerSize := by
    rw [hbytes]
    simp only [List.length_append, headerSize]
    show ¬ 4 + (4 + (4 + _)) < 12
    omega
  have hmagic : (encode crc s).take 4 = magic := by
    rw [hbytes]
    rfl
  have hversion : doubleAt ((encode crc s).drop 4) = version := by
    rw [hbytes]
    exact doubleAt_write version _
  have hcrc : doubleAt ((encode crc s).drop 8) = crc := by
    rw [hbytes]
    exact doubleAt_write crc _
  have hstate : state.read ((encode crc s).drop headerSize) = some (s.saved, []) := by
    have hread := h.reads []
    rw [List.append_nil] at hread
    rw [hbytes]
    exact hread
  unfold decode
  dsimp only
  rw [if_neg hsize, if_neg (not_not.2 hmagic), if_neg (not_not.2 hversion),
    if_neg (not_not.2 hcrc), hstate]

/-! ### Any bytes -/

namespace Codec

/-- Whatever the layout reads has a property. -/
def Yields {α : Type} (c : Codec α) (P : α → Prop) : Prop :=
  ∀ bs x rest, c.read bs = some (x, rest) → P x

variable {α β : Type}

theorem yields_any (c : Codec α) : c.Yields fun _ => True := fun _ _ _ _ => trivial

theorem Yields.map {c : Codec α} {f : α → β} {P : β → Prop} (h : c.Yields fun x => P (f x))
    (g : β → α) : (c.map f g).Yields P := by
  intro bs y rest hread
  obtain ⟨⟨x, rest'⟩, hx, hy⟩ := Option.map_eq_some_iff.1 hread
  obtain ⟨rfl, rfl⟩ := Prod.mk.inj hy
  exact h bs x _ hx

theorem Yields.pair {c : Codec α} {d : Codec β} {P : α → Prop} {Q : β → Prop} (hc : c.Yields P)
    (hd : d.Yields Q) : (c.pair d).Yields fun p => P p.1 ∧ Q p.2 := by
  intro bs p rest hread
  obtain ⟨⟨x, bs'⟩, hx, hread⟩ := Option.bind_eq_some_iff.1 hread
  obtain ⟨⟨y, rest'⟩, hy, hp⟩ := Option.bind_eq_some_iff.1 hread
  obtain ⟨rfl, rfl⟩ := Prod.mk.inj (Option.some.inj hp)
  exact ⟨hc bs x bs' hx, hd bs' y _ hy⟩

theorem Yields.snd {d : Codec β} {Q : β → Prop} (hd : d.Yields Q) (c : Codec α) :
    (c.pair d).Yields fun p => Q p.2 :=
  fun bs p rest hread => (c.yields_any.pair hd bs p rest hread).2

theorem Yields.fst {c : Codec α} {P : α → Prop} (hc : c.Yields P) (d : Codec β) :
    (c.pair d).Yields fun p => P p.1 :=
  fun bs p rest hread => (hc.pair d.yields_any bs p rest hread).1

end Codec

theorem video_scratch :
    video.Yields fun v => v.scratch = .new Video.screenWidth Video.maxHeight := by
  refine Yields.map ?_ _
  exact fun _ _ _ _ => rfl

/-- A state is read with an empty picture to draw into. -/
theorem decode_scratch {crc : UInt32} {bs : List UInt8} {s : State}
    (h : decode crc bs = .ok s) : s.vdp.scratch = .new Video.screenWidth Video.maxHeight := by
  have hyields : state.Yields fun s => s.vdp.scratch = .new Video.screenWidth Video.maxHeight :=
    Yields.map (.snd (.snd (.snd (.snd (.snd (.fst video_scratch _) _) _) _) _) _) _
  unfold decode at h
  dsimp only at h
  repeat' split at h
  case h_1 hread =>
    obtain rfl := Except.ok.inj h
    exact hyields _ _ _ hread
  all_goals simp at h

end Snapshot

end MasterSystem
