import MasterSystem.Proofs.Sound.Settled

/-! # Reading in chunks

A host takes samples as it has room for them.  However it divides its room, it gets the same pairs
of samples, and leaves the same behind.

* **A side.**  Reading carries the level along and moves the slots to the front, so that what is
  read next goes on from there (`Resampler.read_add`).
* **The pair.**  Both sides keep the same count of samples (`Stereo.Reached.sides`), and each call
  reads as many from the one as from the other (`Stereo.readInterleaved_add`).
* **The host's array.**  The sides go to every second place, the right one from the second place on,
  which makes the pairs (`Stereo.fill_eq`). -/

namespace MasterSystem.Sound

/-! ### A side -/

namespace Resampler

theorem integrate_add (slots : Array Int) : ∀ (m n i : Nat) (level : Int) (out : Array Int),
    integrate slots (m + n) i level out =
      integrate slots n (i + m) (integrate slots m i level out).1
        (integrate slots m i level out).2
  | 0, n, i, level, out => by
      rw [Nat.zero_add]
      rfl
  | m + 1, n, i, level, out => by
      rw [Nat.add_right_comm, integrate, integrate, integrate_add slots m n (i + 1),
        Nat.add_right_comm i 1 m]
      rfl

/-- Samples are put behind those that are there. -/
theorem integrate_out (slots : Array Int) : ∀ (n i : Nat) (level : Int) (out : Array Int),
    integrate slots n i level out =
      ((integrate slots n i level #[]).1, out ++ (integrate slots n i level #[]).2)
  | 0, _, _, _ => by simp [integrate]
  | n + 1, i, level, out => by
      rw [integrate, integrate, integrate_out slots n (i + 1) _ (out.push _),
        integrate_out slots n (i + 1) _ (#[].push _)]
      simp

theorem integrate_congr {slots moved : Array Int} : ∀ {n i j : Nat} {level : Int} {out : Array Int},
    (∀ k < n, slots.getD (i + k) 0 = moved.getD (j + k) 0) →
    integrate slots n i level out = integrate moved n j level out
  | 0, _, _, _, _, _ => rfl
  | n + 1, i, j, level, out, h => by
      have hfirst : slots.getD i 0 = moved.getD j 0 := h 0 (Nat.succ_pos n)
      rw [integrate, integrate, hfirst]
      refine integrate_congr fun k hk => ?_
      have hnext := h (k + 1) (Nat.succ_lt_succ hk)
      rwa [Nat.add_assoc i, Nat.add_assoc j, Nat.add_comm 1 k]

variable {b : Resampler}

/-- What is left after some samples are dropped: the slots that carry a step on, at the front. -/
theorem drop_getD (h : b.Safe) {count : Nat} (hcount : count ≤ b.avail) (i : Nat) :
    (b.drop count).slots.getD i 0 =
      if i < b.avail + kernelWidth - count then b.slots.getD (count + i) 0 else 0 := by
  have hcarried := h.inRange.carried count hcount
  rw [Array.getD_eq_getD_getElem?, ← Array.getElem?_toList, drop_slots h hcount]
  split
  · rename_i hi
    rw [List.getElem?_append_left (by simp; omega), List.getElem?_take_of_lt hi, List.getElem?_drop,
      Array.getElem?_toList, ← Array.getD_eq_getD_getElem?]
  · rename_i hi
    rw [List.getElem?_append_right (by simp; omega), List.getElem?_replicate]
    split <;> rfl

theorem getD_ext {xs ys : Array Int} (hsize : xs.size = ys.size)
    (h : ∀ i, xs.getD i 0 = ys.getD i 0) : xs = ys := by
  refine Array.ext hsize fun i hi hi' => ?_
  have hplace := h i
  rwa [Array.getD_eq_getD_getElem?, Array.getD_eq_getD_getElem?, Array.getElem?_eq_getElem hi,
    Array.getElem?_eq_getElem hi'] at hplace

theorem drop_drop (h : b.Safe) {m n : Nat} (hcount : m + n ≤ b.avail) :
    (b.drop m).drop n = b.drop (m + n) := by
  have hm : m ≤ b.avail := by omega
  have hsafe : (b.drop m).Safe := by
    have hsize := drop_size h hm
    refine ⟨hsize ▸ h.size, ?_⟩
    have havail := h.avail
    unfold capacity at havail ⊢
    rw [hsize]
    exact Nat.le_trans (Nat.sub_le _ _) havail
  have havail : (b.drop m).avail = b.avail - m := rfl
  have hn : n ≤ (b.drop m).avail := by omega
  have hslots : ((b.drop m).drop n).slots = (b.drop (m + n)).slots := by
    apply getD_ext
    · rw [drop_size hsafe hn, drop_size h hm, drop_size h hcount]
    · intro i
      rw [drop_getD hsafe hn, drop_getD h hcount, drop_getD h hm, havail]
      by_cases hi : i < b.avail + kernelWidth - (m + n)
      · rw [if_pos (by omega), if_pos (by omega), if_pos hi, Nat.add_assoc]
      · rw [if_neg (by omega), if_neg hi]
  show ({ b with avail := b.avail - m - n, slots := ((b.drop m).drop n).slots } : Resampler) =
    { b with avail := b.avail - (m + n), slots := (b.drop (m + n)).slots }
  rw [hslots, Nat.sub_sub]

theorem read_eq {count : Nat} (hcount : count ≤ b.avail) :
    b.read count =
      ((integrate b.slots count 0 b.integrator #[]).2,
        { b.drop count with integrator := (integrate b.slots count 0 b.integrator #[]).1 }) := by
  unfold read
  rw [Nat.min_eq_left hcount]
  rfl

/-- To read some samples is to read a part of them and then the others. -/
theorem read_add (h : b.Safe) {m n : Nat} (hcount : m + n ≤ b.avail) :
    b.read (m + n) = ((b.read m).1 ++ ((b.read m).2.read n).1, ((b.read m).2.read n).2) := by
  have hm : m ≤ b.avail := by omega
  have hn : n ≤ (b.read m).2.avail := by
    rw [read_eq hm]
    show n ≤ b.avail - m
    omega
  have hmoved : ∀ k < n, (b.drop m).slots.getD (0 + k) 0 = b.slots.getD (m + k) 0 := by
    intro k hk
    rw [drop_getD h hm, Nat.zero_add, if_pos (by omega)]
  have hlater : integrate (b.drop m).slots n 0 (integrate b.slots m 0 b.integrator #[]).1 #[] =
      integrate b.slots n m (integrate b.slots m 0 b.integrator #[]).1 #[] := integrate_congr hmoved
  have hwhole : integrate b.slots (m + n) 0 b.integrator #[] =
      ((integrate b.slots n m (integrate b.slots m 0 b.integrator #[]).1 #[]).1,
        (integrate b.slots m 0 b.integrator #[]).2 ++
          (integrate b.slots n m (integrate b.slots m 0 b.integrator #[]).1 #[]).2) := by
    rw [integrate_add, Nat.zero_add, integrate_out]
  rw [read_eq hn, read_eq hm, read_eq hcount, hwhole]
  dsimp only
  rw [hlater, ← drop_drop h hcount]
  rfl

theorem setRates_meter {c : Resampler} (h : b.meter = c.meter) (clockRate sampleRate : Nat) :
    (b.setRates clockRate sampleRate).meter = (c.setRates clockRate sampleRate).meter := by
  unfold meter at h
  simp only [Prod.mk.injEq] at h
  obtain ⟨-, hoffset, havail, hsize⟩ := h
  unfold meter setRates
  dsimp only
  rw [hoffset, havail, hsize]

end Resampler

/-! ### The pair -/

namespace Stereo

theorem interleave_append : ∀ {ls rs : List Int} (ls' rs' : List Int), ls.length = rs.length →
    interleave (ls ++ ls') (rs ++ rs') = interleave ls rs ++ interleave ls' rs'
  | [], [], _, _, _ => rfl
  | l :: ls, r :: rs, ls', rs', h => by
      have hrest := interleave_append ls' rs' (Nat.succ.inj h)
      simp only [List.cons_append, interleave, hrest]

/-- Left and right samples alternate. -/
theorem interleave_getElem? : ∀ {ls rs : List Int}, ls.length = rs.length → ∀ k,
    (interleave ls rs)[2 * k]? = ls[k]? ∧ (interleave ls rs)[2 * k + 1]? = rs[k]?
  | [], [], _, k => by simp [interleave]
  | l :: ls, r :: rs, h, 0 => ⟨rfl, rfl⟩
  | l :: ls, r :: rs, h, k + 1 => interleave_getElem? (Nat.succ.inj h) k

variable {b : Stereo}

/-- Some pairs of samples. -/
def pairs (b : Stereo) (count : Nat) : List Int :=
  interleave (b.left.read count).1.toList (b.right.read count).1.toList

/-- Pairs of samples that are read into some places. -/
def pairsFor (b : Stereo) (length : Nat) : Nat := min b.samplesAvail (length / 2)

theorem readInterleaved_of_pos {length : Nat} (h : 0 < b.pairsFor length) :
    b.readInterleaved length =
      ((b.pairs (b.pairsFor length)).toArray, b.take (b.pairsFor length)) := by
  unfold pairsFor at h
  unfold readInterleaved
  dsimp only
  rw [if_neg (Nat.pos_iff_ne_zero.1 h)]
  rfl

theorem readInterleaved_of_zero {length : Nat} (h : b.pairsFor length = 0) :
    b.readInterleaved length = (#[], b) := by
  unfold pairsFor at h
  unfold readInterleaved
  dsimp only
  rw [if_pos h]

theorem pairs_sides {count : Nat} (h : count ≤ b.samplesAvail) :
    (b.left.read count).1.toList.length = count ∧
      (b.right.read count).1.toList.length = count := by
  unfold samplesAvail at h
  rw [Array.length_toList, Array.length_toList, Resampler.read_size, Resampler.read_size]
  omega

theorem pairs_add (h : b.Safe) {m n : Nat} (hcount : m + n ≤ b.samplesAvail) :
    b.pairs (m + n) = b.pairs m ++ (b.take m).pairs n ∧ (b.take m).take n = b.take (m + n) := by
  have hfirst : m ≤ b.samplesAvail := by omega
  have hsides := pairs_sides hfirst
  unfold samplesAvail at hcount
  have hleft := Resampler.read_add h.left (m := m) (n := n) (by omega)
  have hright := Resampler.read_add h.right (m := m) (n := n) (by omega)
  refine ⟨?_, ?_⟩
  · unfold pairs
    rw [hleft, hright, Array.toList_append, Array.toList_append,
      interleave_append _ _ (hsides.1.trans hsides.2.symm)]
    rfl
  · unfold take
    rw [hleft, hright]

/-- To read into some places is to read into a part of them and then into the others, if the parts
hold whole pairs. -/
theorem readInterleaved_add (h : b.Safe) (m n : Nat) :
    b.readInterleaved (2 * m + 2 * n) =
      ((b.readInterleaved (2 * m)).1 ++ ((b.readInterleaved (2 * m)).2.readInterleaved (2 * n)).1,
        ((b.readInterleaved (2 * m)).2.readInterleaved (2 * n)).2) := by
  have hwhole : b.pairsFor (2 * m + 2 * n) = min b.samplesAvail (m + n) := by
    unfold pairsFor
    omega
  have hfirst : b.pairsFor (2 * m) = min b.samplesAvail m := by
    unfold pairsFor
    omega
  obtain hnone | hsome := Nat.eq_zero_or_pos (b.pairsFor (2 * m))
  · -- Nothing is read at first: there is no room or there are no samples.
    have hsame : b.pairsFor (2 * m + 2 * n) = b.pairsFor (2 * n) := by
      have hrest : b.pairsFor (2 * n) = min b.samplesAvail n := by
        unfold pairsFor
        omega
      omega
    rw [readInterleaved_of_zero hnone]
    dsimp only
    rw [Array.empty_append]
    unfold pairsFor at hsame
    unfold readInterleaved
    dsimp only
    rw [hsame]
  · have htaken : (b.take (b.pairsFor (2 * m))).samplesAvail =
        b.samplesAvail - b.pairsFor (2 * m) := by
      show min (b.left.avail - min _ b.left.avail) (b.right.avail - min _ b.right.avail) =
        min b.left.avail b.right.avail - _
      omega
    have hrest : (b.take (b.pairsFor (2 * m))).pairsFor (2 * n) =
        b.pairsFor (2 * m + 2 * n) - b.pairsFor (2 * m) := by
      unfold pairsFor at htaken ⊢
      omega
    have hsum : b.pairsFor (2 * m) + (b.pairsFor (2 * m + 2 * n) - b.pairsFor (2 * m)) =
        b.pairsFor (2 * m + 2 * n) := by omega
    obtain ⟨hpairs, htakes⟩ := pairs_add h (m := b.pairsFor (2 * m))
      (n := b.pairsFor (2 * m + 2 * n) - b.pairsFor (2 * m)) (by omega)
    rw [hsum] at hpairs htakes
    have hboth : 0 < b.pairsFor (2 * m + 2 * n) := by omega
    rw [readInterleaved_of_pos hsome, readInterleaved_of_pos hboth]
    dsimp only
    obtain hlast | hmore := Nat.eq_zero_or_pos ((b.take (b.pairsFor (2 * m))).pairsFor (2 * n))
    · have hequal : b.pairsFor (2 * m + 2 * n) = b.pairsFor (2 * m) := by omega
      rw [readInterleaved_of_zero hlast, hequal]
      simp
    · rw [readInterleaved_of_pos hmore, hrest, hpairs, htakes, List.append_toArray]

theorem readInterleaved_even (b : Stereo) (length : Nat) :
    b.readInterleaved length = b.readInterleaved (2 * (length / 2)) := by
  unfold readInterleaved
  rw [Nat.mul_div_cancel_left _ (by decide)]

/-- What is read are pairs, each of the left and the right sample of the same number. -/
theorem readInterleaved_pairs (b : Stereo) (length : Nat) :
    (b.readInterleaved length).1.size = 2 * b.pairsFor length ∧
      ∀ k, (b.readInterleaved length).1[2 * k]? = (b.left.read (b.pairsFor length)).1[k]? ∧
        (b.readInterleaved length).1[2 * k + 1]? = (b.right.read (b.pairsFor length)).1[k]? := by
  have hcount : b.pairsFor length ≤ b.samplesAvail := Nat.min_le_left _ _
  obtain ⟨hleft, hright⟩ := pairs_sides hcount
  have hsides := hleft.trans hright.symm
  have hread : (b.readInterleaved length).1 = (b.pairs (b.pairsFor length)).toArray := by
    obtain hnone | hsome := Nat.eq_zero_or_pos (b.pairsFor length)
    · rw [hnone, List.length_eq_zero_iff] at hleft hright
      rw [readInterleaved_of_zero hnone, hnone]
      unfold pairs
      rw [hleft, hright]
      rfl
    · rw [readInterleaved_of_pos hsome]
  rw [hread]
  refine ⟨(length_interleave _ _ hsides).trans (by rw [hleft]), fun k => ?_⟩
  rw [List.getElem?_toArray, List.getElem?_toArray, ← Array.getElem?_toList,
    ← Array.getElem?_toList]
  exact interleave_getElem? hsides k

/-- What calls with places of some lengths read one after the other, and what they leave. -/
def readChunks (b : Stereo) : List Nat → Array Int × Stereo
  | [] => (#[], b)
  | length :: lengths =>
    let (samples, b) := b.readInterleaved length
    let (others, b) := readChunks b lengths
    (samples ++ others, b)

/-- The places that calls of some lengths can fill with pairs. -/
def wholePairs : List Nat → Nat
  | [] => 0
  | length :: lengths => 2 * (length / 2) + wholePairs lengths

theorem wholePairs_even (lengths : List Nat) :
    2 * (wholePairs lengths / 2) = wholePairs lengths := by
  induction lengths with
  | nil => rfl
  | cons length lengths ih =>
      rw [wholePairs]
      omega

theorem readChunks_eq (h : b.Safe) (lengths : List Nat) :
    b.readChunks lengths = b.readInterleaved (wholePairs lengths) := by
  induction lengths generalizing b with
  | nil =>
      have hnone : b.pairsFor (wholePairs []) = 0 := Nat.min_zero _
      rw [readInterleaved_of_zero hnone]
      rfl
  | cons length lengths ih =>
      have hrest := ih (h.readInterleaved length)
      have heven := wholePairs_even lengths
      rw [wholePairs, ← heven, readInterleaved_add h, heven, ← readInterleaved_even, ← hrest]
      rfl

/-! ### Uses -/

/-- An output as it can come about. -/
inductive Reached : Stereo → Prop
  | new (clockRate sampleRate capacity : Nat) : Reached (.new clockRate sampleRate capacity)
  | addDelta {b : Stereo} (h : Reached b) (routing : Routing) (time : Nat) (delta : Int) :
      Reached (b.addDelta routing time delta)
  | endFrame {b : Stereo} (h : Reached b) (clocks : Nat) : Reached (b.endFrame clocks)
  | clear {b : Stereo} (h : Reached b) : Reached b.clear
  | setRates {b : Stereo} (h : Reached b) (clockRate sampleRate : Nat) :
      Reached (b.setRates clockRate sampleRate)
  | readInterleaved {b : Stereo} (h : Reached b) (length : Nat) :
      Reached (b.readInterleaved length).2
  | discard {b : Stereo} (h : Reached b) : Reached b.discard

theorem Reached.safe (h : Reached b) : b.Safe := by
  induction h with
  | new clockRate sampleRate capacity =>
      exact ⟨.new clockRate sampleRate capacity, .new clockRate sampleRate capacity⟩
  | addDelta _ routing time delta ih => exact Safe.stable.addDelta ih routing time delta
  | endFrame _ clocks ih => exact ih.endFrame clocks
  | clear _ ih => exact ih.clear
  | setRates _ _ _ ih => exact ⟨⟨ih.left.size, ih.left.avail⟩, ⟨ih.right.size, ih.right.avail⟩⟩
  | readInterleaved _ length ih => exact ih.readInterleaved length
  | discard _ ih => exact ih.discard

/-- Both sides have the same clock and the same count of samples. -/
theorem Reached.sides (h : Reached b) : b.left.meter = b.right.meter := by
  have htake {b : Stereo} (h : Reached b) (hb : b.left.meter = b.right.meter) (count : Nat) :
      (b.take count).left.meter = (b.take count).right.meter :=
    Resampler.read_meter hb h.safe.left h.safe.right count
  induction h with
  | new clockRate sampleRate capacity => rfl
  | @addDelta b _ routing time delta ih =>
      have hside (s : Side) :
          ((b.addDelta routing time delta).side s).meter = (b.side s).meter := by
        rw [side_addDelta]
        split
        · exact Resampler.addDelta_meter _ time delta
        · rfl
      exact (hside .left).trans (ih.trans (hside .right).symm)
  | @endFrame b _ clocks ih =>
      have hleft := congrArg Resampler.meter (side_endFrame b clocks .left)
      have hright := congrArg Resampler.meter (side_endFrame b clocks .right)
      exact hleft.trans ((Resampler.endFrame_meter ih clocks).trans hright.symm)
  | clear _ ih => exact Resampler.clear_meter ih
  | setRates _ clockRate sampleRate ih => exact Resampler.setRates_meter ih clockRate sampleRate
  | @readInterleaved b hb length ih =>
      obtain hnone | hsome := Nat.eq_zero_or_pos (b.pairsFor length)
      · rw [readInterleaved_of_zero hnone]
        exact ih
      · rw [readInterleaved_of_pos hsome]
        exact htake hb ih _
  | discard hb ih => exact htake hb ih _

end Stereo

/-! ### The host's array -/

namespace Resampler

theorem place_size (stride : Nat) : ∀ (ss : List Int) (dst : Array Int) (i : Nat),
    (place dst stride i ss).size = dst.size
  | [], _, _ => rfl
  | s :: ss, dst, i => by
      rw [place, place_size stride ss, Array.size_setIfInBounds]

/-- Places between those that are filled keep what they hold. -/
theorem place_getD_off (stride : Nat) : ∀ (ss : List Int) (dst : Array Int) {i j : Nat},
    (∀ k < ss.length, i + k * stride ≠ j) → (place dst stride i ss).getD j 0 = dst.getD j 0
  | [], _, _, _, _ => rfl
  | s :: ss, dst, i, j, h => by
      have hfirst : i ≠ j := by simpa using h 0 (Nat.succ_pos _)
      have hrest : ∀ k < ss.length, i + stride + k * stride ≠ j := by
        intro k hk
        have hnext := h (k + 1) (Nat.succ_lt_succ hk)
        rwa [Nat.succ_mul, Nat.add_comm (k * stride), ← Nat.add_assoc] at hnext
      rw [place, place_getD_off stride ss _ hrest]
      simp [Array.getD_eq_getD_getElem?, hfirst]

theorem getD_append (xs ys : Array Int) (j : Nat) :
    (xs ++ ys).getD j 0 = if j < xs.size then xs.getD j 0 else ys.getD (j - xs.size) 0 := by
  simp only [Array.getD_eq_getD_getElem?, Array.getElem?_append]
  split <;> rfl

theorem getD_extract (xs : Array Int) {start j : Nat} :
    (xs.extract start xs.size).getD j 0 = xs.getD (start + j) 0 := by
  simp only [Array.getD_eq_getD_getElem?, Array.getElem?_extract, Nat.min_self]
  split
  · rfl
  · rw [Array.getElem?_eq_none (by omega)]

/-- One side in every second place and the other in the places after them, from the second place on,
are pairs at the front. -/
theorem place_pairs {ls rs : List Int} (hsides : ls.length = rs.length) {dst : Array Int}
    (hfits : 2 * ls.length ≤ dst.size) (hsome : 0 < ls.length) :
    (place dst 2 0 ls).extract 0 1 ++
        place ((place dst 2 0 ls).extract 1 (place dst 2 0 ls).size) 2 0 rs =
      (Stereo.interleave ls rs).toArray ++ dst.extract (2 * ls.length) dst.size := by
  have hlength : (Stereo.interleave ls rs).toArray.size = 2 * ls.length :=
    Stereo.length_interleave ls rs hsides
  have hfront := place_size 2 ls dst 0
  -- The first place is put in front of the others.
  have hsplit (j : Nat) : ((place dst 2 0 ls).extract 0 1 ++
      place ((place dst 2 0 ls).extract 1 (place dst 2 0 ls).size) 2 0 rs).getD j 0 =
        if j < 1 then (place dst 2 0 ls).getD j 0
        else (place ((place dst 2 0 ls).extract 1 (place dst 2 0 ls).size) 2 0 rs).getD (j - 1)
          0 := by
    have hone : ((place dst 2 0 ls).extract 0 1).size = 1 := by
      rw [Array.size_extract]
      omega
    rw [getD_append, hone]
    split
    · rename_i hj
      simp only [Array.getD_eq_getD_getElem?, Array.getElem?_extract]
      rw [if_pos (by omega), Nat.zero_add]
    · rfl
  apply getD_ext
  · simp only [Array.size_append, place_size, Array.size_extract, hlength]
    omega
  · intro j
    rw [hsplit, getD_append, hlength, getD_extract]
    by_cases hj : j < 2 * ls.length
    · obtain ⟨hl, hr⟩ := Stereo.interleave_getElem? hsides (j / 2)
      have hentry : (Stereo.interleave ls rs).toArray.getD j 0 =
          (Stereo.interleave ls rs)[j]?.getD 0 := by
        rw [Array.getD_eq_getD_getElem?, List.getElem?_toArray]
      have hk : j / 2 < ls.length := by omega
      have hk' : j / 2 < rs.length := by omega
      rw [if_pos hj, hentry]
      obtain heven | hodd := Nat.mod_two_eq_zero_or_one j
      · have hplace := place_getD Nat.two_pos ls dst 0 (j / 2) hk (by omega)
        rw [show 0 + j / 2 * 2 = j by omega] at hplace
        rw [show 2 * (j / 2) = j by omega] at hl
        rw [hl, List.getElem?_eq_getElem hk]
        split
        · exact hplace
        · rw [place_getD_off 2 rs _ (by omega), getD_extract, show 1 + (j - 1) = j by omega]
          exact hplace
      · have hplace := place_getD Nat.two_pos rs
          ((place dst 2 0 ls).extract 1 (place dst 2 0 ls).size) 0 (j / 2) hk'
          (by rw [Array.size_extract]; omega)
        rw [show 0 + j / 2 * 2 = j - 1 by omega] at hplace
        rw [show 2 * (j / 2) + 1 = j by omega] at hr
        rw [hr, List.getElem?_eq_getElem hk', if_neg (by omega)]
        exact hplace
    · rw [if_neg (by omega), if_neg hj, place_getD_off 2 rs _ (by omega), getD_extract,
        place_getD_off 2 ls _ (by omega), show 1 + (j - 1) = 2 * ls.length + (j - 2 * ls.length) by
          omega]

theorem readInto_two (b : Resampler) {dst : Array Int} {count : Nat}
    (h : count ≤ (dst.size + 1) / 2) :
    b.readInto dst count 2 =
      ((b.read count).1.size, place dst 2 0 (b.read count).1.toList, (b.read count).2) := by
  have hcount : min count ((dst.size + max 2 1 - 1) / max 2 1) = count := Nat.min_eq_left h
  unfold readInto
  dsimp only
  rw [hcount]
  rfl

end Resampler

namespace Stereo

/-- Read pairs of samples into a host's array, as many as fit: the left side into every second
place, the right side into every second place from the next one on.  The number of places filled
comes first. -/
def fill (b : Stereo) (dst : Array Int) : Nat × Array Int × Stereo :=
  let frames := min b.samplesAvail (dst.size / 2)
  if frames = 0 then (0, dst, b)
  else
    let (_, dst, left) := b.left.readInto dst frames 2
    let (_, tail, right) := b.right.readInto (dst.extract 1 dst.size) frames 2
    (2 * frames, dst.extract 0 1 ++ tail, { b with left := left, right := right })

/-- The host finds the pairs at the front of its array, and behind them what was there. -/
theorem fill_eq (b : Stereo) (dst : Array Int) :
    b.fill dst =
      ((b.readInterleaved dst.size).1.size,
        (b.readInterleaved dst.size).1 ++
          dst.extract (b.readInterleaved dst.size).1.size dst.size,
        (b.readInterleaved dst.size).2) := by
  obtain hnone | hsome := Nat.eq_zero_or_pos (b.pairsFor dst.size)
  · rw [readInterleaved_of_zero hnone]
    unfold pairsFor at hnone
    unfold fill
    dsimp only
    rw [if_pos hnone]
    simp
  · have hfits : 2 * b.pairsFor dst.size ≤ dst.size := by
      unfold pairsFor
      omega
    have hcount : b.pairsFor dst.size ≤ b.samplesAvail := Nat.min_le_left _ _
    obtain ⟨hleft, hright⟩ := pairs_sides hcount
    have hsides := hleft.trans hright.symm
    rw [← hleft] at hfits
    have hpairs := Resampler.place_pairs hsides hfits (by rwa [hleft])
    have hsize : (b.pairs (b.pairsFor dst.size)).toArray.size = 2 * b.pairsFor dst.size :=
      (length_interleave _ _ hsides).trans (by rw [hleft])
    rw [readInterleaved_of_pos hsome]
    dsimp only
    rw [hsize]
    rw [hleft] at hpairs
    unfold fill
    dsimp only
    rw [show min b.samplesAvail (dst.size / 2) = b.pairsFor dst.size from rfl,
      if_neg (Nat.pos_iff_ne_zero.1 hsome), Resampler.readInto_two _ (by omega)]
    dsimp only
    rw [Resampler.readInto_two _ (by rw [Array.size_extract, Resampler.place_size]; omega)]
    exact congrArg (fun xs => (_, xs, _)) hpairs

/-- **Reading in chunks is reading at once.**  The two sides of an output keep the same clock and
the same count of samples.  Calls with any room read, one after the other, what one call reads with
the room for all of their pairs, and leave what it leaves.  The host finds pairs: at each pair of
places the left and the right sample of the same number, of those that each side gives when it is
read by itself. -/
theorem chunks_at_once {b : Stereo} (h : Reached b) :
    (b.left.avail = b.right.avail ∧ b.left.offset = b.right.offset ∧
      b.left.factor = b.right.factor) ∧
    (∀ lengths, b.readChunks lengths = b.readInterleaved (wholePairs lengths)) ∧
    ∀ dst : Array Int,
      b.fill dst =
        ((b.readInterleaved dst.size).1.size,
          (b.readInterleaved dst.size).1 ++
            dst.extract (b.readInterleaved dst.size).1.size dst.size,
          (b.readInterleaved dst.size).2) ∧
      (b.readInterleaved dst.size).1.size = 2 * b.pairsFor dst.size ∧
      ∀ k, (b.readInterleaved dst.size).1[2 * k]? = (b.left.read (b.pairsFor dst.size)).1[k]? ∧
        (b.readInterleaved dst.size).1[2 * k + 1]? =
          (b.right.read (b.pairsFor dst.size)).1[k]? := by
  have hsides := h.sides
  unfold Resampler.meter at hsides
  simp only [Prod.mk.injEq] at hsides
  refine ⟨⟨hsides.2.2.1, hsides.2.1, hsides.1⟩, readChunks_eq h.safe, fun dst => ?_⟩
  exact ⟨b.fill_eq dst, b.readInterleaved_pairs dst.size⟩

/-- Changes on both sides and on one, and calls with room for one pair, for none, for two and for
half of one more. -/
theorem chunks_at_once_of_four :
    let b := (((new 3579545 44100 64).addDelta .center 20 700).addDelta .left 50 300).endFrame 700
    Reached b ∧ b.samplesAvail = 8 ∧ b.readChunks [3, 1, 4, 7] = b.readInterleaved 12 ∧
      b.fill (Array.replicate 9 5) =
        ((b.readInterleaved 9).1.size, (b.readInterleaved 9).1.push 5,
          (b.readInterleaved 9).2) := by
  intro b
  have hreached : Reached b := .endFrame (.addDelta (.addDelta (.new ..) ..) ..) _
  have havail : b.samplesAvail = 8 := by decide +kernel
  obtain ⟨-, hchunks, hfill⟩ := chunks_at_once hreached
  obtain ⟨hnine, hsize, -⟩ := hfill (Array.replicate 9 5)
  have hfour : b.pairsFor 9 = 4 := by
    unfold pairsFor
    rw [havail]
    rfl
  rw [Array.size_replicate] at hnine hsize
  rw [hfour] at hsize
  refine ⟨hreached, havail, hchunks [3, 1, 4, 7], hnine.trans ?_⟩
  rw [hsize]
  rfl

end Stereo

end MasterSystem.Sound
