import MasterSystem.Proofs.Snapshot.RoundTrip

/-! # Writing again what was read

A layout accepts no bytes but those that it writes for the value that it reads (`Codec.Exact`), so
a value has one written form.

* **Combinators.**  Each way to build a layout keeps the property.  A number is not written with
  superfluous digits because its width is fixed, and an enumeration lists no value twice.  A layout
  seen as a record (`Exact.map`) needs that nothing is lost on the way to the record and back.
* **Parts.**  Every part of the machine has it, and so has a state (`state_exact`).
* **Whole files.**  `taken` are the bytes that reading a state takes, with the header; they are what
  the state is written as (`encode_of_decode`). -/

namespace MasterSystem.Snapshot

open Codec

namespace Codec

/-- The layout reads only what it writes. -/
def Exact {α : Type} (c : Codec α) : Prop :=
  ∀ bs x rest, c.read bs = some (x, rest) → bs = c.write x ++ rest

/-! ### Numbers -/

theorem digits_ofDigits : ∀ (width n : Nat) (bs rest : List UInt8),
    ofDigits width bs = some (n, rest) → bs = digits width n ++ rest ∧ n < range width
  | 0, n, bs, rest, h => by
      obtain ⟨rfl, rfl⟩ := Prod.mk.inj (Option.some.inj h)
      exact ⟨rfl, by decide⟩
  | _ + 1, _, [], _, h => by simp [ofDigits] at h
  | width + 1, n, b :: bs, rest, h => by
      obtain ⟨⟨k, rest'⟩, hk, hn⟩ := Option.map_eq_some_iff.1 h
      obtain ⟨rfl, rfl⟩ := Prod.mk.inj hn
      obtain ⟨rfl, hlt⟩ := digits_ofDigits width k bs rest' hk
      have hb := b.toNat_lt
      have hlow : (b.toNat + 256 * k) % 256 = b.toNat := by omega
      have hhigh : (b.toNat + 256 * k) / 256 = k := by omega
      rw [digits, range, hlow, hhigh, UInt8.ofNat_toNat]
      exact ⟨rfl, by omega⟩

theorem nat_exact (width : Nat) : (nat width).Exact :=
  fun bs n rest h => (digits_ofDigits width n bs rest h).1

theorem nat_yields (width : Nat) : (nat width).Yields (· < range width) :=
  fun bs n rest h => (digits_ofDigits width n bs rest h).2

/-- A layout seen as another type, if the way there and back loses nothing that is read. -/
theorem Exact.map {α β : Type} {c : Codec α} (h : c.Exact) {f : α → β} {g : β → α}
    (hg : c.Yields fun x => g (f x) = x) : (c.map f g).Exact := by
  intro bs y rest hread
  obtain ⟨⟨x, rest'⟩, hx, hy⟩ := Option.map_eq_some_iff.1 hread
  obtain ⟨rfl, rfl⟩ := Prod.mk.inj hy
  show bs = c.write (g (f x)) ++ rest'
  rw [hg bs x rest' hx]
  exact h bs x rest' hx

theorem toNat_signed {width n : Nat} (h : n < range width) :
    (signed width n % range width).toNat = n := by
  unfold signed
  split
  · rw [Int.emod_eq_of_lt (by omega) (by omega), Int.toNat_natCast]
  · rw [Int.sub_emod_right, Int.emod_eq_of_lt (by omega) (by omega), Int.toNat_natCast]

theorem int_exact (width : Nat) : (int width).Exact :=
  (nat_exact width).map fun bs n rest h => toNat_signed (nat_yields width bs n rest h)

theorem byte_exact : byte.Exact
  | _ :: _, _, _, h => by
      obtain ⟨rfl, rfl⟩ := Prod.mk.inj (Option.some.inj h)
      rfl
  | [], _, _, h => by simp [byte] at h

theorem word_exact : word.Exact :=
  (nat_exact 2).map fun bs n rest h => UInt16.toNat_ofNat_of_lt' (nat_yields 2 bs n rest h)

theorem double_exact : double.Exact :=
  (nat_exact 4).map fun bs n rest h => UInt32.toNat_ofNat_of_lt' (nat_yields 4 bs n rest h)

theorem quad_exact : quad.Exact :=
  (nat_exact 8).map fun bs n rest h => UInt64.toNat_ofNat_of_lt' (nat_yields 8 bs n rest h)

theorem bool_exact : bool.Exact
  | [], _, _, h => by simp [bool] at h
  | b :: bs, x, rest, h => by
      simp only [bool] at h ⊢
      split at h
      · rename_i hb
        obtain ⟨rfl, rfl⟩ := Prod.mk.inj (Option.some.inj h)
        simp [beq_iff_eq.1 hb]
      · split at h
        · rename_i hb
          obtain ⟨rfl, rfl⟩ := Prod.mk.inj (Option.some.inj h)
          simp [beq_iff_eq.1 hb]
        · simp at h

/-! ### Alternatives -/

theorem choice_exact {α : Type} [DecidableEq α] {values : List α} (h : values.Nodup) :
    (choice values).Exact := by
  intro bs x rest hread
  obtain ⟨⟨i, bs'⟩, hi, hread⟩ := Option.bind_eq_some_iff.1 hread
  obtain ⟨y, hy, hx⟩ := Option.bind_eq_some_iff.1 hread
  obtain ⟨rfl, rfl⟩ := Prod.mk.inj (Option.some.inj hx)
  obtain ⟨hlt, rfl⟩ := List.getElem?_eq_some_iff.1 hy
  show bs = (nat 4).write (values.idxOf values[i]) ++ bs'
  rw [h.idxOf_getElem i hlt]
  exact nat_exact 4 bs i bs' hi

theorem named_exact {α : Type} [DecidableEq α] [Text.Named α]
    (h : ((Text.Named.names : List (α × String)).map Prod.fst).Nodup) :
    (named : Codec α).Exact := choice_exact h

theorem option_exact {α : Type} {c : Codec α} (hc : c.Exact) : c.option.Exact := by
  intro bs o rest hread
  obtain ⟨⟨present, bs'⟩, hpresent, hread⟩ := Option.bind_eq_some_iff.1 hread
  have hbs := bool_exact bs present bs' hpresent
  cases present with
  | false =>
      obtain ⟨rfl, rfl⟩ := Prod.mk.inj (Option.some.inj hread)
      exact hbs
  | true =>
      obtain ⟨⟨x, rest'⟩, hx, ho⟩ := Option.bind_eq_some_iff.1 hread
      obtain ⟨rfl, rfl⟩ := Prod.mk.inj (Option.some.inj ho)
      show bs = bool.write true ++ c.write x ++ rest'
      rw [hbs, hc bs' x rest' hx, List.append_assoc]

/-! ### Sequences -/

theorem Exact.pair {α β : Type} {c : Codec α} {d : Codec β} (hc : c.Exact) (hd : d.Exact) :
    (c.pair d).Exact := by
  intro bs p rest hread
  obtain ⟨⟨x, bs'⟩, hx, hread⟩ := Option.bind_eq_some_iff.1 hread
  obtain ⟨⟨y, rest'⟩, hy, hp⟩ := Option.bind_eq_some_iff.1 hread
  obtain ⟨rfl, rfl⟩ := Prod.mk.inj (Option.some.inj hp)
  show bs = c.write x ++ d.write y ++ rest'
  rw [hc bs x bs' hx, hd bs' y rest' hy, List.append_assoc]

theorem readMany_exact {α : Type} {c : Codec α} (hc : c.Exact) : ∀ (n : Nat) (xs ys : Array α)
    (bs rest : List UInt8), c.readMany n xs bs = some (ys, rest) →
    ∃ zs : List α, ys = xs ++ zs.toArray ∧ zs.length = n ∧ bs = zs.flatMap c.write ++ rest
  | 0, xs, ys, bs, rest, h => by
      obtain ⟨rfl, rfl⟩ := Prod.mk.inj (Option.some.inj h)
      exact ⟨[], by simp, rfl, rfl⟩
  | n + 1, xs, ys, bs, rest, h => by
      rw [readMany] at h
      split at h
      · rename_i x bs' hx
        obtain ⟨zs, rfl, hlength, hbs⟩ := readMany_exact hc n (xs.push x) ys bs' rest h
        refine ⟨x :: zs, by simp, by rw [List.length_cons, hlength], ?_⟩
        rw [hc bs x bs' hx, hbs, List.flatMap_cons, List.append_assoc]
      · simp at h

theorem array_exact {α : Type} {c : Codec α} (hc : c.Exact) : c.array.Exact := by
  intro bs xs rest hread
  obtain ⟨⟨n, bs'⟩, hn, hread⟩ := Option.bind_eq_some_iff.1 hread
  obtain ⟨zs, rfl, rfl, hbs⟩ := readMany_exact hc n #[] xs bs' rest hread
  have hcount := nat_exact 8 bs zs.length bs' hn
  simp only [array, Array.size_append, List.size_toArray, Array.toList_append]
  rw [hcount, hbs]
  simp

theorem vector_exact {α : Type} {n : Nat} {c : Codec α} (hc : c.Exact) : (c.vector n).Exact := by
  intro bs xs rest hread
  obtain ⟨⟨ys, bs'⟩, hys, hread⟩ := Option.bind_eq_some_iff.1 hread
  obtain ⟨zs, rfl, -, hbs⟩ := readMany_exact hc n #[] ys bs bs' hys
  dsimp only at hread
  split at hread
  · obtain ⟨rfl, rfl⟩ := Prod.mk.inj (Option.some.inj hread)
    simpa [vector, Vector.toList] using hbs
  · simp at hread

end Codec

/-! ### Parts -/

theorem registers_exact : registers.Exact := by
  refine Exact.map (word_exact.pair <| word_exact.pair <| word_exact.pair <| word_exact.pair <|
    word_exact.pair <| word_exact.pair <| word_exact.pair <| word_exact.pair <| word_exact.pair <|
    word_exact.pair <| word_exact.pair <| word_exact.pair <| word_exact.pair <| byte_exact.pair <|
    byte_exact.pair <| bool_exact.pair <| bool_exact.pair <| byte_exact.pair <| bool_exact.pair <|
    bool_exact.pair <| bool_exact.pair <| bool_exact.pair quad_exact) ?_
  rintro bs ⟨af, others⟩ rest -
  exact congrArg (·, others) (Word.ofBytes_high_low af)

theorem Codec.Exact.board {α : Type} {c : Codec α} (hc : c.Exact) (f : α → Mapper) {m : Mapper}
    {bs rest : List UInt8} (h : (c.read bs).map (fun p => (f p.1, p.2)) = some (m, rest)) :
    ∃ x, m = f x ∧ bs = c.write x ++ rest := by
  obtain ⟨⟨x, rest'⟩, hx, hm⟩ := Option.map_eq_some_iff.1 h
  obtain ⟨rfl, rfl⟩ := Prod.mk.inj hm
  exact ⟨x, rfl, hc bs x rest' hx⟩

theorem readBoard_exact {m : Mapper} {rest : List UInt8} : ∀ (n : Nat) (bs : List UInt8),
    readBoard n bs = some (m, rest) → boardNumber m = n ∧ bs = writeBoard m ++ rest
  | 0, bs, h => by
      obtain ⟨rfl, rfl⟩ := Prod.mk.inj (Option.some.inj h)
      exact ⟨rfl, rfl⟩
  | 1, bs, h => by
      have hsega : sega.Exact :=
        Exact.map (byte_exact.pair <| (vector_exact byte_exact).pair <|
          (array_exact byte_exact).pair bool_exact) fun _ _ _ _ => rfl
      obtain ⟨x, rfl, hbs⟩ := hsega.board .sega h
      exact ⟨rfl, hbs⟩
  | 2, bs, h => by
      have hcodemasters : codemasters.Exact :=
        Exact.map ((vector_exact byte_exact).pair <| bool_exact.pair <|
          (array_exact byte_exact).pair bool_exact) fun _ _ _ _ => rfl
      obtain ⟨x, rfl, hbs⟩ := hcodemasters.board .codemasters h
      exact ⟨rfl, hbs⟩
  | 3, bs, h => by
      obtain ⟨x, rfl, hbs⟩ := byte_exact.board (fun x => .korean ⟨x⟩) h
      exact ⟨rfl, hbs⟩
  | 4, bs, h => by
      obtain ⟨x, rfl, hbs⟩ := (vector_exact byte_exact).board (fun x => .msx ⟨x⟩) h
      exact ⟨rfl, hbs⟩
  | 5, bs, h => by
      have hjanggun : janggun.Exact :=
        Exact.map ((vector_exact byte_exact).pair (vector_exact bool_exact)) fun _ _ _ _ => rfl
      obtain ⟨x, rfl, hbs⟩ := hjanggun.board .janggun h
      exact ⟨rfl, hbs⟩
  | 6, bs, h => by
      obtain ⟨x, rfl, hbs⟩ := (array_exact byte_exact).board (fun x => .sg1000 ⟨x⟩) h
      exact ⟨rfl, hbs⟩
  | n + 7, bs, h => by simp [readBoard] at h

theorem mapper_exact : mapper.Exact := by
  intro bs m rest hread
  obtain ⟨⟨n, bs'⟩, hn, hboard⟩ := Option.bind_eq_some_iff.1 hread
  have hbs := nat_exact 4 bs n bs' hn
  obtain ⟨rfl, hrest⟩ := readBoard_exact n bs' hboard
  show bs = (nat 4).write (boardNumber m) ++ writeBoard m ++ rest
  rw [hbs, hrest, List.append_assoc]

theorem frame_exact : frame.Exact :=
  Exact.map ((nat_exact 4).pair <| (nat_exact 4).pair (array_exact double_exact))
    fun _ _ _ _ => rfl

theorem video_exact : video.Exact :=
  Exact.map ((named_exact (by decide)).pair <| (named_exact (by decide)).pair <|
    (vector_exact byte_exact).pair <| (array_exact byte_exact).pair <|
    (array_exact byte_exact).pair <| byte_exact.pair <| (array_exact double_exact).pair <|
    word_exact.pair <| byte_exact.pair <| (option_exact byte_exact).pair <| byte_exact.pair <|
    byte_exact.pair <| (nat_exact 4).pair <| (nat_exact 4).pair <| byte_exact.pair <|
    bool_exact.pair <| byte_exact.pair <| byte_exact.pair <| bool_exact.pair <|
    bool_exact.pair frame_exact) fun _ _ _ _ => rfl

theorem oscillator_exact : oscillator.Exact :=
  Exact.map (byte_exact.pair <| (named_exact (by decide)).pair <|
    (int_exact 4).pair (nat_exact 4)) fun _ _ _ _ => rfl

theorem psg_exact : psg.Exact := by
  have hsquare : square.Exact :=
    Exact.map (oscillator_exact.pair <| (nat_exact 4).pair bool_exact) fun _ _ _ _ => rfl
  have hnoise : noise.Exact :=
    Exact.map (oscillator_exact.pair <| word_exact.pair <| word_exact.pair byte_exact)
      fun _ _ _ _ => rfl
  exact Exact.map ((vector_exact hsquare).pair <| hnoise.pair <| byte_exact.pair <|
    (nat_exact 4).pair <| (named_exact (by decide)).pair <| byte_exact.pair bool_exact)
    fun _ _ _ _ => rfl

theorem fm_exact : fm.Exact := by
  have hoperator : operator.Exact :=
    Exact.map ((nat_exact 4).pair <| (nat_exact 4).pair <| (named_exact (by decide)).pair <|
      (int_exact 4).pair (int_exact 4)) fun _ _ _ _ => rfl
  have hchannel : fmChannel.Exact :=
    Exact.map (hoperator.pair <| hoperator.pair bool_exact) fun _ _ _ _ => rfl
  exact Exact.map (byte_exact.pair <| (array_exact byte_exact).pair <|
    (vector_exact hchannel).pair <| byte_exact.pair <| double_exact.pair <| double_exact.pair <|
    (nat_exact 4).pair <| (nat_exact 4).pair <| (nat_exact 4).pair <|
    (int_exact 4).pair bool_exact) fun _ _ _ _ => rfl

theorem mixer_exact : mixer.Exact := by
  have hresampler : resampler.Exact :=
    Exact.map ((nat_exact 8).pair <| (nat_exact 8).pair <| (nat_exact 8).pair <|
      (int_exact 8).pair (array_exact (int_exact 8))) fun _ _ _ _ => rfl
  have hstereo : stereo.Exact := Exact.map (hresampler.pair hresampler) fun _ _ _ _ => rfl
  exact Exact.map (psg_exact.pair <| (option_exact fm_exact).pair <| byte_exact.pair <|
    hstereo.pair (nat_exact 4)) fun _ _ _ _ => rfl

theorem controls_exact : controls.Exact := by
  have hphaser : phaser.Exact :=
    Exact.map ((int_exact 4).pair <| (int_exact 4).pair bool_exact) fun _ _ _ _ => rfl
  exact Exact.map ((vector_exact byte_exact).pair <| byte_exact.pair (option_exact hphaser))
    fun _ _ _ _ => rfl

/-! ### States -/

/-- **A state is read from no other bytes than it is written as.** -/
theorem state_exact : state.Exact :=
  Exact.map (registers_exact.pair <| (array_exact byte_exact).pair <| mapper_exact.pair <|
    bool_exact.pair <| byte_exact.pair <| video_exact.pair <| mixer_exact.pair <|
    controls_exact.pair <| (nat_exact 8).pair (nat_exact 4)) fun _ _ _ _ => rfl

/-- The bytes that reading a state takes from the front of a byte string, with the header. -/
def taken (bs : List UInt8) : List UInt8 :=
  match state.read (bs.drop headerSize) with
  | some (_, rest) => bs.take (bs.length - rest.length)
  | none => []

theorem write_doubleAt (bs : List UInt8) (h : 4 ≤ bs.length) :
    bs = double.write (doubleAt bs) ++ bs.drop 4 := by
  match bs, h with
  | a :: b :: c :: d :: bs, _ =>
      have hread : double.read (a :: b :: c :: d :: bs) = some (_, bs) := rfl
      have hexact := double_exact _ _ _ hread
      unfold doubleAt
      rw [hread]
      exact hexact

/-- What is accepted as a state is the state's written form and anything after it. -/
theorem encode_of_decode {crc : UInt32} {bs : List UInt8} {s : State}
    (h : decode crc bs = .ok s) : encode crc s = taken bs := by
  unfold decode at h
  dsimp only at h
  repeat' split at h
  case h_1 hlength hmagic hversion hcrc _ s' rest hread =>
    obtain rfl := Except.ok.inj h
    rw [Nat.not_lt] at hlength
    have hlength : 12 ≤ bs.length := hlength
    have hhead : bs = header crc ++ bs.drop headerSize := by
      have hfour := write_doubleAt (bs.drop 4) (by rw [List.length_drop]; omega)
      have height := write_doubleAt (bs.drop 8) (by rw [List.length_drop]; omega)
      rw [Decidable.not_not.1 hversion, List.drop_drop] at hfour
      rw [Decidable.not_not.1 hcrc, List.drop_drop] at height
      calc bs = bs.take 4 ++ bs.drop 4 := (List.take_append_drop 4 bs).symm
        _ = magic ++ (double.write version ++ (double.write crc ++ bs.drop headerSize)) := by
            rw [Decidable.not_not.1 hmagic, hfour]
            exact congrArg (fun l => magic ++ (double.write version ++ l)) height
        _ = header crc ++ bs.drop headerSize := by
            unfold header
            simp only [List.append_assoc]
    have hstate := state_exact _ _ _ hread
    have hall : bs = encode crc s' ++ rest := by
      unfold encode
      rw [List.append_assoc, ← hstate]
      exact hhead
    unfold taken
    rw [hread]
    dsimp only
    have hsize : bs.length - rest.length = (encode crc s').length := by
      rw [hall, List.length_append, Nat.add_sub_cancel]
    rw [hsize, hall, List.take_left']
    rfl
  all_goals simp at h

end MasterSystem.Snapshot
