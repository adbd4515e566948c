import MasterSystem.Proofs.Sound.Safety

/-! # The resampler loses no step

A change of level goes into a resampler as sixteen weighted copies, and comes out again as samples,
some of it decayed.  Nothing gets lost on the way: what the slots hold, the level before the first
unread sample and what has been read balance with the changes that were added.

* **Kernel.**  The weights of every phase sum to `gain` (`total_weights`), so that spreading a
  change adds its height times the gain (`total_addDelta`).
* **Reading.**  A sample takes from the level what it lets decay (`integrate_total`).
* **Reach.**  A read clears the slots past the unread samples and the width of a kernel.  It loses
  nothing because no step reaches further (`Reach`): a frame ends behind all of its changes, also
  when it overruns the buffer.
* **Runs.**  `InOrder` are the sequences of uses in which every change lies within its frame and
  samples are read between frames; along them the account balances (`no_step_lost`). -/

namespace MasterSystem.Sound

/-! ### Sums -/

@[simp] theorem total_nil : total [] = 0 := rfl

@[simp] theorem total_cons (w : Int) (ws : List Int) : total (w :: ws) = w + total ws := rfl

@[simp] theorem total_append (vs ws : List Int) : total (vs ++ ws) = total vs + total ws := by
  induction vs with
  | nil => simp
  | cons v vs ih => simp [ih, Int.add_assoc]

theorem total_modify {ws : List Int} {i : Nat} (h : i < ws.length) (d : Int) :
    total (ws.modify i (· + d)) = total ws + d := by
  induction ws generalizing i with
  | nil => simp at h
  | cons w ws ih =>
      cases i with
      | zero =>
          simp
          omega
      | succ i =>
          have hi : i < ws.length := by simpa using h
          simp [ih hi, Int.add_assoc]

theorem total_eq_zero {ws : List Int} (h : ∀ w ∈ ws, w = 0) : total ws = 0 := by
  induction ws with
  | nil => rfl
  | cons w ws ih =>
      rw [total_cons, h w List.mem_cons_self, ih fun v hv => h v (List.mem_cons_of_mem w hv)]
      rfl

theorem total_take_add_drop (ws : List Int) (n : Nat) :
    total (ws.take n) + total (ws.drop n) = total ws := by
  rw [← total_append, List.take_append_drop]

/-! ### The kernel -/

theorem length_weights (phase : Nat) : (weights phase).length = kernelWidth := by
  simp [weights]

/-- The weights of every phase sum to the gain. -/
theorem total_weights (phase : Nat) : total (weights phase) = gain := by
  unfold weights
  dsimp only
  rw [total_modify (by simp [kernelWidth])]
  omega

theorem kernel_getD {phase : Nat} (h : phase < phases) : kernel.getD phase [] = weights phase := by
  simp [kernel, Array.getD_eq_getD_getElem?, h]

namespace Resampler

/-! ### Adding changes -/

theorem total_spread (ws : List Int) : ∀ (slots : Array Int) (i : Nat) (delta : Int),
    i + ws.length ≤ slots.size →
    total (spread slots i delta ws).toList = total slots.toList + total ws * delta := by
  induction ws with
  | nil =>
      intro slots i delta _
      simp [spread]
  | cons w ws ih =>
      intro slots i delta h
      rw [List.length_cons] at h
      have hi : i < slots.toList.length := by
        rw [Array.length_toList]
        omega
      have hrest : i + 1 + ws.length ≤ (slots.modify i (· + w * delta)).size := by
        rw [Array.size_modify]
        omega
      rw [spread, ih _ _ _ hrest, Array.toList_modify, total_modify hi, total_cons, Int.add_mul,
        Int.add_assoc]

theorem spread_getD (ws : List Int) : ∀ (slots : Array Int) (i : Nat) (delta : Int) {j : Nat},
    i + ws.length ≤ j → (spread slots i delta ws).getD j 0 = slots.getD j 0 := by
  induction ws with
  | nil =>
      intro slots i delta j _
      rfl
  | cons w ws ih =>
      intro slots i delta j h
      rw [List.length_cons] at h
      have hne : i ≠ j := by omega
      rw [spread, ih _ _ _ (by omega)]
      simp [Array.getD_eq_getD_getElem?, Array.getElem?_modify, hne]

variable {b : Resampler}

/-- The phase of a change is one of the kernel's, and a late one has phase zero. -/
theorem phase_lt (b : Resampler) (time : Nat) :
    (if b.slotOf time ≤ b.capacity then b.position time / (timeUnit / phases) % phases else 0) <
      phases := by
  split
  · exact Nat.mod_lt _ (by decide)
  · decide

/-- A change adds its height times the gain to the slots. -/
theorem total_addDelta (h : b.Safe) (time : Nat) (delta : Int) :
    total (b.addDelta time delta).slots.toList = total b.slots.toList + gain * delta := by
  unfold addDelta
  split
  · rename_i hzero
    rw [hzero, Int.mul_zero, Int.add_zero]
  · dsimp only
    rw [kernel_getD (b.phase_lt time), total_spread, total_weights]
    rw [length_weights]
    have := h.size
    unfold capacity
    omega

/-- A change touches no slot a kernel's width or more behind its first. -/
theorem addDelta_getD (b : Resampler) (time : Nat) (delta : Int) {j : Nat}
    (h : min (b.slotOf time) b.capacity + kernelWidth ≤ j) :
    (b.addDelta time delta).slots.getD j 0 = b.slots.getD j 0 := by
  unfold addDelta
  split
  · rfl
  · dsimp only
    rw [kernel_getD (b.phase_lt time)]
    apply spread_getD
    rw [length_weights]
    exact h

theorem addDelta_frame (b : Resampler) (time : Nat) (delta : Int) :
    (b.addDelta time delta).avail = b.avail ∧ (b.addDelta time delta).integrator = b.integrator ∧
      (b.addDelta time delta).capacity = b.capacity ∧
      ∀ t, (b.addDelta time delta).slotOf t = b.slotOf t := by
  unfold addDelta
  split
  · exact ⟨rfl, rfl, rfl, fun _ => rfl⟩
  · refine ⟨rfl, rfl, ?_, fun _ => rfl⟩
    unfold capacity
    dsimp only
    rw [spread_size]

/-! ### Reading -/

/-- What the samples take from the level and what the slots add to it balance. -/
theorem integrate_total (slots : Array Int) : ∀ (n i : Nat) (level : Int) (out : Array Int),
    i + n ≤ slots.size →
    (integrate slots n i level out).1 + 64 * total (integrate slots n i level out).2.toList =
      level + 64 * total out.toList + total ((slots.toList.drop i).take n) := by
  intro n
  induction n with
  | zero =>
      intro i level out _
      simp [integrate]
  | succ n ih =>
      intro i level out h
      have hi : i < slots.toList.length := by
        rw [Array.length_toList]
        omega
      have hslot : slots.getD i 0 = slots.toList[i] := by
        simp [Array.getD_eq_getD_getElem?, show i < slots.size by omega]
      rw [integrate, ih _ _ _ (by omega), List.drop_eq_getElem_cons hi, List.take_succ_cons,
        total_cons, ← hslot, Array.toList_push, total_append]
      simp only [total_cons, total_nil, nextLevel]
      omega

theorem integrate_size (slots : Array Int) : ∀ (n i : Nat) (level : Int) (out : Array Int),
    (integrate slots n i level out).2.size = out.size + n := by
  intro n
  induction n with
  | zero =>
      intro i level out
      rfl
  | succ n ih =>
      intro i level out
      rw [integrate, ih, Array.size_push]
      omega

/-- The slots from `n` on are empty. -/
def EmptyFrom (b : Resampler) (n : Nat) : Prop := ∀ i, n ≤ i → b.slots.getD i 0 = 0

theorem EmptyFrom.total_drop {n : Nat} (h : b.EmptyFrom n) : total (b.slots.toList.drop n) = 0 := by
  apply total_eq_zero
  intro w hw
  obtain ⟨k, hk, rfl⟩ := List.mem_iff_getElem.1 hw
  have hslot := h (n + k) (by omega)
  rw [List.length_drop, Array.length_toList] at hk
  simpa [Array.getD_eq_getD_getElem?, show n + k < b.slots.size by omega] using hslot

/-- The slots that a read keeps, at the front. -/
theorem drop_slots (h : b.Safe) {count : Nat} (hcount : count ≤ b.avail) :
    (b.drop count).slots.toList =
      (b.slots.toList.drop count).take (b.avail + kernelWidth - count) ++
        List.replicate (b.slots.size - (b.avail + kernelWidth - count)) 0 := by
  have hcarried := h.inRange.carried count hcount
  have hkept : (b.slots.extract count (count + (b.avail + kernelWidth - count))).size =
      b.avail + kernelWidth - count := by
    rw [Array.size_extract]
    omega
  unfold drop
  dsimp only
  rw [hkept, Array.toList_append, Array.toList_extract, Array.toList_replicate,
    List.extract_eq_take_drop, Nat.add_sub_cancel_left]

/-- Dropping samples loses what their slots held, if there is nothing further behind. -/
theorem total_drop (h : b.Safe) (hempty : b.EmptyFrom (b.avail + kernelWidth)) {count : Nat}
    (hcount : count ≤ b.avail) :
    total (b.drop count).slots.toList = total (b.slots.toList.drop count) := by
  have hsplit := total_take_add_drop (b.slots.toList.drop count) (b.avail + kernelWidth - count)
  rw [List.drop_drop, show count + (b.avail + kernelWidth - count) = b.avail + kernelWidth by omega,
    hempty.total_drop, Int.add_zero] at hsplit
  rw [drop_slots h hcount, total_append, hsplit,
    total_eq_zero fun w hw => List.eq_of_mem_replicate hw, Int.add_zero]

theorem drop_emptyFrom (h : b.Safe) {count : Nat} (hcount : count ≤ b.avail) :
    (b.drop count).EmptyFrom ((b.drop count).avail + kernelWidth) := by
  intro i hi
  have hsplit := drop_slots h hcount
  have hlength : ((b.slots.toList.drop count).take (b.avail + kernelWidth - count)).length ≤ i := by
    have hi : b.avail - count + kernelWidth ≤ i := hi
    rw [List.length_take]
    omega
  rw [Array.getD_eq_getD_getElem?, ← Array.getElem?_toList, hsplit,
    List.getElem?_append_right hlength, List.getElem?_replicate]
  split <;> rfl

/-- Reading keeps the level, the slots and the samples in balance. -/
theorem read_balance (h : b.Safe) (hempty : b.EmptyFrom (b.avail + kernelWidth)) (count : Nat) :
    (b.read count).2.integrator + total (b.read count).2.slots.toList +
        64 * total (b.read count).1.toList =
      b.integrator + total b.slots.toList := by
  have hcount := Nat.min_le_right count b.avail
  have hunread : 0 + min count b.avail ≤ b.slots.size := by
    have := h.size
    have := h.avail
    unfold capacity at this
    omega
  unfold read
  dsimp only
  generalize min count b.avail = k at hcount hunread ⊢
  have hlevel := integrate_total b.slots k 0 b.integrator (Array.mkEmpty k) hunread
  generalize integrate b.slots k 0 b.integrator (Array.mkEmpty k) = p at hlevel ⊢
  have hkept := total_drop (b := { b with integrator := p.1 }) ⟨h.size, h.avail⟩ hempty hcount
  have hall := total_take_add_drop b.slots.toList k
  rw [List.drop_zero] at hlevel
  have hnone : total (Array.mkEmpty k : Array Int).toList = 0 := rfl
  show p.1 + total (drop { b with integrator := p.1 } k).slots.toList + 64 * total p.2.toList = _
  rw [hkept]
  dsimp only
  omega

/-! ### The host's array -/

/-- The samples that a host finds at every `stride`-th place of an array. -/
def samplesAt (dst : Array Int) (stride n : Nat) : List Int :=
  (List.range n).map fun k => dst.getD (k * max stride 1) 0

theorem place_getD_before (stride : Nat) (ss : List Int) : ∀ (dst : Array Int) {i j : Nat}, j < i →
    (place dst stride i ss).getD j 0 = dst.getD j 0 := by
  induction ss with
  | nil =>
      intro dst i j _
      rfl
  | cons s ss ih =>
      intro dst i j h
      have hne : i ≠ j := by omega
      rw [place, ih _ (by omega)]
      simp [Array.getD_eq_getD_getElem?, hne]

theorem place_getD {stride : Nat} (hstride : 0 < stride) (ss : List Int) : ∀ (dst : Array Int)
    (i k : Nat) (hk : k < ss.length), i + k * stride < dst.size →
    (place dst stride i ss).getD (i + k * stride) 0 = ss[k] := by
  induction ss with
  | nil =>
      intro dst i k hk
      simp at hk
  | cons s ss ih =>
      intro dst i k hk hbound
      rw [place]
      cases k with
      | zero =>
          have hi : i < dst.size := by omega
          rw [place_getD_before _ _ _ (by omega)]
          simp [Array.getD_eq_getD_getElem?, hi]
      | succ k =>
          have hnext : i + (k + 1) * stride = i + stride + k * stride := by
            rw [Nat.add_mul]
            omega
          rw [hnext] at hbound ⊢
          rw [List.length_cons] at hk
          rw [ih _ _ _ (by omega) (by simpa using hbound)]
          simp

/-- The host finds exactly the samples that were read. -/
theorem samplesAt_readInto (b : Resampler) (dst : Array Int) (count stride : Nat) :
    samplesAt (b.readInto dst count stride).2.1 stride (b.readInto dst count stride).1 =
      (b.read (min count ((dst.size + max stride 1 - 1) / max stride 1))).1.toList := by
  unfold readInto samplesAt
  dsimp only
  have hstride : 0 < max stride 1 := by omega
  generalize max stride 1 = step at hstride ⊢
  have hsize : (b.read (min count ((dst.size + step - 1) / step))).1.size ≤
      (dst.size + step - 1) / step := by
    show (integrate ..).2.size ≤ _
    rw [integrate_size]
    rw [show (Array.mkEmpty _ : Array Int).size = 0 from rfl]
    omega
  generalize (b.read (min count ((dst.size + step - 1) / step))).1 = samples at hsize ⊢
  apply List.ext_getElem
  · simp
  · intro k hk hk'
    have hplace : 0 + k * step < dst.size := by
      have hlast : k + 1 ≤ (dst.size + step - 1) / step := by
        rw [Array.length_toList] at hk'
        omega
      have := (Nat.le_div_iff_mul_le hstride).1 hlast
      rw [Nat.add_mul] at this
      omega
    rw [List.getElem_map, List.getElem_range, ← place_getD hstride _ dst 0 k hk' hplace,
      Nat.zero_add]

/-! ### Uses -/

/-- A resampler in use, with what its changes and the samples taken from it sum to. -/
structure Account where
  buffer : Resampler
  added : Int
  taken : Int

/-- One use of a resampler. -/
inductive Use
  | change (time : Nat) (delta : Int)
  | close (clocks : Nat)
  | read (dst : Array Int) (count stride : Nat)

namespace Account

/-- The account after a use.  What a read takes is what the host finds in its array. -/
def after (a : Account) : Use → Account
  | .change time delta =>
    { a with buffer := a.buffer.addDelta time delta, added := a.added + delta }
  | .close clocks => { a with buffer := a.buffer.endFrame clocks }
  | .read dst count stride =>
    let r := a.buffer.readInto dst count stride
    { a with buffer := r.2.2, taken := a.taken + total (samplesAt r.2.1 stride r.1) }

/-- The account after some uses of a resampler. -/
def run (start : Resampler) (us : List Use) : Account := us.foldl after ⟨start, 0, 0⟩

/-- What is in the resampler and what was taken from it balance with what was added to it. -/
def Balanced (a : Account) : Prop :=
  a.buffer.integrator + total a.buffer.slots.toList + 64 * a.taken = gain * a.added

end Account

/-- Uses in which every change lies within its frame and samples are read between frames.
`pending` are the times of the changes since the last frame was closed. -/
inductive InOrder : List Nat → List Use → Prop
  | nil {pending} : InOrder pending []
  | change {pending us time delta} (rest : InOrder (time :: pending) us) :
      InOrder pending (.change time delta :: us)
  | close {pending us clocks} (within : ∀ time ∈ pending, time ≤ clocks) (rest : InOrder [] us) :
      InOrder pending (.close clocks :: us)
  | read {us dst count stride} (rest : InOrder [] us) : InOrder [] (.read dst count stride :: us)

/-- A resampler to which nothing was added: a new one, or one that was cleared. -/
inductive Pristine : Resampler → Prop
  | new (clockRate sampleRate capacity : Nat) : Pristine (.new clockRate sampleRate capacity)
  | clear {b : Resampler} (size : kernelWidth + 1 ≤ b.slots.size) : Pristine b.clear

/-- Slots are empty where neither an unread sample nor a change of the current frame reaches. -/
def Reach (b : Resampler) (pending : List Nat) : Prop :=
  ∀ i, b.avail + kernelWidth ≤ i →
    (∀ time ∈ pending, min (b.slotOf time) b.capacity + kernelWidth ≤ i) → b.slots.getD i 0 = 0

theorem Reach.emptyFrom (h : b.Reach []) : b.EmptyFrom (b.avail + kernelWidth) := by
  intro i hi
  exact h i hi (by simp)

theorem EmptyFrom.reach (h : b.EmptyFrom (b.avail + kernelWidth)) (pending : List Nat) :
    b.Reach pending := by
  intro i hi _
  exact h i hi

theorem Reach.addDelta {pending : List Nat} (h : b.Reach pending) (time : Nat) (delta : Int) :
    (b.addDelta time delta).Reach (time :: pending) := by
  obtain ⟨havail, -, hcapacity, hslot⟩ := b.addDelta_frame time delta
  intro i hi hbefore
  simp only [havail, hcapacity, hslot, List.mem_cons, forall_eq_or_imp] at hi hbefore
  rw [addDelta_getD b time delta hbefore.1]
  exact h i hi hbefore.2

theorem slotOf_mono (b : Resampler) {s t : Nat} (h : s ≤ t) : b.slotOf s ≤ b.slotOf t := by
  have := Nat.mul_le_mul_right b.factor h
  unfold slotOf position
  exact Nat.add_le_add_left (Nat.div_le_div_right (by omega)) _

/-- A frame that is closed behind its changes leaves nothing beyond the unread samples. -/
theorem Reach.endFrame {pending : List Nat} (hsafe : b.Safe) (h : b.Reach pending) {clocks : Nat}
    (hwithin : ∀ time ∈ pending, time ≤ clocks) :
    (b.endFrame clocks).EmptyFrom ((b.endFrame clocks).avail + kernelWidth) := by
  intro i hi
  have hi : min (b.slotOf clocks) b.capacity + kernelWidth ≤ i := hi
  have havail : b.avail ≤ min (b.slotOf clocks) b.capacity :=
    Nat.le_min.2 ⟨Nat.le_add_right _ _, hsafe.avail⟩
  apply h i (by omega)
  intro time htime
  have := b.slotOf_mono (hwithin time htime)
  omega

theorem Reach.read (hsafe : b.Safe) (count : Nat) : (b.read count).2.Reach [] := by
  apply EmptyFrom.reach
  exact drop_emptyFrom (b := { b with integrator := _ }) ⟨hsafe.size, hsafe.avail⟩
    (Nat.min_le_right count b.avail)

namespace Account

/-- What holds of an account while its resampler is in use. -/
structure Kept (a : Account) (pending : List Nat) : Prop where
  safe : a.buffer.Safe
  reach : a.buffer.Reach pending
  balanced : a.Balanced

variable {a : Account} {pending : List Nat}

theorem Kept.change (h : a.Kept pending) (time : Nat) (delta : Int) :
    (a.after (.change time delta)).Kept (time :: pending) := by
  refine ⟨h.safe.addDelta time delta, h.reach.addDelta time delta, ?_⟩
  have hbalance := h.balanced
  unfold Balanced at hbalance ⊢
  simp only [after]
  rw [total_addDelta h.safe, (a.buffer.addDelta_frame time delta).2.1, Int.mul_add]
  omega

theorem Kept.close (h : a.Kept pending) {clocks : Nat} (hwithin : ∀ time ∈ pending, time ≤ clocks) :
    (a.after (.close clocks)).Kept [] :=
  ⟨h.safe.endFrame clocks, (h.reach.endFrame h.safe hwithin).reach [], h.balanced⟩

theorem Kept.read (h : a.Kept []) (dst : Array Int) (count stride : Nat) :
    (a.after (.read dst count stride)).Kept [] := by
  refine ⟨h.safe.read _, Reach.read h.safe _, ?_⟩
  have hbalance := h.balanced
  unfold Balanced at hbalance ⊢
  simp only [after]
  rw [samplesAt_readInto, ← hbalance]
  have hread := read_balance h.safe h.reach.emptyFrom
    (min count ((dst.size + max stride 1 - 1) / max stride 1))
  show (a.buffer.read _).2.integrator + total (a.buffer.read _).2.slots.toList + _ = _
  omega

/-- Uses in order keep an account, and leave in order what follows them. -/
theorem Kept.run {ws : List Use} : ∀ {us : List Use} {pending : List Nat} {a : Account},
    InOrder pending (us ++ ws) → a.Kept pending →
    ∃ pending', InOrder pending' ws ∧ (us.foldl after a).Kept pending' := by
  intro us
  induction us with
  | nil =>
      intro pending a hus h
      exact ⟨pending, hus, h⟩
  | cons u us ih =>
      intro pending a hus h
      cases hus with
      | change rest => exact ih rest (h.change _ _)
      | close within rest => exact ih rest (h.close within)
      | read rest => exact ih rest (h.read _ _ _)

end Account

theorem Pristine.safe (h : Pristine b) : b.Safe := by
  cases h with
  | new clockRate sampleRate capacity => exact .new clockRate sampleRate capacity
  | clear size =>
      refine ⟨?_, Nat.zero_le _⟩
      show kernelWidth + 1 ≤ (Array.replicate _ (0 : Int)).size
      rw [Array.size_replicate]
      exact size

theorem Pristine.empty (h : Pristine b) :
    b.integrator = 0 ∧ ∃ n, b.slots = Array.replicate n 0 := by
  cases h with
  | new clockRate sampleRate capacity => exact ⟨rfl, _, rfl⟩
  | clear size => exact ⟨rfl, _, rfl⟩

/-- The account of an unused resampler is kept. -/
theorem Pristine.kept (h : Pristine b) : Account.Kept ⟨b, 0, 0⟩ [] := by
  obtain ⟨hlevel, n, hslots⟩ := h.empty
  refine ⟨h.safe, ?_, ?_⟩
  · intro i _ _
    simp only [hslots, Array.getD_eq_getD_getElem?, Array.getElem?_replicate]
    split <;> rfl
  · unfold Account.Balanced
    dsimp only
    rw [hlevel, hslots, Array.toList_replicate,
      total_eq_zero fun w hw => List.eq_of_mem_replicate hw]
    rfl

/-- Along uses in order the account of a resampler balances, and a frame that was closed leaves
nothing beyond its unread samples and the width of a kernel, also where it overran the buffer. -/
theorem no_step_lost {start : Resampler} (hstart : Pristine start) {us : List Use}
    (hus : InOrder [] us) :
    (Account.run start us).Balanced ∧
      ∀ vs clocks, us = vs ++ [.close clocks] →
        (Account.run start us).buffer.EmptyFrom
          ((Account.run start us).buffer.avail + kernelWidth) := by
  refine ⟨?_, ?_⟩
  · have hall : InOrder [] (us ++ []) := by rwa [List.append_nil]
    obtain ⟨_, -, hkept⟩ := Account.Kept.run hall hstart.kept
    exact hkept.balanced
  · rintro vs clocks rfl
    obtain ⟨_, hlast, hkept⟩ := Account.Kept.run hus hstart.kept
    unfold Account.run
    rw [List.foldl_append]
    cases hlast with
    | close within _ => exact hkept.reach.endFrame hkept.safe within

/-- A frame that overruns a buffer of eight samples, read at every second place and followed by
another frame. -/
theorem no_step_lost_overfull :
    let us : List Use := [.change 0 700, .change 9000 (-300), .close 9000,
      .read (Array.replicate 9 0) 100 2, .change 80 50, .close 160]
    (Account.run (.new 3579545 44100 8) us).Balanced ∧
      (Account.run (.new 3579545 44100 8) us).buffer.EmptyFrom
        ((Account.run (.new 3579545 44100 8) us).buffer.avail + kernelWidth) := by
  intro us
  have hstart : Pristine (.new 3579545 44100 8) := .new ..
  have hus : InOrder [] us :=
    .change (.change (.close (by simp) (.read (.change (.close (by simp) .nil)))))
  have h := no_step_lost hstart hus
  exact ⟨h.1, h.2 us.dropLast 160 rfl⟩

end Resampler

end MasterSystem.Sound
