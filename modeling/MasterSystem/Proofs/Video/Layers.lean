import Mathlib.Data.List.Nodup
import Mathlib.Data.List.Pairwise
import Mathlib.Logic.Function.Basic
import Mathlib.Tactic.Tauto
import MasterSystem.Video.Render.Sprite
import MasterSystem.Video.Vdp

/-! # Layers of a line

The sprites of a line lie over one another, the first in front.  What a sprite shows on the line is
a layer, and drawing sprite after sprite puts layer behind layer.

* **Layers.**  One layer is put behind another (`Layer.above`), a list of them is a `stack`, and two
  of them meet where both show something.
* **Drawing.**  A step draws a layer if it puts it behind what the line shows and notices whether
  the two meet (`Draws`).  Drawing one after the other draws the stack and notices whether any two
  meet (`Draws.foldl`), and that is how the pixels of one sprite are drawn as well (`Draws.row`).
* **Searches.**  The sprites that a search finds are the first that cover the line before the end of
  the table (`Sprite.search_eq`). -/

namespace MasterSystem.Video

/-- What is shown in each column of a line, if anything. -/
abbrev Layer (γ : Type) := Fin screenWidth → Option γ

namespace Layer

variable {γ : Type}

/-- Nothing at all. -/
def clear : Layer γ := fun _ => none

/-- A layer in front of another one. -/
def above (a b : Layer γ) : Layer γ := fun x => (a x).or (b x)

/-- Layers one behind the other. -/
def stack (as : List (Layer γ)) : Layer γ := fun x => as.findSome? (· x)

/-- Two layers show something in one column. -/
def Meets (a b : Layer γ) : Prop := ∃ x, (a x).isSome = true ∧ (b x).isSome = true

/-- A pixel, if it is on the line. -/
def dot (x : Int) (c : Option γ) : Layer γ := fun y => if (y.val : Int) = x then c else none

/-- Pixels side by side. -/
def row (left : Int) (n : Nat) (c : Nat → Option γ) : Layer γ := fun x =>
  if left ≤ x.val ∧ x.val < left + n then c (x.val - left).toNat else none

theorem clear_above (a : Layer γ) : clear.above a = a := rfl

theorem above_clear (a : Layer γ) : a.above clear = a := funext fun _ => Option.or_none

theorem above_assoc (a b c : Layer γ) : (a.above b).above c = a.above (b.above c) :=
  funext fun _ => Option.or_assoc

theorem stack_nil : stack ([] : List (Layer γ)) = clear := rfl

theorem stack_append (as bs : List (Layer γ)) : stack (as ++ bs) = (stack as).above (stack bs) :=
  funext fun _ => List.findSome?_append

theorem stack_cons (a : Layer γ) (as : List (Layer γ)) : stack (a :: as) = a.above (stack as) := by
  funext x
  unfold stack above
  rw [List.findSome?_cons]
  cases a x <;> rfl

/-- The first of the layers that shows something in a column is seen there. -/
theorem stack_map {ι : Type} (layer : ι → Layer γ) (x : Fin screenWidth) : ∀ is : List ι,
    stack (is.map layer) x = (is.find? fun i => (layer i x).isSome).bind fun i => layer i x
  | [] => rfl
  | i :: is => by
      rw [List.map_cons, stack_cons, List.find?_cons]
      unfold above
      rw [stack_map layer x is]
      cases h : layer i x with
      | none => rfl
      | some c => exact h.symm

theorem not_clear_meets (a : Layer γ) : ¬clear.Meets a :=
  fun ⟨_, h, _⟩ => absurd h Bool.false_ne_true

theorem not_meets_clear (a : Layer γ) : ¬a.Meets clear :=
  fun ⟨_, _, h⟩ => absurd h Bool.false_ne_true

theorem meets_above (a b c : Layer γ) : a.Meets (b.above c) ↔ a.Meets b ∨ a.Meets c := by
  unfold Meets above
  simp only [Option.isSome_or, Bool.or_eq_true, and_or_left, exists_or]

theorem above_meets (a b c : Layer γ) : (a.above b).Meets c ↔ a.Meets c ∨ b.Meets c := by
  unfold Meets above
  simp only [Option.isSome_or, Bool.or_eq_true, or_and_right, exists_or]

theorem meets_stack (a : Layer γ) (as : List (Layer γ)) :
    a.Meets (stack as) ↔ ∃ b ∈ as, a.Meets b := by
  unfold Meets stack
  simp only [List.findSome?_isSome_iff]
  constructor
  · rintro ⟨x, ha, b, hb, hx⟩
    exact ⟨b, hb, x, ha, hx⟩
  · rintro ⟨b, hb, x, ha, hx⟩
    exact ⟨x, ha, b, hb, hx⟩

/-- Some two of the layers meet. -/
def SomeMeet (as : List (Layer γ)) : Prop := ¬as.Pairwise fun a b => ¬a.Meets b

theorem someMeet_cons (a : Layer γ) (as : List (Layer γ)) :
    SomeMeet (a :: as) ↔ a.Meets (stack as) ∨ SomeMeet as := by
  unfold SomeMeet
  rw [List.pairwise_cons, meets_stack, not_and_or]
  refine or_congr_left ?_
  simp only [not_forall, not_not, exists_prop]

theorem someMeet_iff {ι : Type} {is : List ι} (h : is.Nodup) (layer : ι → Layer γ) :
    SomeMeet (is.map layer) ↔ ∃ i ∈ is, ∃ j ∈ is, i ≠ j ∧ (layer i).Meets (layer j) := by
  have hsymm : Std.Symm fun i j => ¬(layer i).Meets (layer j) :=
    ⟨fun _ _ hij ⟨x, hj, hi⟩ => hij ⟨x, hi, hj⟩⟩
  have hiff : (is.Pairwise fun i j => ¬(layer i).Meets (layer j)) ↔
      ∀ i ∈ is, ∀ j ∈ is, i ≠ j → ¬(layer i).Meets (layer j) :=
    ⟨fun hpair i hi j hj => hpair.forall hi hj, h.pairwise_of_forall_ne⟩
  unfold SomeMeet
  rw [List.pairwise_map, hiff]
  simp only [not_forall, not_not, exists_prop]

/-! ### Pixels -/

theorem dot_none (x : Int) : dot x none = (clear : Layer γ) := funext fun _ => ite_self _

/-- A pixel beside the line does not show. -/
theorem dot_outside {x : Int} (h : x < 0 ∨ (screenWidth : Int) ≤ x) (c : Option γ) :
    dot x c = clear := by
  funext y
  have hy := y.isLt
  exact if_neg (by omega)

theorem dot_same (y : Fin screenWidth) (c : Option γ) : dot y.val c y = c := if_pos rfl

theorem dot_of_ne {x y : Fin screenWidth} (h : y ≠ x) (c : Option γ) : dot x.val c y = none :=
  if_neg fun hy => h (Fin.ext (Int.ofNat.inj hy))

/-- A pixel that is put behind another one does not show. -/
theorem above_dot_of_isSome {a : Layer γ} {x : Fin screenWidth} (h : (a x).isSome = true)
    (c : Option γ) : a.above (dot x.val c) = a := by
  funext y
  unfold above
  by_cases hy : y = x
  · rw [hy, Option.or_of_isSome h]
  · rw [dot_of_ne hy, Option.or_none]

theorem above_dot_of_isNone {a : Layer γ} {x : Fin screenWidth} (h : a x = none) (c : Option γ) :
    a.above (dot x.val c) = Function.update a x c := by
  funext y
  unfold above
  by_cases hy : y = x
  · rw [hy, h, dot_same, Function.update_self, Option.none_or]
  · rw [dot_of_ne hy, Option.or_none, Function.update_of_ne hy]

theorem meets_dot (a : Layer γ) (x : Fin screenWidth) (c : γ) :
    a.Meets (dot x.val (some c)) ↔ (a x).isSome = true := by
  constructor
  · rintro ⟨y, ha, hy⟩
    by_cases h : y = x
    · rwa [← h]
    · rw [dot_of_ne h] at hy
      exact absurd hy Bool.false_ne_true
  · intro h
    exact ⟨x, h, congrArg Option.isSome (dot_same x (some c))⟩

theorem eq_of_isSome_dot {x : Int} {c : Option γ} {y : Fin screenWidth}
    (h : (dot x c y).isSome = true) : (y.val : Int) = x := by
  unfold dot at h
  split at h
  · assumption
  · exact absurd h Bool.false_ne_true

theorem row_succ (left : Int) (n : Nat) (c : Nat → Option γ) :
    row left (n + 1) c = (row left n c).above (dot (left + n) (c n)) := by
  funext x
  unfold row above dot
  dsimp only
  by_cases hlast : (x.val : Int) = left + n
  · have hn : ((x.val : Int) - left).toNat = n := by omega
    rw [if_pos (by omega), if_neg (by omega), if_pos hlast, hn]
    rfl
  · rw [if_neg hlast, Option.or_none]
    exact if_congr (by omega) rfl rfl

theorem stack_dots (left : Int) (c : Nat → Option γ) : ∀ n : Nat,
    stack ((List.range n).map fun k : Nat => dot (left + k) (c k)) = row left n c
  | 0 => by
      funext x
      unfold row
      exact (if_neg (by omega)).symm
  | n + 1 => by
      rw [row_succ, ← stack_dots left c n, List.range_succ, List.map_append, stack_append,
        List.map_singleton, stack_cons, stack_nil, above_clear]

/-- No two pixels side by side are in one column. -/
theorem not_someMeet_dots (left : Int) (c : Nat → Option γ) (n : Nat) :
    ¬SomeMeet ((List.range n).map fun k : Nat => dot (left + k) (c k)) := by
  unfold SomeMeet
  rw [not_not, List.pairwise_map]
  refine List.pairwise_lt_range.imp ?_
  rintro i j hij ⟨x, hi, hj⟩
  have hx := eq_of_isSome_dot hi
  have hx' := eq_of_isSome_dot hj
  omega

end Layer

/-! ### Drawing -/

/-- A line after one of its columns is set. -/
theorem getD_setIfInBounds {α : Type} {p : Array α} (h : p.size = screenWidth)
    (x y : Fin screenWidth) (c d : α) : (p.setIfInBounds x c).getD y d =
      Function.update (fun y : Fin screenWidth => p.getD y d) x c y := by
  rw [Array.getD_eq_getD_getElem?, Array.getElem?_setIfInBounds]
  by_cases hxy : y = x
  · rw [hxy, if_pos rfl, if_pos (Nat.lt_of_lt_of_eq x.isLt h.symm), Function.update_self]
    rfl
  · rw [if_neg fun hval => hxy (Fin.ext hval.symm), Function.update_of_ne hxy,
      Array.getD_eq_getD_getElem?]

section Drawing

open Layer

variable {σ γ : Type} {Shows : σ → Layer γ → Prop → Prop}

/-- A step puts a layer behind what a line shows.  The line also keeps whether two layers have met
so far. -/
def Draws (Shows : σ → Layer γ → Prop → Prop) (draw : σ → σ) (c : Layer γ) : Prop :=
  ∀ s a met, Shows s a met → Shows (draw s) (a.above c) (met ∨ a.Meets c)

theorem draws_clear {draw : σ → σ} (h : ∀ s, draw s = s) : Draws Shows draw (clear : Layer γ) := by
  intro s a met hs
  rwa [h, above_clear, or_iff_left (not_meets_clear a)]

/-- Drawing a pixel: nothing beside the line, a meeting where something is shown already, and the
pixel where nothing is. -/
theorem draws_dot {draw : σ → σ} {x : Int} {c : γ}
    (houtside : x < 0 ∨ (screenWidth : Int) ≤ x → ∀ s, draw s = s)
    (htaken : ∀ {y : Fin screenWidth} {s a met}, x = y.val → Shows s a met → (a y).isSome = true →
      Shows (draw s) a True)
    (hfree : ∀ {y : Fin screenWidth} {s a met}, x = y.val → Shows s a met → a y = none →
      Shows (draw s) (Function.update a y (some c)) met) :
    Draws Shows draw (dot x (some c)) := by
  by_cases hx : x < 0 ∨ (screenWidth : Int) ≤ x
  · rw [dot_outside hx]
    exact draws_clear (houtside hx)
  · obtain ⟨y, rfl⟩ : ∃ y : Fin screenWidth, x = y.val :=
      ⟨⟨x.toNat, by omega⟩, (Int.toNat_of_nonneg (by omega)).symm⟩
    intro s a met hs
    rw [meets_dot]
    by_cases hy : (a y).isSome = true
    · rw [above_dot_of_isSome hy, or_iff_right_of_imp fun _ => hy, eq_true hy]
      exact htaken rfl hs hy
    · have hnone := Option.not_isSome_iff_eq_none.1 hy
      rw [above_dot_of_isNone hnone, or_iff_left hy]
      exact hfree rfl hs hnone

/-- Drawing layers one after the other. -/
theorem Draws.foldl {ι : Type} {draw : σ → ι → σ} {layer : ι → Layer γ}
    (hdraw : ∀ i, Draws Shows (draw · i) (layer i)) : ∀ (is : List ι) {s a met}, Shows s a met →
      Shows (is.foldl draw s) (a.above (stack (is.map layer)))
        (met ∨ a.Meets (stack (is.map layer)) ∨ SomeMeet (is.map layer))
  | [], s, a, met, h => by
      have hsome : ¬SomeMeet ([] : List (Layer γ)) := not_not.2 .nil
      rwa [List.map_nil, stack_nil, above_clear,
        or_iff_left (not_or.2 ⟨not_meets_clear a, hsome⟩)]
  | i :: is, s, a, met, h => by
      have hrest := Draws.foldl hdraw is (hdraw i s a met h)
      -- what the rest meets is either what was shown before or the layer just drawn
      have hnotice : ∀ p q r t : Prop, (met ∨ p) ∨ (q ∨ r) ∨ t ↔ met ∨ (p ∨ q) ∨ r ∨ t := by tauto
      rw [above_assoc, above_meets, hnotice] at hrest
      rwa [List.map_cons, someMeet_cons, stack_cons, meets_above]

/-- Drawing layers on a line that shows nothing. -/
theorem Draws.foldl_clear {ι : Type} {draw : σ → ι → σ} {layer : ι → Layer γ}
    (hdraw : ∀ i, Draws Shows (draw · i) (layer i)) (is : List ι) {s : σ}
    (h : Shows s clear False) :
    Shows (is.foldl draw s) (stack (is.map layer)) (SomeMeet (is.map layer)) := by
  have hdrawn := Draws.foldl hdraw is h
  rwa [clear_above, false_or, or_iff_right (not_clear_meets _)] at hdrawn

/-- Drawing pixels side by side, none of which can meet another. -/
theorem Draws.row {draw : σ → Nat → σ} {left : Int} {c : Nat → Option γ}
    (hdraw : ∀ k, Draws Shows (draw · k) (dot (left + k) (c k))) (n : Nat) :
    Draws Shows (fun s => (List.range n).foldl draw s) (Layer.row left n c) := by
  intro s a met h
  have hdrawn := Draws.foldl hdraw (List.range n) h
  rwa [stack_dots, or_iff_left (not_someMeet_dots left c n)] at hdrawn

end Drawing

/-! ### Searches -/

namespace Sprite

/-- Entries of a table that cover the line, in order up to the end of the table. -/
def covering (ends covers : Nat → Bool) (is : List Nat) : List Nat :=
  (is.takeWhile fun i => !ends i).filter covers

/-- A search finds the first entries that cover the line, and the one after them. -/
theorem search_eq (ends covers : Nat → Bool) : ∀ n i limit : Nat,
    search ends covers n i limit =
      ((covering ends covers (List.range' i n)).take limit,
        (covering ends covers (List.range' i n))[limit]?)
  | 0, i, limit => by
      unfold covering
      simp [search]
  | n + 1, i, limit => by
      have hrest := search_eq ends covers n (i + 1)
      unfold covering at hrest ⊢
      unfold search
      rw [List.range'_succ, List.takeWhile_cons]
      cases ends i with
      | true => simp
      | false =>
          cases hcovers : covers i with
          | false => simp [hcovers, hrest]
          | true => cases limit <;> simp [hcovers, hrest]

theorem mem_of_mem_covering {ends covers : Nat → Bool} {is : List Nat} {i : Nat}
    (h : i ∈ covering ends covers is) : i ∈ is :=
  (List.takeWhile_sublist _).subset (List.mem_of_mem_filter h)

theorem nodup_take_covering (ends covers : Nat → Bool) (n limit : Nat) :
    ((covering ends covers (List.range n)).take limit).Nodup :=
  ((List.nodup_range.sublist (List.takeWhile_sublist _)).filter _).sublist (List.take_sublist ..)

end Sprite

end MasterSystem.Video
