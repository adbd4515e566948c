/-! # Fields

A text cut at every occurrence of a separator.  Joining the fields with the separator gives the
text back (`join_fields`), and no field contains the separator (`not_mem_of_mem_fields`); cutting
what was joined gives the fields back (`fields_join`). -/

namespace MasterSystem.Text

/-- The fields of a list of characters; there is always at least one. -/
def fields (sep : Char) : List Char → List (List Char)
  | [] => [[]]
  | c :: cs =>
    if c = sep then [] :: fields sep cs
    else
      match fields sep cs with
      | f :: fs => (c :: f) :: fs
      | [] => [[c]]

/-- Fields put together again, with the separator between them. -/
def join (sep : Char) : List (List Char) → List Char
  | [] => []
  | [f] => f
  | f :: fs => f ++ sep :: join sep fs

theorem fields_ne_nil (sep : Char) (cs : List Char) : fields sep cs ≠ [] := by
  cases cs with
  | nil => simp [fields]
  | cons c cs =>
    simp only [fields]
    split
    · simp
    · split <;> simp

theorem join_cons_cons (sep c : Char) (f : List Char) (fs : List (List Char)) :
    join sep ((c :: f) :: fs) = c :: join sep (f :: fs) := by
  cases fs <;> rfl

theorem join_fields (sep : Char) (cs : List Char) : join sep (fields sep cs) = cs := by
  induction cs with
  | nil => rfl
  | cons c cs ih =>
    simp only [fields]
    split
    · next h =>
      cases hf : fields sep cs with
      | nil => exact absurd hf (fields_ne_nil sep cs)
      | cons f fs => rw [hf] at ih; simp [join, ih, h]
    · cases hf : fields sep cs with
      | nil => exact absurd hf (fields_ne_nil sep cs)
      | cons f fs => rw [hf] at ih; rw [join_cons_cons, ih]

theorem not_mem_of_mem_fields {sep : Char} {cs f : List Char} (h : f ∈ fields sep cs) :
    sep ∉ f := by
  induction cs generalizing f with
  | nil =>
    simp only [fields, List.mem_singleton] at h
    simp [h]
  | cons c cs ih =>
    simp only [fields] at h
    split at h
    · cases List.mem_cons.1 h with
      | inl h => simp [h]
      | inr h => exact ih h
    · next hc =>
      cases hf : fields sep cs with
      | nil => exact absurd hf (fields_ne_nil sep cs)
      | cons g gs =>
        rw [hf] at h ih
        cases List.mem_cons.1 h with
        | inl h =>
          subst h
          simp only [List.mem_cons, not_or]
          exact ⟨fun e => hc e.symm, ih (List.mem_cons_self ..)⟩
        | inr h => exact ih (List.mem_cons_of_mem g h)

theorem fields_of_not_mem {sep : Char} {f : List Char} (h : sep ∉ f) : fields sep f = [f] := by
  induction f with
  | nil => rfl
  | cons c f ih =>
    simp only [List.mem_cons, not_or] at h
    rw [fields, if_neg (Ne.symm h.1), ih h.2]

theorem fields_append {sep : Char} {f : List Char} (rest : List Char) (h : sep ∉ f) :
    fields sep (f ++ sep :: rest) = f :: fields sep rest := by
  induction f with
  | nil => rw [List.nil_append, fields, if_pos rfl]
  | cons c f ih =>
    simp only [List.mem_cons, not_or] at h
    rw [List.cons_append, fields, if_neg (Ne.symm h.1), ih h.2]

theorem fields_join {sep : Char} {fs : List (List Char)} (hne : fs ≠ [])
    (h : ∀ f ∈ fs, sep ∉ f) : fields sep (join sep fs) = fs := by
  induction fs with
  | nil => exact absurd rfl hne
  | cons f fs ih =>
    have hf := h f List.mem_cons_self
    cases fs with
    | nil => exact fields_of_not_mem hf
    | cons g fs =>
      rw [join, fields_append _ hf, ih (by simp) fun g hg => h g (List.mem_cons_of_mem f hg)]
      simp

/-- A text cut at the first occurrence of a separator; nothing if there is none. -/
def cutAt? (sep : Char) (s : String) : Option (String × String) :=
  match s.toList.span (· ≠ sep) with
  | (_, []) => none
  | (before, _ :: after) => some (String.ofList before, String.ofList after)

end MasterSystem.Text
