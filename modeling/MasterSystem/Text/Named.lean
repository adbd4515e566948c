/-! # Values with names

Types of a few values, each of which has a name in documents: settings name the values that they
choose, and snapshots the values that they show.  A type lists its names once (`Named.names`);
reading and writing go through that list. -/

namespace MasterSystem.Text

/-- A type whose values have names. -/
class Named (α : Type) where
  /-- The values with their names. -/
  names : List (α × String)

/-- The name of a value. -/
def name {α : Type} [DecidableEq α] [Named α] (x : α) : String :=
  match Named.names.find? fun p => p.1 = x with
  | some p => p.2
  | none => ""

/-- The value of a name. -/
def ofName? {α : Type} [Named α] (s : String) : Option α :=
  (Named.names.find? fun p => p.2 == s).map Prod.fst

/-- Reading takes only names that are listed. -/
theorem mem_names_of_ofName? {α : Type} [Named α] {s : String} {x : α}
    (h : ofName? s = some x) : (x, s) ∈ (Named.names : List (α × String)) := by
  unfold ofName? at h
  obtain ⟨⟨y, t⟩, hp, rfl⟩ := Option.map_eq_some_iff.1 h
  have ht : t = s := by simpa using List.find?_some hp
  exact ht ▸ List.mem_of_find?_eq_some hp

end MasterSystem.Text
