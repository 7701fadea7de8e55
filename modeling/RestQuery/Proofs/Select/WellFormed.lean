import RestQuery.Proofs.Keyed
import RestQuery.Proofs.Select.Keys
import RestQuery.Select.Paths

/-!
# Select lists as they are read

What `Select.parse` promises of the lists it gives, at every level: names are not empty, keys and
casts are of the form in which they can be written, the joins of a level are those of its embeds,
and no embed has clauses of its own yet. The proof that it keeps the promise is in
`RestQuery.Proofs.Select.Reading`.
-/

namespace RestQuery

open Select (KeyFits IsType)

/-- What is promised of a field that is read. -/
structure Field.WellFormed (f : Field) : Prop where
  /-- The field has a name. -/
  name_ne : f.name ≠ ""
  /-- The column has a name. -/
  column_ne : ∀ c ∈ f.column, c ≠ ""
  /-- Only the count of rows has no column. -/
  rowCount : f.column = none → f = { Field.rowCount with name := f.name, cast := f.cast }
  /-- The keys of the path can be written. -/
  keys : ∀ k ∈ f.path, KeyFits k
  /-- Text is the value of a path. -/
  text_path : f.pathAsText = true → f.path ≠ []
  /-- A cast comes first only where an aggregate comes second. -/
  preCast_none : f.aggregate = none → f.preCast = none
  /-- The first cast names a type. -/
  preCast_type : ∀ t ∈ f.preCast, IsType t.toList
  /-- The last cast names a type. -/
  cast_type : ∀ t ∈ f.cast, IsType t.toList

/-- What is promised of a join that is read. -/
structure Join.WellFormed (j : Join) : Prop where
  /-- The table has a name. -/
  table_ne : j.table ≠ ""
  /-- The hint is no empty name. -/
  hint_ne : ∀ h ∈ j.hint, h ≠ ""
  /-- The hint is no join type. -/
  hint_word : ∀ h ∈ j.hint, h ≠ "inner" ∧ h ≠ "left"

/-- Whether an entry is an embed with the name `name`. -/
def SelectEntry.Embeds (name : String) (e : SelectEntry) : Prop :=
  ∃ spread clauses entries joins, e = .embed name spread clauses entries joins

/-- What is promised of the joins of a level with the entries `entries`. -/
structure Joins.Declare (joins : Joins) (entries : List SelectEntry) : Prop where
  /-- The names ascend. -/
  ascending : Keyed.Ascending joins
  /-- The names are those of the embeds. -/
  names : ∀ n, (Keyed.find? joins n).isSome = true ↔ ∃ e ∈ entries, e.Embeds n
  /-- The joins are as they are read. -/
  wellFormed : ∀ n j, Keyed.find? joins n = some j → j.WellFormed

mutual

/-- What is promised of an entry that is read, and of the entries in it. -/
def SelectEntry.WellFormed : SelectEntry → Prop
  | .wildcard => True
  | .column name => name ≠ ""
  | .field f => f.WellFormed ∧ f.toEntry = .field f
  | .embed name _ clauses entries joins =>
    name ≠ "" ∧ clauses = {} ∧ Joins.Declare joins entries ∧ SelectEntry.WellFormedAll entries

/-- What is promised of entries that are read. -/
def SelectEntry.WellFormedAll : List SelectEntry → Prop
  | [] => True
  | e :: rest => e.WellFormed ∧ SelectEntry.WellFormedAll rest

end

theorem SelectEntry.wellFormedAll_iff {entries : List SelectEntry} :
    SelectEntry.WellFormedAll entries ↔ ∀ e ∈ entries, e.WellFormed := by
  induction entries with
  | nil => simp [SelectEntry.WellFormedAll]
  | cons e entries ih => simp [SelectEntry.WellFormedAll, ih]

/-- What is promised of a select list that is read. -/
structure Select.WellFormed (s : Select) : Prop where
  /-- The joins of the top level. -/
  declare : Joins.Declare s.joins s.entries
  /-- The entries. -/
  entries : SelectEntry.WellFormedAll s.entries

theorem Field.eq_of_toEntry {f g : Field} (h : f.toEntry = .field g) : f = g := by
  unfold Field.toEntry at h
  split at h
  · cases h
  · cases h
    rfl

/-- An entry made of a field that is as promised is as promised. -/
theorem Field.WellFormed.toEntry {f : Field} (h : f.WellFormed) : f.toEntry.WellFormed := by
  cases he : f.toEntry with
  | wildcard => trivial
  | column name =>
    unfold Field.toEntry at he
    split at he
    · cases he
      exact h.name_ne
    · cases he
  | field g =>
    obtain rfl := Field.eq_of_toEntry he
    exact ⟨h, he⟩
  | embed =>
    unfold Field.toEntry at he
    split at he <;> cases he

/-! ## Nesting -/

mutual

/-- How deep embeds nest in an entry. -/
def SelectEntry.depth : SelectEntry → Nat
  | .embed _ _ _ entries _ => SelectEntry.depthAll entries + 1
  | _ => 0

/-- How deep embeds nest in a list. -/
def SelectEntry.depthAll : List SelectEntry → Nat
  | [] => 0
  | e :: rest => max e.depth (SelectEntry.depthAll rest)

end

theorem SelectEntry.depthAll_le_iff {entries : List SelectEntry} {levels : Nat} :
    SelectEntry.depthAll entries ≤ levels ↔ ∀ e ∈ entries, e.depth ≤ levels := by
  induction entries with
  | nil => simp [SelectEntry.depthAll]
  | cons e entries ih => rw [SelectEntry.depthAll, Nat.max_le, ih, List.forall_mem_cons]

/-! ## Default names -/

/-- The name of a field that is read is not empty, also where none is written. -/
theorem Field.defaultName_ne {f : Field} (hc : ∀ c ∈ f.column, c ≠ "") (hsome : f.column ≠ none)
    (hk : ∀ k ∈ f.path, KeyFits k) : f.defaultName ≠ "" := by
  unfold Field.defaultName
  split
  · next a _ => cases a <;> decide
  · split
    · next k hlast => exact hk _ (List.mem_of_getLast? hlast)
    · obtain ⟨c, hcolumn⟩ := Option.ne_none_iff_exists'.mp hsome
      rw [hcolumn]
      exact hc c hcolumn

end RestQuery
