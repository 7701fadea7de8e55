import Mathlib.Tactic.Common
import RestQuery.Filter.Columns

/-!
# Which columns a filter tests

The columns that are listed for a filter are those that it tests, at any depth. Of a filter that is
cut down to some columns the others are gone, and no more.
-/

namespace RestQuery

/-- An entry tests a column, itself or in a filter that it combines. -/
inductive FilterEntry.Tests (column : String) : FilterEntry → Prop where
  /-- The entry is about the column. -/
  | column (p : Predicate) : Tests column (.column column p)
  /-- One of the filters of which one must hold tests the column. -/
  | or {filters : List Filter} {f : Filter} {e : FilterEntry} (hf : f ∈ filters) (he : e ∈ f)
      (h : Tests column e) : Tests column (.or filters)
  /-- One of the filters of which all must hold tests the column. -/
  | and {filters : List Filter} {f : Filter} {e : FilterEntry} (hf : f ∈ filters) (he : e ∈ f)
      (h : Tests column e) : Tests column (.and filters)
  /-- The entry that must not hold tests the column. -/
  | not {e : FilterEntry} (h : Tests column e) : Tests column (.not e)

/-- A filter tests a column. -/
def Filter.Tests (column : String) (f : Filter) : Prop := ∃ e ∈ f, e.Tests column

namespace Filter

variable {column : String} {f : Filter} {fs : List Filter} {keep : String → Bool}

/-! ## The list of the columns -/

mutual

theorem tests_of_mem_entry : ∀ e : FilterEntry, column ∈ e.columns → e.Tests column
  | .column name p, h => by
    obtain rfl : column = name := by simpa [FilterEntry.columns] using h
    exact .column p
  | .or filters, h => by
    obtain ⟨f, hf, e, he, htests⟩ := tests_of_mem_all filters h
    exact .or hf he htests
  | .and filters, h => by
    obtain ⟨f, hf, e, he, htests⟩ := tests_of_mem_all filters h
    exact .and hf he htests
  | .not e, h => .not (tests_of_mem_entry e h)

theorem tests_of_mem : ∀ f : List FilterEntry, column ∈ columns f → Filter.Tests column f
  | [], h => by cases h
  | e :: f, h => by
    rcases List.mem_append.mp h with h | h
    · exact ⟨e, List.mem_cons_self, tests_of_mem_entry e h⟩
    · obtain ⟨e', he', htests⟩ := tests_of_mem f h
      exact ⟨e', List.mem_cons_of_mem _ he', htests⟩

theorem tests_of_mem_all : ∀ fs : List (List FilterEntry), column ∈ columnsAll fs →
    ∃ f ∈ fs, Filter.Tests column f
  | [], h => by cases h
  | f :: fs, h => by
    rcases List.mem_append.mp h with h | h
    · exact ⟨f, List.mem_cons_self, tests_of_mem f h⟩
    · obtain ⟨f', hf', htests⟩ := tests_of_mem_all fs h
      exact ⟨f', List.mem_cons_of_mem _ hf', htests⟩

end

theorem columns_subset {e : FilterEntry} (he : e ∈ f) (h : column ∈ e.columns) :
    column ∈ columns f := by
  induction f with
  | nil => cases he
  | cons e' f ih =>
    rw [columns, List.mem_append]
    rcases List.mem_cons.mp he with rfl | he
    · exact .inl h
    · exact .inr (ih he)

theorem columnsAll_subset (hf : f ∈ fs) (h : column ∈ columns f) : column ∈ columnsAll fs := by
  induction fs with
  | nil => cases hf
  | cons f' fs ih =>
    rw [columnsAll, List.mem_append]
    rcases List.mem_cons.mp hf with rfl | hf
    · exact .inl h
    · exact .inr (ih hf)

theorem mem_entry_of_tests {e : FilterEntry} (h : e.Tests column) : column ∈ e.columns := by
  induction h with
  | column p => simp [FilterEntry.columns]
  | or hf he _ ih => exact columnsAll_subset hf (columns_subset he ih)
  | and hf he _ ih => exact columnsAll_subset hf (columns_subset he ih)
  | not _ ih => exact ih

/-- The columns of a filter are those that it tests. -/
theorem mem_columns_iff : column ∈ columns f ↔ Filter.Tests column f := by
  constructor
  · exact tests_of_mem f
  · rintro ⟨e, he, h⟩
    exact columns_subset he (mem_entry_of_tests h)

/-! ## Dropping columns -/

mutual

theorem columns_retain?_entry (keep : String → Bool) : ∀ e : FilterEntry,
    ((e.retain? keep).map FilterEntry.columns).getD [] = e.columns.filter keep
  | .column name p => by
    by_cases h : keep name = true
    · simp [FilterEntry.retain?, FilterEntry.columns, h]
    · simp [FilterEntry.retain?, FilterEntry.columns, h]
  | .or filters => by
    have hall := columns_retainAll keep filters
    unfold FilterEntry.retain?
    split
    · next hnil => simpa [hnil, columnsAll, FilterEntry.columns] using hall
    · next kept _ => simpa [FilterEntry.columns] using hall
  | .and filters => by
    have hall := columns_retainAll keep filters
    unfold FilterEntry.retain?
    split
    · next hnil => simpa [hnil, columnsAll, FilterEntry.columns] using hall
    · next kept _ => simpa [FilterEntry.columns] using hall
  | .not e => by
    have he := columns_retain?_entry keep e
    unfold FilterEntry.retain?
    cases h : e.retain? keep with
    | none => simpa [h, FilterEntry.columns] using he
    | some kept => simpa [h, FilterEntry.columns] using he

/-- The columns that are left of a filter are those that are kept, in order. -/
theorem columns_retain (keep : String → Bool) : ∀ f : List FilterEntry,
    columns (retain keep f) = (columns f).filter keep
  | [] => rfl
  | e :: f => by
    have he := columns_retain?_entry keep e
    have hf := columns_retain keep f
    unfold retain
    rw [columns, List.filter_append, ← he, ← hf]
    cases e.retain? keep with
    | none => rfl
    | some kept => rfl

theorem columns_retainAll (keep : String → Bool) : ∀ fs : List (List FilterEntry),
    columnsAll (retainAll keep fs) = (columnsAll fs).filter keep
  | [] => rfl
  | f :: fs => by
    have hf := columns_retain keep f
    have hfs := columns_retainAll keep fs
    unfold retainAll
    rw [columnsAll, List.filter_append, ← hf, ← hfs]
    cases retain keep f with
    | nil => rfl
    | cons e kept => rfl

end

end Filter

end RestQuery
