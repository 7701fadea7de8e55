import Mathlib.Data.List.Forall2
import RestQuery.Proofs.Filter.Columns
import RestQuery.Proofs.Filter.Filled

/-!
# What is left of a filter

Dropping columns from a filter drops nothing else. What is left has the same entries in the same
order, with the predicates that they had, without the columns that are refused and without
combinations of nothing. So a second time there is nothing to drop, and a filter that has neither
stays as it is.
-/

namespace RestQuery

/-- An entry is left of another: a column as it is, a combination of filters as the same combination
of what is left of some of them. -/
inductive FilterEntry.LeftOf : FilterEntry → FilterEntry → Prop where
  /-- A column with its predicate. -/
  | column (name : String) (p : Predicate) : LeftOf (.column name p) (.column name p)
  /-- Alternatives, some of them. -/
  | or {fs gs : List (List FilterEntry)}
      (h : List.SublistForall₂ (List.SublistForall₂ LeftOf) fs gs) : LeftOf (.or fs) (.or gs)
  /-- Filters that hold together, some of them. -/
  | and {fs gs : List (List FilterEntry)}
      (h : List.SublistForall₂ (List.SublistForall₂ LeftOf) fs gs) : LeftOf (.and fs) (.and gs)
  /-- A negation. -/
  | not {e e' : FilterEntry} (h : LeftOf e e') : LeftOf (.not e) (.not e')

/-- A filter is left of another: some of its entries, in their order, or what is left of them. -/
abbrev Filter.LeftOf (f g : Filter) : Prop := List.SublistForall₂ FilterEntry.LeftOf f g

namespace Filter

variable {keep : String → Bool}

/-! ## Entries and their order -/

mutual

theorem leftOf_retain?_entry (keep : String → Bool) : ∀ (e kept : FilterEntry),
    e.retain? keep = some kept → kept.LeftOf e
  | .column name p, kept, h => by
    unfold FilterEntry.retain? at h
    split at h
    · cases h
      exact .column name p
    · cases h
  | .or filters, kept, h => by
    have hall := leftOf_retainAll keep filters
    unfold FilterEntry.retain? at h
    split at h
    · cases h
    · cases h
      exact .or hall
  | .and filters, kept, h => by
    have hall := leftOf_retainAll keep filters
    unfold FilterEntry.retain? at h
    split at h
    · cases h
    · cases h
      exact .and hall
  | .not e, kept, h => by
    unfold FilterEntry.retain? at h
    obtain ⟨inner, hinner, rfl⟩ := Option.map_eq_some_iff.mp h
    exact .not (leftOf_retain?_entry keep e inner hinner)

theorem leftOf_retain (keep : String → Bool) : ∀ f : List FilterEntry, LeftOf (retain keep f) f
  | [] => .nil
  | e :: f => by
    have hf := leftOf_retain keep f
    unfold retain
    split
    · next kept hkept => exact .cons (leftOf_retain?_entry keep e kept hkept) hf
    · exact .cons_right hf

theorem leftOf_retainAll (keep : String → Bool) : ∀ fs : List (List FilterEntry),
    List.SublistForall₂ LeftOf (retainAll keep fs) fs
  | [] => .nil
  | f :: fs => by
    have hf := leftOf_retain keep f
    have hfs := leftOf_retainAll keep fs
    unfold retainAll
    split
    · exact .cons_right hfs
    · exact .cons hf hfs

end

/-! ## Nothing to drop -/

mutual

theorem retain?_eq_self_entry : ∀ e : FilterEntry, e.Each FilterEntry.Filled →
    (∀ c ∈ e.columns, keep c = true) → e.retain? keep = some e
  | .column name p, _, hkeep => by
    unfold FilterEntry.retain?
    rw [if_pos (hkeep name (by simp [FilterEntry.columns]))]
  | .or filters, ⟨⟨hne, hnil⟩, hfilled⟩, hkeep => by
    obtain ⟨f, fs, rfl⟩ := List.exists_cons_of_ne_nil hne
    unfold FilterEntry.retain?
    rw [retainAll_eq_self (f :: fs) hnil hfilled hkeep]
  | .and filters, ⟨⟨hne, hnil⟩, hfilled⟩, hkeep => by
    obtain ⟨f, fs, rfl⟩ := List.exists_cons_of_ne_nil hne
    unfold FilterEntry.retain?
    rw [retainAll_eq_self (f :: fs) hnil hfilled hkeep]
  | .not e, ⟨_, hfilled⟩, hkeep => by
    unfold FilterEntry.retain?
    rw [retain?_eq_self_entry e hfilled hkeep]
    rfl

theorem retain_eq_self : ∀ f : List FilterEntry, Each FilterEntry.Filled f →
    (∀ c ∈ columns f, keep c = true) → retain keep f = f
  | [], _, _ => rfl
  | e :: f, ⟨he, hf⟩, hkeep => by
    obtain ⟨hkeepe, hkeepf⟩ := List.forall_mem_append.mp hkeep
    unfold retain
    rw [retain?_eq_self_entry e he hkeepe, retain_eq_self f hf hkeepf]

theorem retainAll_eq_self : ∀ fs : List (List FilterEntry), [] ∉ fs →
    EachAll FilterEntry.Filled fs → (∀ c ∈ columnsAll fs, keep c = true) → retainAll keep fs = fs
  | [], _, _, _ => rfl
  | f :: fs, hnil, ⟨hf, hfs⟩, hkeep => by
    obtain ⟨hkeepf, hkeepfs⟩ := List.forall_mem_append.mp hkeep
    obtain ⟨hne, hrest⟩ := not_or.mp (List.mem_cons.not.mp hnil)
    obtain ⟨e, f, rfl⟩ := List.exists_cons_of_ne_nil (Ne.symm hne)
    unfold retainAll
    rw [retain_eq_self (e :: f) hf hkeepf, retainAll_eq_self fs hrest hfs hkeepfs]

end

theorem retain_retain (f : Filter) : retain keep (retain keep f) = retain keep f := by
  refine retain_eq_self _ (filled_retain f) fun c hc => ?_
  rw [columns_retain] at hc
  exact (List.mem_filter.mp hc).2

/-- Dropping columns leaves exactly the columns that are kept, in order and as often as they were
there, and no combination of nothing. What is left of the entries stands in their order with their
predicates. A second time nothing is dropped, and nothing at all where all columns are kept and no
combination is one of nothing. -/
theorem retain_keeps_exactly (f : Filter) (keep : String → Bool) :
    columns (retain keep f) = (columns f).filter keep ∧
    Each FilterEntry.Filled (retain keep f) ∧
    LeftOf (retain keep f) f ∧
    retain keep (retain keep f) = retain keep f ∧
    (Each FilterEntry.Filled f → (∀ c ∈ columns f, keep c = true) → retain keep f = f) :=
  ⟨columns_retain keep f, filled_retain f, leftOf_retain keep f, retain_retain f, retain_eq_self f⟩

/-- Under a negation, too, an *or* goes with its last column; what is left has nothing to drop. -/
theorem retain_keeps_exactly_nested :
    retain (· != "b") [.not (.or [[.column "b" [.op .is .null]], []]),
        .and [[.column "a" [.op .is .null], .column "b" []]]] =
      [.and [[.column "a" [.op .is .null]]]] ∧
    Each FilterEntry.Filled [.and [[.column "a" [.op .is .null]]]] ∧
    (∀ c ∈ columns [.and [[.column "a" [.op .is .null]]]], (c != "b") = true) ∧
    retain (· != "b") [.and [[.column "a" [.op .is .null]]]] =
      [.and [[.column "a" [.op .is .null]]]] := by
  have hfilled : Each FilterEntry.Filled [.and [[.column "a" [.op .is .null]]]] := by
    simp [Each, FilterEntry.Each, EachAll, FilterEntry.Filled]
  have hkeep : ∀ c ∈ columns [.and [[.column "a" [.op .is .null]]]], (c != "b") = true := by
    simp [columns, FilterEntry.columns, columnsAll]
  obtain ⟨-, -, -, -, hself⟩ :=
    retain_keeps_exactly [.and [[.column "a" [.op .is .null]]]] (· != "b")
  exact ⟨rfl, hfilled, hkeep, hself hfilled hkeep⟩

end Filter

end RestQuery
