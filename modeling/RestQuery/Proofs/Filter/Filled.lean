import RestQuery.Proofs.Filter.Entries

/-!
# Combinations of nothing

An *or* of no filters holds nowhere and an *and* of none everywhere, and as texts of a query
language both may be no conditions at all. Pushing does not make such combinations, and dropping
columns removes them, whether it made them or found them.
-/

namespace RestQuery

/-- What an entry combines is not nothing: there are filters, and no filter is empty. -/
def FilterEntry.Filled : FilterEntry → Prop
  | .or fs | .and fs => fs ≠ [] ∧ [] ∉ fs
  | .column .. | .not _ => True

variable {keep : String → Bool} {P : FilterEntry → Prop}

namespace Filter

theorem survivesPush_filled : SurvivesPush FilterEntry.Filled where
  merge _ _ _ := trivial
  join := by
    rintro fs gs ⟨hne, hfs⟩ ⟨-, hgs⟩
    exact ⟨by simp [hne], by simp [hfs, hgs]⟩
  wrap _ := ⟨List.cons_ne_nil _ _, by simp⟩

/-- Of a filter of which nothing is left nothing is kept. -/
theorem not_mem_retainAll (fs : List (List FilterEntry)) : [] ∉ retainAll keep fs := by
  induction fs with
  | nil => simp [retainAll]
  | cons f fs ih =>
    unfold retainAll
    split
    · exact ih
    · next kept hne =>
      intro hmem
      rcases List.mem_cons.mp hmem with hnil | hmem
      · exact hne hnil.symm
      · exact ih hmem

theorem retainsInto_filled : RetainsInto keep (fun _ => True) FilterEntry.Filled where
  column _ := trivial
  or _ hne := ⟨hne, not_mem_retainAll _⟩
  and _ hne := ⟨hne, not_mem_retainAll _⟩
  not _ _ := trivial

mutual

theorem each_of_forall_entry (hP : ∀ e, P e) : ∀ e : FilterEntry, e.Each P
  | .column _ _ => hP _
  | .or filters => ⟨hP _, eachAll_of_forall hP filters⟩
  | .and filters => ⟨hP _, eachAll_of_forall hP filters⟩
  | .not e => ⟨hP _, each_of_forall_entry hP e⟩

theorem each_of_forall (hP : ∀ e, P e) : ∀ f : List FilterEntry, Each P f
  | [] => trivial
  | e :: f => ⟨each_of_forall_entry hP e, each_of_forall hP f⟩

theorem eachAll_of_forall (hP : ∀ e, P e) : ∀ fs : List (List FilterEntry), EachAll P fs
  | [] => trivial
  | f :: fs => ⟨each_of_forall hP f, eachAll_of_forall hP fs⟩

end

/-- When columns are dropped no combination of nothing is left, whatever was there before. -/
theorem filled_retain (f : Filter) : Each FilterEntry.Filled (retain keep f) :=
  each_retain retainsInto_filled f (each_of_forall (fun _ => trivial) f)

end Filter

end RestQuery
