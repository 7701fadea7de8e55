import RestQuery.Filter.Columns
import RestQuery.Proofs.Filter.Push

/-!
# What all entries of a filter have

A property that entries have at every depth is kept when entries are pushed, if it survives the ways
in which pushing puts entries together. It is kept when columns are dropped, if it survives that
what is combined gets less. What the terms of columns have is not only kept: a filter has it after
a push exactly if it had it before and the entry has it, unless the entry is dropped.
-/

namespace RestQuery

mutual

/-- Whether an entry and all entries in it have the property `P`. -/
def FilterEntry.Each (P : FilterEntry → Prop) : FilterEntry → Prop
  | .column name p => P (.column name p)
  | .or filters => P (.or filters) ∧ Filter.EachAll P filters
  | .and filters => P (.and filters) ∧ Filter.EachAll P filters
  | .not entry => P (.not entry) ∧ entry.Each P

/-- Whether all entries of a filter have the property `P`, at any depth. -/
def Filter.Each (P : FilterEntry → Prop) : List FilterEntry → Prop
  | [] => True
  | e :: rest => e.Each P ∧ Filter.Each P rest

/-- Whether all entries of several filters have the property `P`, at any depth. -/
def Filter.EachAll (P : FilterEntry → Prop) : List (List FilterEntry) → Prop
  | [] => True
  | f :: rest => Filter.Each P f ∧ Filter.EachAll P rest

end

variable {P Q : FilterEntry → Prop} {f g : Filter} {fs gs : List Filter}
  {e present entry : FilterEntry} {entries : List FilterEntry} {name key : String}

namespace Filter

theorem each_iff : Each P f ↔ ∀ e ∈ f, e.Each P := by
  induction f with
  | nil => simp [Each]
  | cons e f ih => simp [Each, ih]

theorem eachAll_iff : EachAll P fs ↔ ∀ f ∈ fs, Each P f := by
  induction fs with
  | nil => simp [EachAll]
  | cons f fs ih => simp [EachAll, ih]

theorem each_append : Each P (f ++ g) ↔ Each P f ∧ Each P g := by
  simp only [each_iff, List.forall_mem_append]

theorem eachAll_append : EachAll P (fs ++ gs) ↔ EachAll P fs ∧ EachAll P gs := by
  simp only [eachAll_iff, List.forall_mem_append]

theorem each_singleton : Each P [e] ↔ e.Each P := by simp [Each]

/-- The filters that conditions of a group are made into have what the conditions have. -/
theorem eachAll_singletons : EachAll P (entries.map fun e => [e]) ↔ ∀ e ∈ entries, e.Each P := by
  simp only [eachAll_iff, List.forall_mem_map, each_singleton]

/-! ## Pushing -/

/-- A property passes to what pushing makes of entries that have it. -/
structure SurvivesPush (P : FilterEntry → Prop) : Prop where
  /-- It passes to a column with the terms of two. -/
  merge : ∀ {name p q merged}, P (.column name q) → P (.column name p) →
    Predicate.merge? q p = some merged → P (.column name merged)
  /-- It passes to an *and* with the filters of two. -/
  join : ∀ {fs gs}, P (.and fs) → P (.and gs) → P (.and (fs ++ gs))
  /-- The *and* has it that takes an entry whose key is used. -/
  wrap : ∀ e, P (.and [[e]])

theorem each_pushAnd (hP : SurvivesPush P) (hf : Each P f) (he : e.Each P) :
    Each P (pushAnd f [e]) := by
  have hwrap : EachAll P [[e]] := ⟨⟨he, trivial⟩, trivial⟩
  induction f with
  | nil => exact ⟨⟨hP.wrap e, hwrap⟩, trivial⟩
  | cons e' f ih =>
    obtain ⟨he', hf⟩ := hf
    unfold pushAnd
    split
    · next heq => cases heq
    · next filters rest heq =>
      cases heq
      exact ⟨⟨hP.join he'.1 (hP.wrap e), eachAll_append.mpr ⟨he'.2, hwrap⟩⟩, hf⟩
    · next heq =>
      cases heq
      exact ⟨he', ih hf⟩

theorem each_replace (hf : Each P f) (he : entry.Each P) : Each P (replace key entry f) := by
  induction f with
  | nil => trivial
  | cons e f ih =>
    obtain ⟨hfirst, hrest⟩ := hf
    unfold replace
    split
    · exact ⟨he, hrest⟩
    · exact ⟨hfirst, ih hrest⟩

theorem each_of_withKey? (hf : Each P f) (h : withKey? f key = some present) : present.Each P :=
  each_iff.mp hf present (List.mem_of_find?_eq_some h)

theorem each_push (hP : SurvivesPush P) (hf : Each P f) (he : e.Each P) : Each P (push f e) := by
  have hand : Each P (pushAnd f [e]) := each_pushAnd hP hf he
  unfold push
  split
  · exact each_append.mpr ⟨hf, each_singleton.mpr he⟩
  · next present hkey =>
    have hpresent : present.Each P := each_of_withKey? hf hkey
    split
    · next name p name' q =>
      obtain rfl : name' = name := key_of_withKey? hkey
      split
      · next merged hmerge => exact each_replace hf (hP.merge hpresent he hmerge)
      · exact hand
    · exact hand
    · exact each_replace hf
        ⟨hP.join hpresent.1 he.1, eachAll_append.mpr ⟨hpresent.2, he.2⟩⟩
    · exact hf
    · exact hand

/-- What a filter and the entries of a run of pushes have the filter has after the run. -/
theorem each_pushAll (hP : SurvivesPush P) (hf : Each P f) (h : Each P entries) :
    Each P (pushAll f entries) := by
  induction entries generalizing f with
  | nil => exact hf
  | cons e entries ih => exact ih (each_push hP hf h.1) h.2

/-! ## Dropping columns -/

/-- What is left of entries with the property `P`, when some columns are dropped, has the property
`Q`. -/
structure RetainsInto (keep : String → Bool) (P Q : FilterEntry → Prop) : Prop where
  /-- A column that is kept has it. -/
  column : ∀ {name p}, P (.column name p) → Q (.column name p)
  /-- What is left of alternatives has it. -/
  or : ∀ {fs}, P (.or fs) → retainAll keep fs ≠ [] → Q (.or (retainAll keep fs))
  /-- What is left of filters that hold together has it. -/
  and : ∀ {fs}, P (.and fs) → retainAll keep fs ≠ [] → Q (.and (retainAll keep fs))
  /-- The negation of what is left has it. -/
  not : ∀ {e kept}, P (.not e) → e.retain? keep = some kept → Q (.not kept)

section Retain

variable {keep : String → Bool}

mutual

theorem each_retain?_entry (hPQ : RetainsInto keep P Q) : ∀ e : FilterEntry, e.Each P →
    ∀ kept, e.retain? keep = some kept → kept.Each Q
  | .column name p, h, kept, hkept => by
    unfold FilterEntry.retain? at hkept
    split at hkept
    · cases hkept
      exact hPQ.column h
    · cases hkept
  | .or filters, h, kept, hkept => by
    have hall := eachAll_retainAll hPQ filters h.2
    unfold FilterEntry.retain? at hkept
    split at hkept
    · cases hkept
    · next hne =>
      cases hkept
      exact ⟨hPQ.or h.1 (by simpa using hne), hall⟩
  | .and filters, h, kept, hkept => by
    have hall := eachAll_retainAll hPQ filters h.2
    unfold FilterEntry.retain? at hkept
    split at hkept
    · cases hkept
    · next hne =>
      cases hkept
      exact ⟨hPQ.and h.1 (by simpa using hne), hall⟩
  | .not e, h, kept, hkept => by
    unfold FilterEntry.retain? at hkept
    obtain ⟨inner, hinner, rfl⟩ := Option.map_eq_some_iff.mp hkept
    exact ⟨hPQ.not h.1 hinner, each_retain?_entry hPQ e h.2 inner hinner⟩

theorem each_retain (hPQ : RetainsInto keep P Q) : ∀ f : List FilterEntry, Each P f →
    Each Q (retain keep f)
  | [], _ => trivial
  | e :: f, h => by
    have hf := each_retain hPQ f h.2
    unfold retain
    split
    · next kept hkept => exact ⟨each_retain?_entry hPQ e h.1 kept hkept, hf⟩
    · exact hf

theorem eachAll_retainAll (hPQ : RetainsInto keep P Q) : ∀ fs : List (List FilterEntry),
    EachAll P fs → EachAll Q (retainAll keep fs)
  | [], _ => trivial
  | f :: fs, h => by
    have hf := each_retain hPQ f h.1
    have hfs := eachAll_retainAll hPQ fs h.2
    unfold retainAll
    split
    · exact hfs
    · exact ⟨hf, hfs⟩

end

end Retain

/-! ## Terms -/

/-- Whether each term of an entry that tests a column has the property `T`. -/
def OnTerms (T : String → Term → Prop) : FilterEntry → Prop
  | .column name p => ∀ t ∈ p, T name t
  | _ => True

variable {T : String → Term → Prop} {X : Prop}

theorem onTerms_merge {p q merged : Predicate} (h : Predicate.merge? q p = some merged) :
    OnTerms T (.column name merged) ↔
      OnTerms T (.column name q) ∧ OnTerms T (.column name p) := by
  unfold Predicate.merge? at h
  split at h
  · cases h
  · cases h
    exact List.forall_mem_append

theorem each_onTerms_pushAnd :
    Each (OnTerms T) (pushAnd f g) ↔ Each (OnTerms T) f ∧ Each (OnTerms T) g := by
  induction f with
  | nil => simp [pushAnd, Each, FilterEntry.Each, EachAll, OnTerms]
  | cons e f ih =>
    unfold pushAnd
    split
    · next heq => cases heq
    · next filters rest heq =>
      cases heq
      simp only [Each, FilterEntry.Each, eachAll_append, EachAll, OnTerms]
      tauto
    · next heq =>
      cases heq
      rw [Each, Each, ih, and_assoc]

/-- An entry that has what the one in its place has, and `X`, adds `X` to what the filter has. -/
theorem each_onTerms_replace (h : withKey? f key = some present)
    (hentry : entry.Each (OnTerms T) ↔ present.Each (OnTerms T) ∧ X) :
    Each (OnTerms T) (replace key entry f) ↔ Each (OnTerms T) f ∧ X := by
  induction f with
  | nil => cases h
  | cons e f ih =>
    unfold replace
    by_cases hkey : e.key = key
    · obtain rfl : e = present := by simpa [withKey?, hkey] using h
      rw [if_pos hkey, Each, Each, hentry]
      tauto
    · have hrest : withKey? f key = some present := by simpa [withKey?, hkey] using h
      rw [if_neg hkey, Each, Each, ih hrest, and_assoc]

/-- The terms of an entry that is not dropped are added to those of the filter. -/
theorem each_onTerms_push (h : drops f e = false) :
    Each (OnTerms T) (push f e) ↔ Each (OnTerms T) f ∧ e.Each (OnTerms T) := by
  have hand : Each (OnTerms T) (pushAnd f [e]) ↔
      Each (OnTerms T) f ∧ e.Each (OnTerms T) := by
    rw [each_onTerms_pushAnd, each_singleton]
  unfold push
  split
  · rw [each_append, each_singleton]
  · next present hkey =>
    split
    · next name p name' q =>
      obtain rfl : name' = name := key_of_withKey? hkey
      split
      · next merged hmerge => exact each_onTerms_replace hkey (onTerms_merge hmerge)
      · exact hand
    · exact hand
    · next added filters =>
      refine each_onTerms_replace hkey ?_
      simp only [FilterEntry.Each, eachAll_append, OnTerms, true_and]
    · next added hnot =>
      obtain ⟨filters, rfl⟩ := and_of_withKey? hkey h
      exact absurd rfl (hnot filters)
    · exact hand

/-- The entries of a run of pushes that are not dropped at their turn. -/
def kept (f : Filter) : List FilterEntry → List FilterEntry
  | [] => []
  | e :: rest => if drops f e then kept (push f e) rest else e :: kept (push f e) rest

theorem mem_of_mem_kept (h : e ∈ kept f entries) : e ∈ entries := by
  induction entries generalizing f with
  | nil => cases h
  | cons e' entries ih =>
    unfold kept at h
    split at h
    · exact List.mem_cons_of_mem _ (ih h)
    · rcases List.mem_cons.mp h with rfl | h
      · exact List.mem_cons_self
      · exact List.mem_cons_of_mem _ (ih h)

/-- After a run of pushes the terms of a filter are its own and those of the entries that are not
dropped. -/
theorem each_onTerms_pushAll :
    Each (OnTerms T) (pushAll f entries) ↔
      Each (OnTerms T) f ∧ ∀ e ∈ kept f entries, e.Each (OnTerms T) := by
  induction entries generalizing f with
  | nil => simp [pushAll, kept]
  | cons e entries ih =>
    have hrun : pushAll f (e :: entries) = pushAll (push f e) entries := rfl
    unfold kept
    rw [hrun, ih]
    cases hdrop : drops f e with
    | true => rw [push_of_drops hdrop, if_pos rfl]
    | false =>
      rw [each_onTerms_push hdrop, if_neg Bool.false_ne_true, List.forall_mem_cons, and_assoc]

end Filter

end RestQuery
