import Mathlib.Tactic.Common
import RestQuery.Filter.Meaning

/-!
# What pushing means

An entry that is pushed onto a filter is added to what the filter means, wherever it is put. There
is one exception: an *and* whose key a column of the filter has is dropped. A run of pushes thus
loses exactly the groups that come when a column called `$and` has taken the key.
-/

namespace RestQuery

variable {v : Valuation} {f g : Filter} {e present entry : FilterEntry} {p q : Predicate}
  {name key : String} {x : Bool}

/-! ## Parts of a filter -/

theorem Predicate.holds_append :
    Predicate.holds v name (p ++ q) = (Predicate.holds v name p && Predicate.holds v name q) := by
  induction p with
  | nil => simp [Predicate.holds, Term.holdAll]
  | cons t p ih =>
    simp only [Predicate.holds, List.cons_append, Term.holdAll] at ih ⊢
    rw [ih, Bool.and_assoc]

theorem Predicate.holds_merge {merged : Predicate} (h : Predicate.merge? q p = some merged) :
    Predicate.holds v name merged = (Predicate.holds v name q && Predicate.holds v name p) := by
  unfold Predicate.merge? at h
  split at h
  · cases h
  · cases h
    exact Predicate.holds_append

namespace Filter

theorem holds_append : holds v (f ++ g) = (holds v f && holds v g) := by
  induction f with
  | nil => simp [holds]
  | cons e f ih => simp [holds, ih, Bool.and_assoc]

theorem eachHolds_append {fs gs : List Filter} :
    eachHolds v (fs ++ gs) = (eachHolds v fs && eachHolds v gs) := by
  induction fs with
  | nil => simp [eachHolds]
  | cons f fs ih => simp [eachHolds, ih, Bool.and_assoc]

/-- A filter that is added to the *and* of another is added to its meaning. -/
theorem holds_pushAnd : holds v (pushAnd f g) = (holds v f && holds v g) := by
  induction f with
  | nil => simp [pushAnd, holds, FilterEntry.holds, eachHolds]
  | cons e f ih =>
    unfold pushAnd
    split
    · next h => cases h
    · next filters rest h =>
      cases h
      simp only [holds, FilterEntry.holds, eachHolds_append, eachHolds]
      cases eachHolds v filters <;> cases holds v g <;> cases holds v f <;> rfl
    · next h =>
      cases h
      rw [holds, holds, ih, Bool.and_assoc]

/-- An entry that holds where what it replaces holds and `x` is true adds `x` to the meaning. -/
theorem holds_replace (h : withKey? f key = some present)
    (hentry : entry.holds v = (present.holds v && x)) :
    holds v (replace key entry f) = (holds v f && x) := by
  induction f with
  | nil => cases h
  | cons e f ih =>
    unfold replace
    by_cases hkey : e.key = key
    · have he : e = present := by simpa [withKey?, hkey] using h
      subst he
      rw [if_pos hkey, holds, holds, hentry]
      cases e.holds v <;> cases x <;> simp
    · have hrest : withKey? f key = some present := by simpa [withKey?, hkey] using h
      rw [if_neg hkey, holds, holds, ih hrest, Bool.and_assoc]

/-! ## Pushing -/

/-- Whether a column called `$and` has taken the key of the *and* of a filter. -/
def takesAnd (f : Filter) : Bool :=
  match withKey? f "$and" with
  | some (.column _ _) => true
  | _ => false

theorem takesAnd_iff :
    f.takesAnd = true ↔ ∃ name p, withKey? f "$and" = some (.column name p) := by
  unfold takesAnd
  split
  · next name p h => simp [h]
  · next h => simpa using fun name p => h name p

/-- Whether an entry is dropped when it is pushed onto a filter. -/
def drops (f : Filter) : FilterEntry → Bool
  | .and _ => f.takesAnd
  | _ => false

theorem push_of_drops (h : drops f e = true) : push f e = f := by
  cases e with
  | and filters =>
    obtain ⟨name, p, hkey⟩ := takesAnd_iff.mp h
    unfold push
    rw [show FilterEntry.key (.and filters) = "$and" from rfl, hkey]
  | _ => cases h

theorem key_of_withKey? (h : withKey? f key = some present) : present.key = key := by
  simpa using List.find?_some h

/-- The key of the *and* is that of an *and*, if no column has taken it. -/
theorem and_of_withKey? (hkey : withKey? f "$and" = some present) (h : f.takesAnd = false) :
    ∃ filters, present = .and filters := by
  cases present with
  | column name p =>
    rw [takesAnd_iff.mpr ⟨name, p, hkey⟩] at h
    cases h
  | and filters => exact ⟨filters, rfl⟩
  | or filters => exact absurd (key_of_withKey? hkey) (by simp [FilterEntry.key])
  | not entry => exact absurd (key_of_withKey? hkey) (by simp [FilterEntry.key])

/-- An entry that is not dropped is added to the meaning of the filter. -/
theorem holds_push (h : drops f e = false) : holds v (push f e) = (holds v f && e.holds v) := by
  have hand : holds v (pushAnd f [e]) = (holds v f && e.holds v) := by
    rw [holds_pushAnd]
    simp [holds]
  unfold push
  split
  · rw [holds_append]
    simp [holds]
  · next present hkey =>
    split
    · next name p name' q =>
      obtain rfl : name' = name := key_of_withKey? hkey
      split
      · next merged hmerge =>
        exact holds_replace hkey (Predicate.holds_merge hmerge)
      · exact hand
    · exact hand
    · next added filters =>
      refine holds_replace hkey ?_
      simp only [FilterEntry.holds, eachHolds_append]
    -- Only here the entry would be lost: the key is that of an *and*, but what has it is none.
    · next added hnot =>
      obtain ⟨filters, rfl⟩ := and_of_withKey? hkey h
      exact absurd rfl (hnot filters)
    · exact hand

/-! ## Runs of pushes -/

/-- The entries of a run of pushes that are dropped at their turn. -/
def dropped (f : Filter) : List FilterEntry → List FilterEntry
  | [] => []
  | e :: rest => if drops f e then e :: dropped (push f e) rest else dropped (push f e) rest

variable {entries : List FilterEntry}

/-- What is pushed has its meaning in the filter or is dropped. -/
theorem holds_pushAll :
    (holds v (pushAll f entries) && (dropped f entries).all (·.holds v)) =
      (holds v f && entries.all (·.holds v)) := by
  induction entries generalizing f with
  | nil => rfl
  | cons e entries ih =>
    have hrun : pushAll f (e :: entries) = pushAll (push f e) entries := rfl
    cases hdrop : drops f e with
    | true =>
      have hlist : dropped f (e :: entries) = e :: dropped (push f e) entries := by
        simp [dropped, hdrop]
      rw [hrun, hlist, List.all_cons, Bool.and_left_comm, ih, push_of_drops hdrop, List.all_cons,
        Bool.and_left_comm]
    | false =>
      have hlist : dropped f (e :: entries) = dropped (push f e) entries := by
        simp [dropped, hdrop]
      rw [hrun, hlist, ih, holds_push hdrop, List.all_cons, Bool.and_assoc]

/-- A run of pushes means what its entries mean, exactly if the entries that are dropped follow from
the others. -/
theorem holds_pushAll_iff :
    (∀ v, holds v (pushAll [] entries) = entries.all (·.holds v)) ↔
      ∀ e ∈ dropped [] entries, ∀ v, holds v (pushAll [] entries) = true → e.holds v = true := by
  have hrun (v : Valuation) : (holds v (pushAll [] entries) &&
      (dropped [] entries).all (·.holds v)) = entries.all (·.holds v) := by
    simpa [holds] using @holds_pushAll v [] entries
  constructor
  · intro h e he v hv
    rw [h v, ← hrun v, Bool.and_eq_true] at hv
    exact List.all_eq_true.mp hv.2 e he
  · intro h v
    rw [← hrun v]
    cases hv : holds v (pushAll [] entries) with
    | false => rfl
    | true => simpa using fun e he => h e he v hv

/-! ## Which entries are dropped -/

/-- What is dropped is a group for which a column called `$and` had taken the key at its turn. -/
theorem mem_dropped_iff :
    e ∈ dropped f entries ↔ ∃ before filters after, entries = before ++ .and filters :: after ∧
      e = .and filters ∧ (pushAll f before).takesAnd = true := by
  induction entries generalizing f with
  | nil => simp [dropped]
  | cons e' entries ih =>
    -- A run from `push f e'` is a run from `f` that has `e'` in front.
    have hlater : e ∈ dropped (push f e') entries ↔
        ∃ before filters after, entries = before ++ .and filters :: after ∧ e = .and filters ∧
          (pushAll f (e' :: before)).takesAnd = true := ih
    have hsplit : e ∈ dropped f (e' :: entries) ↔
        (e = e' ∧ drops f e' = true) ∨ e ∈ dropped (push f e') entries := by
      by_cases hdrop : drops f e' = true <;> simp [dropped, hdrop]
    rw [hsplit, hlater]
    constructor
    · rintro (⟨rfl, hdrop⟩ | ⟨before, filters, after, rfl, he, htaken⟩)
      · cases e with
        | and filters => exact ⟨[], filters, entries, rfl, rfl, hdrop⟩
        | _ => cases hdrop
      · exact ⟨e' :: before, filters, after, rfl, he, htaken⟩
    · rintro ⟨before, filters, after, hentries, he, htaken⟩
      cases before with
      | nil =>
        obtain ⟨rfl, -⟩ := List.cons.inj hentries
        exact .inl ⟨he, htaken⟩
      | cons b before =>
        obtain ⟨rfl, rfl⟩ := List.cons.inj hentries
        exact .inr ⟨before, filters, after, rfl, he, htaken⟩

/-- Whether a filter has a column called `name` as one of its own entries. -/
def HasColumn (name : String) (f : Filter) : Prop := ∃ p, .column name p ∈ f

theorem hasColumn_append : HasColumn name (f ++ g) ↔ HasColumn name f ∨ HasColumn name g := by
  simp [HasColumn, exists_or]

theorem hasColumn_cons : HasColumn name (e :: f) ↔ HasColumn name [e] ∨ HasColumn name f :=
  hasColumn_append (f := [e])

theorem HasColumn.of_takesAnd (h : f.takesAnd = true) : HasColumn "$and" f := by
  obtain ⟨name, p, hkey⟩ := takesAnd_iff.mp h
  obtain rfl : name = "$and" := key_of_withKey? hkey
  exact ⟨p, List.mem_of_find?_eq_some hkey⟩

theorem column_mem_pushAnd (h : .column name p ∈ pushAnd f g) : .column name p ∈ f := by
  induction f with
  | nil => simp [pushAnd] at h
  | cons e f ih =>
    unfold pushAnd at h
    split at h
    · next heq => cases heq
    · next filters rest heq =>
      cases heq
      rcases List.mem_cons.mp h with he | h
      · cases he
      · exact List.mem_cons_of_mem _ h
    · next heq =>
      cases heq
      rcases List.mem_cons.mp h with he | h
      · exact he ▸ List.mem_cons_self
      · exact List.mem_cons_of_mem _ (ih h)

theorem mem_replace (h : e ∈ replace key entry f) : e ∈ f ∨ e = entry := by
  induction f with
  | nil => cases h
  | cons e' f ih =>
    unfold replace at h
    split at h
    · rcases List.mem_cons.mp h with he | h
      · exact .inr he
      · exact .inl (List.mem_cons_of_mem _ h)
    · rcases List.mem_cons.mp h with he | h
      · exact .inl (he ▸ List.mem_cons_self)
      · exact (ih h).imp (List.mem_cons_of_mem _) id

/-- A column of a filter after a push was there before, or is what was pushed, or has the terms of
both. -/
theorem column_mem_push (h : .column name p ∈ push f e) :
    .column name p ∈ f ∨ e = .column name p ∨ ∃ q added, .column name q ∈ f ∧
      e = .column name added ∧ Predicate.merge? q added = some p := by
  unfold push at h
  split at h
  · rcases List.mem_append.mp h with h | h
    · exact .inl h
    · exact .inr (.inl (List.mem_singleton.mp h).symm)
  · next present hkey =>
    split at h
    · next name' added name'' q =>
      obtain rfl : name'' = name' := key_of_withKey? hkey
      split at h
      · next merged hmerge =>
        rcases mem_replace h with h | he
        · exact .inl h
        · cases he
          exact .inr (.inr ⟨q, added, List.mem_of_find?_eq_some hkey, rfl, hmerge⟩)
      · exact .inl (column_mem_pushAnd h)
    · exact .inl (column_mem_pushAnd h)
    · rcases mem_replace h with h | he
      · exact .inl h
      · cases he
    · exact .inl h
    · exact .inl (column_mem_pushAnd h)

/-- Pushing brings no columns but its own. -/
theorem hasColumn_push (h : HasColumn name (push f e)) : HasColumn name f ∨ HasColumn name [e] := by
  obtain ⟨p, hp⟩ := h
  rcases column_mem_push hp with hp | rfl | ⟨q, added, hq, -, -⟩
  · exact .inl ⟨p, hp⟩
  · exact .inr ⟨p, List.mem_singleton_self _⟩
  · exact .inl ⟨q, hq⟩

/-- Where no column is called `$and`, nothing is dropped. -/
theorem dropped_eq_nil (hf : ¬ HasColumn "$and" f) (h : ¬ HasColumn "$and" entries) :
    dropped f entries = [] := by
  induction entries generalizing f with
  | nil => rfl
  | cons e entries ih =>
    rw [hasColumn_cons, not_or] at h
    have hdrop : drops f e = false := by
      by_contra hd
      cases e with
      | and filters => exact hf (.of_takesAnd (by simpa [drops] using hd))
      | _ => exact hd rfl
    have hpush : ¬ HasColumn "$and" (push f e) := fun hc => (hasColumn_push hc).elim hf h.1
    simp [dropped, hdrop, ih hpush h.2]

theorem holds_pushAll_of_not_hasColumn (h : ¬ HasColumn "$and" entries) :
    holds v (pushAll [] entries) = entries.all (·.holds v) := by
  have hnone : dropped [] entries = [] := dropped_eq_nil (by simp [HasColumn]) h
  exact holds_pushAll_iff.mpr (by simp [hnone]) v

/-! ## Pushing as conjunction -/

theorem drops_iff : drops f e = true ↔
    ∃ filters name p, e = .and filters ∧ withKey? f "$and" = some (.column name p) := by
  constructor
  · intro h
    cases e with
    | and filters =>
      obtain ⟨name, p, hkey⟩ := takesAnd_iff.mp h
      exact ⟨filters, name, p, rfl, hkey⟩
    | _ => cases h
  · rintro ⟨filters, name, p, rfl, hkey⟩
    exact takesAnd_iff.mpr ⟨name, p, hkey⟩

theorem holds_eq_all : holds v f = f.all (·.holds v) := by
  induction f with
  | nil => rfl
  | cons e f ih => rw [holds, ih, List.all_cons]

/-- Where no column is called `$and`, filters that are added in a run are added to the meaning. -/
theorem holds_pushAll_eq (hf : ¬ HasColumn "$and" f) (hg : ¬ HasColumn "$and" g) :
    holds v (pushAll f g) = (holds v f && holds v g) := by
  have hrun := @holds_pushAll v f g
  rwa [dropped_eq_nil hf hg, List.all_nil, Bool.and_true, ← holds_eq_all] at hrun

/-- Pushing an entry adds it to the meaning of a filter, but for an *and* whose key a column called
`$and` has taken, which is not added at all. So a run of pushes in which no column has that name is
a conjunction, and what it means does not depend on the order. -/
theorem holds_push_cases (f : Filter) (e : FilterEntry) :
    (∀ filters name p, e = .and filters → withKey? f "$and" = some (.column name p) →
      push f e = f) ∧
    ((¬ ∃ filters name p, e = .and filters ∧ withKey? f "$and" = some (.column name p)) →
      ∀ v, holds v (push f e) = (holds v f && e.holds v)) ∧
    ∀ g : Filter, ¬ HasColumn "$and" f → ¬ HasColumn "$and" g →
      (∀ v, holds v (pushAll f g) = (holds v f && holds v g)) ∧
      ∀ g' : Filter, g.Perm g' → ∀ v, holds v (pushAll f g') = holds v (pushAll f g) := by
  refine ⟨fun filters name p he hkey => ?_, fun hnot v => ?_, fun g hf hg => ⟨fun v => ?_, ?_⟩⟩
  · exact push_of_drops (drops_iff.mpr ⟨filters, name, p, he, hkey⟩)
  · exact holds_push (Bool.eq_false_iff.mpr fun hdrop => hnot (drops_iff.mp hdrop))
  · exact holds_pushAll_eq hf hg
  · intro g' hperm v
    have hg' : ¬ HasColumn "$and" g' := by
      rintro ⟨p, hp⟩
      exact hg ⟨p, hperm.mem_iff.mpr hp⟩
    have hall : holds v g' = holds v g := by
      rw [holds_eq_all, holds_eq_all, hperm.all_eq]
    rw [holds_pushAll_eq hf hg', holds_pushAll_eq hf hg, hall]

/-- A group is lost where a column called `$and` has taken its key. A test that finds its key and
its operator taken is kept, before or after the group that takes it in. -/
theorem holds_push_cases_taken :
    push [.column "$and" [.op .is .null]] (.and [[.column "a" [.op .member .null]]]) =
        [.column "$and" [.op .is .null]] ∧
      (∀ v, holds v (push [.column "a" [.op .is .null]] (.column "a" [.op .is (.bool true)])) =
        (holds v [.column "a" [.op .is .null]] &&
          FilterEntry.holds v (.column "a" [.op .is (.bool true)]))) ∧
      ∀ v, holds v (pushAll [.column "a" [.op .is .null]]
          [.and [[.column "b" [.op .is .null]]], .column "a" [.op .is (.bool true)]]) =
        holds v (pushAll [.column "a" [.op .is .null]]
          [.column "a" [.op .is (.bool true)], .and [[.column "b" [.op .is .null]]]]) := by
  have hkey : withKey? [.column "$and" [.op .is .null]] "$and" =
      some (.column "$and" [.op .is .null]) := by
    simp [withKey?, FilterEntry.key]
  obtain ⟨hdrop, -, -⟩ := holds_push_cases [.column "$and" [.op .is .null]]
    (.and [[.column "a" [.op .member .null]]])
  obtain ⟨-, hpush, hrun⟩ := holds_push_cases [.column "a" [.op .is .null]]
    (.column "a" [.op .is (.bool true)])
  refine ⟨hdrop _ "$and" _ rfl hkey, hpush (by simp), fun v => ?_⟩
  refine (hrun _ ?_ ?_).2 _ (.swap _ _ []) v
  · simp [HasColumn]
  · simp [HasColumn]

end Filter

end RestQuery
