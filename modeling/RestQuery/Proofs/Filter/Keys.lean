import Mathlib.Data.List.Nodup
import RestQuery.Filter.Columns
import RestQuery.Filter.Json
import RestQuery.Proofs.Filter.Push

/-!
# The keys of a filter

A filter is written as an object, so no two of its entries may have one key: a reader of the object
would see only one of them. Pushing puts an entry with a used key elsewhere, and there is one key
for which that is not enough, `$and`, which a column can have before the *and* that takes the
others in. The terms on any other column are gathered in one entry as long as their keys differ.
-/

namespace RestQuery

variable {f g : Filter} {e present entry : FilterEntry} {entries : List FilterEntry}
  {p q merged : Predicate} {name key key' : String} {keep : String → Bool}

/-! ## Filters that are built up -/

/-- Whether the keys of the terms of an entry that tests a column are pairwise distinct. -/
def FilterEntry.TermsApart : FilterEntry → Prop
  | .column _ p => (p.map Term.key).Nodup
  | _ => True

namespace Filter

/-- A change of a filter. -/
inductive Change where
  /-- An entry is added. -/
  | push (entry : FilterEntry)
  /-- The entries of another filter are added. -/
  | extend (other : Filter)
  /-- Columns are dropped. -/
  | retain (keep : String → Bool)

/-- The entries that a change adds. -/
def Change.pushed : Change → List FilterEntry
  | .push entry => [entry]
  | .extend other => other
  | .retain _ => []

/-- A filter after a change. -/
def change (f : Filter) : Change → Filter
  | .push entry => push f entry
  | .extend other => pushAll f other
  | .retain keep => retain keep f

/-- The filter that changes make of the empty one. -/
def build (changes : List Change) : Filter := changes.foldl change []

/-- What holds of the empty filter and is kept by pushing and dropping holds of each filter that is
built of entries with the property `P`. -/
theorem build_induction {P : FilterEntry → Prop} {Q : Filter → Prop} (hempty : Q [])
    (hpush : ∀ f e, Q f → P e → Q (push f e)) (hretain : ∀ f keep, Q f → Q (retain keep f))
    {changes : List Change} (h : ∀ c ∈ changes, ∀ e ∈ c.pushed, P e) : Q (build changes) := by
  have hpushAll (entries : List FilterEntry) (f : Filter) (hf : Q f)
      (hentries : ∀ e ∈ entries, P e) : Q (pushAll f entries) := by
    induction entries generalizing f with
    | nil => exact hf
    | cons e entries ih =>
      obtain ⟨he, hentries⟩ := List.forall_mem_cons.mp hentries
      exact ih (push f e) (hpush f e hf he) hentries
  have hrun (f : Filter) (hf : Q f) : Q (changes.foldl change f) := by
    induction changes generalizing f with
    | nil => exact hf
    | cons c changes ih =>
      obtain ⟨hc, hchanges⟩ := List.forall_mem_cons.mp h
      refine ih hchanges (change f c) ?_
      cases c with
      | push e => exact hpush f e hf (hc e (List.mem_singleton_self e))
      | extend other => exact hpushAll other f hf hc
      | retain keep => exact hretain f keep hf
  exact hrun [] hempty

end Filter

/-! ## Slots -/

/-- Whether an entry combines filters that must all hold. -/
def FilterEntry.isAnd : FilterEntry → Bool
  | .and _ => true
  | _ => false

/-- What tells the entries of a filter apart: the key, and whether the entry is an *and*. -/
def FilterEntry.slot (e : FilterEntry) : String × Bool := (e.key, e.isAnd)

namespace Filter

/-- Only a new *and* takes a slot. -/
theorem slots_pushAnd : (pushAnd f g).map FilterEntry.slot = f.map FilterEntry.slot ∨
    ("$and", true) ∉ f.map FilterEntry.slot ∧
      (pushAnd f g).map FilterEntry.slot = f.map FilterEntry.slot ++ [("$and", true)] := by
  induction f with
  | nil => exact .inr ⟨List.not_mem_nil, rfl⟩
  | cons e f ih =>
    unfold pushAnd
    split
    · next heq => cases heq
    · next heq =>
      cases heq
      exact .inl rfl
    · next rest hnot heq =>
      cases heq
      have he : ("$and", true) ≠ e.slot := by
        cases e with
        | and filters => exact absurd rfl (hnot filters)
        | _ => simp [FilterEntry.slot, FilterEntry.isAnd]
      rcases ih with hsame | ⟨hnew, hadded⟩
      · exact .inl (congrArg (e.slot :: ·) hsame)
      · refine .inr ⟨?_, congrArg (e.slot :: ·) hadded⟩
        exact List.not_mem_cons_of_ne_of_not_mem he hnew

theorem slots_replace (h : withKey? f key = some present) (hslot : entry.slot = present.slot) :
    (replace key entry f).map FilterEntry.slot = f.map FilterEntry.slot := by
  induction f with
  | nil => rfl
  | cons e f ih =>
    unfold replace
    by_cases hkey : e.key = key
    · obtain rfl : e = present := by simpa [withKey?, hkey] using h
      rw [if_pos hkey, List.map_cons, List.map_cons, hslot]
    · have hrest : withKey? f key = some present := by simpa [withKey?, hkey] using h
      rw [if_neg hkey, List.map_cons, List.map_cons, ih hrest]

theorem not_mem_slots (h : withKey? f e.key = none) : e.slot ∉ f.map FilterEntry.slot := by
  intro hmem
  obtain ⟨e', he', hslot⟩ := List.mem_map.mp hmem
  have hkey : e'.key = e.key := congrArg Prod.fst hslot
  simpa [hkey] using List.find?_eq_none.mp h e' he'

/-- A push takes a slot that was free, or none. -/
theorem slots_push : (push f e).map FilterEntry.slot = f.map FilterEntry.slot ∨
    ∃ s, s ∉ f.map FilterEntry.slot ∧
      (push f e).map FilterEntry.slot = f.map FilterEntry.slot ++ [s] := by
  have hand : (pushAnd f [e]).map FilterEntry.slot = f.map FilterEntry.slot ∨
      ∃ s, s ∉ f.map FilterEntry.slot ∧
        (pushAnd f [e]).map FilterEntry.slot = f.map FilterEntry.slot ++ [s] :=
    slots_pushAnd.imp id fun h => ⟨_, h⟩
  unfold push
  split
  · next hkey =>
    refine .inr ⟨e.slot, not_mem_slots hkey, ?_⟩
    rw [List.map_append, List.map_singleton]
  · next present hkey =>
    split
    · next name p name' q =>
      obtain rfl : name' = name := key_of_withKey? hkey
      split
      · exact .inl (slots_replace hkey rfl)
      · exact hand
    · exact hand
    · exact .inl (slots_replace hkey rfl)
    · exact .inl rfl
    · exact hand

theorem nodup_slots_push (h : (f.map FilterEntry.slot).Nodup) :
    ((push f e).map FilterEntry.slot).Nodup := by
  rcases @slots_push f e with hsame | ⟨s, hfree, hadded⟩
  · rwa [hsame]
  · rw [hadded]
    exact List.Nodup.append h (List.nodup_singleton s) (by simpa using hfree)

theorem slot_of_retain? {kept : FilterEntry} (h : e.retain? keep = some kept) :
    kept.slot = e.slot := by
  unfold FilterEntry.retain? at h
  split at h
  · split at h
    · cases h
      rfl
    · cases h
  · split at h
    · cases h
    · cases h
      rfl
  · split at h
    · cases h
    · cases h
      rfl
  · obtain ⟨inner, -, rfl⟩ := Option.map_eq_some_iff.mp h
    rfl

/-- Dropping columns gives slots free. -/
theorem sublist_slots_retain (f : Filter) :
    ((retain keep f).map FilterEntry.slot).Sublist (f.map FilterEntry.slot) := by
  induction f with
  | nil => exact List.Sublist.refl _
  | cons e f ih =>
    unfold retain
    split
    · next kept hkept =>
      rw [List.map_cons, List.map_cons, slot_of_retain? hkept]
      exact ih.cons_cons _
    · exact ih.cons _

/-! ## One object -/

/-- No entry takes the place of another, but for a column called `$and` beside the *and*. -/
structure KeysApart (f : Filter) : Prop where
  /-- At most one entry has a key that is not `$and`. -/
  other : ∀ key, key ≠ "$and" → f.countP (·.key = key) ≤ 1
  /-- There is at most one *and*. -/
  and : f.countP FilterEntry.isAnd ≤ 1
  /-- The terms on each column have distinct keys. -/
  terms : ∀ e ∈ f, e.TermsApart

theorem countP_slot_le_one (h : (f.map FilterEntry.slot).Nodup) (s : String × Bool) :
    f.countP (·.slot = s) ≤ 1 := by
  have hcount : f.countP ((· == s) ∘ FilterEntry.slot) ≤ 1 := by
    rw [← List.countP_map]
    exact List.nodup_iff_count_le_one.mp h s
  simpa [Function.comp_def, beq_eq_decide] using hcount

theorem isAnd_eq_true_iff : e.isAnd = true ↔ ∃ filters, e = .and filters := by
  cases e <;> simp [FilterEntry.isAnd]

theorem KeysApart.of_slots (h : (f.map FilterEntry.slot).Nodup) (hterms : ∀ e ∈ f, e.TermsApart) :
    KeysApart f where
  other key hkey := by
    refine Nat.le_trans (List.countP_mono_left fun e _ he => ?_)
      (countP_slot_le_one h (key, false))
    obtain rfl : e.key = key := by simpa using he
    have hand : e.isAnd = false := by
      cases e with
      | and filters => exact absurd rfl hkey
      | _ => rfl
    simp [FilterEntry.slot, hand]
  and := by
    refine Nat.le_trans (List.countP_mono_left fun e _ he => ?_)
      (countP_slot_le_one h ("$and", true))
    obtain ⟨filters, rfl⟩ := isAnd_eq_true_iff.mp he
    simp [FilterEntry.slot, FilterEntry.key, FilterEntry.isAnd]
  terms := hterms

/-- Without a column called `$and` the key tells the slot. -/
theorem nodup_keys (h : (f.map FilterEntry.slot).Nodup) (hcolumn : ¬ HasColumn "$and" f) :
    (f.map FilterEntry.key).Nodup := by
  have hand (e : FilterEntry) (he : e ∈ f) : e.isAnd = decide (e.key = "$and") := by
    cases e with
    | column name p =>
      have hname : name ≠ "$and" := fun hname => hcolumn ⟨p, hname ▸ he⟩
      simp [FilterEntry.isAnd, FilterEntry.key, hname]
    | _ => simp [FilterEntry.isAnd, FilterEntry.key]
  have hslots : (f.map FilterEntry.key).map (fun key => (key, decide (key = "$and"))) =
      f.map FilterEntry.slot := by
    rw [List.map_map]
    exact List.map_congr_left fun e he => by simp [FilterEntry.slot, hand e he]
  exact List.Nodup.of_map _ (hslots ▸ h)

theorem map_fst_toMembers (f : Filter) : (toMembers f).map Prod.fst = f.map FilterEntry.key := by
  induction f with
  | nil => rfl
  | cons e f ih =>
    have he : e.toMember.1 = e.key := by cases e <;> rfl
    rw [toMembers, List.map_cons, List.map_cons, ih, he]

end Filter

/-! ## Terms -/

namespace Predicate

theorem nodup_keys_merge (hq : (q.map Term.key).Nodup) (hp : (p.map Term.key).Nodup)
    (h : merge? q p = some merged) : (merged.map Term.key).Nodup := by
  unfold merge? at h
  split at h
  · cases h
  · next hfree =>
    cases h
    rw [List.map_append]
    refine List.Nodup.append hq hp fun k hk hk' => hfree ?_
    obtain ⟨t, ht, rfl⟩ := List.mem_map.mp hk
    obtain ⟨t', ht', hsame⟩ := List.mem_map.mp hk'
    exact List.any_eq_true.mpr ⟨t', ht', List.any_eq_true.mpr ⟨t, ht, by simpa using hsame.symm⟩⟩

/-- Terms with distinct keys are gathered. -/
theorem merge?_of_nodup (h : ((q ++ p).map Term.key).Nodup) : merge? q p = some (q ++ p) := by
  unfold merge?
  rw [if_neg]
  intro hused
  obtain ⟨t, ht, hkey⟩ := List.any_eq_true.mp hused
  obtain ⟨t', ht', hsame⟩ := List.any_eq_true.mp hkey
  rw [List.map_append] at h
  refine (List.disjoint_of_nodup_append h) (List.mem_map_of_mem ht') ?_
  rw [show t'.key = t.key by simpa using hsame]
  exact List.mem_map_of_mem ht

theorem map_fst_toMembers (p : Predicate) : (toMembers p).map Prod.fst = p.map Term.key := by
  induction p with
  | nil => rfl
  | cons t p ih =>
    have ht : t.toMember.1 = t.key := by cases t <;> rfl
    rw [toMembers, List.map_cons, List.map_cons, ih, ht]

end Predicate

namespace Filter

theorem termsApart_push (hf : ∀ e ∈ f, e.TermsApart) (he : e.TermsApart) :
    ∀ e' ∈ push f e, e'.TermsApart := by
  intro e' he'
  cases e' with
  | column name p =>
    rcases column_mem_push he' with hmem | rfl | ⟨q, added, hq, rfl, hmerge⟩
    · exact hf _ hmem
    · exact he
    · exact Predicate.nodup_keys_merge (hf _ hq) he hmerge
  | _ => trivial

theorem column_of_retain? (h : e.retain? keep = some (.column name p)) : e = .column name p := by
  cases e with
  | column name' p' =>
    unfold FilterEntry.retain? at h
    split at h
    · exact Option.some.inj h
    · cases h
  | or filters | and filters =>
    unfold FilterEntry.retain? at h
    split at h <;> cases h
  | not e =>
    obtain ⟨kept, -, hkept⟩ := Option.map_eq_some_iff.mp h
    cases hkept

theorem column_mem_retain (h : .column name p ∈ retain keep f) : .column name p ∈ f := by
  induction f with
  | nil => cases h
  | cons e f ih =>
    unfold retain at h
    split at h
    · next kept hkept =>
      rcases List.mem_cons.mp h with rfl | h
      · exact column_of_retain? hkept ▸ List.mem_cons_self
      · exact List.mem_cons_of_mem _ (ih h)
    · exact List.mem_cons_of_mem _ (ih h)

/-! ## The terms on one column -/

/-- The predicates of the entries that test the column called `name`, in order. -/
def predicatesOn (name : String) (entries : List FilterEntry) : List Predicate :=
  entries.filterMap fun
    | .column name' p => if name' = name then some p else none
    | _ => none

/-- The keys of combinators, which a column can be called too. -/
def combinatorKeys : List String := ["$or", "$and", "$not"]

theorem exists_column (hname : name ∉ combinatorKeys) (hkey : e.key = name) :
    ∃ p, e = .column name p := by
  subst hkey
  cases e with
  | column name p => exact ⟨p, rfl⟩
  | or | and | not => simp [combinatorKeys, FilterEntry.key] at hname

theorem predicatesOn_cons_column :
    predicatesOn name (.column name p :: entries) = p :: predicatesOn name entries := by
  simp [predicatesOn]

theorem predicatesOn_cons_of_ne (h : e.key ≠ name) :
    predicatesOn name (e :: entries) = predicatesOn name entries := by
  unfold predicatesOn
  rw [List.filterMap_cons]
  cases e with
  | column name' p => simp [show name' ≠ name from h]
  | _ => rfl

/-- The entries with a key other than `$and` are no concern of the *and*. -/
theorem withKey_pushAnd (h : key ≠ "$and") :
    (pushAnd f g).filter (·.key = key) = f.filter (·.key = key) := by
  have hand (filters : List Filter) : FilterEntry.key (.and filters) ≠ key := h.symm
  induction f with
  | nil => simp [pushAnd, hand]
  | cons e f ih =>
    unfold pushAnd
    split
    · next heq => cases heq
    · next heq =>
      cases heq
      simp [hand]
    · next heq =>
      cases heq
      rw [List.filter_cons, List.filter_cons, ih]

theorem withKey_replace_of_ne (hentry : entry.key = key') (h : key' ≠ key) :
    (replace key' entry f).filter (·.key = key) = f.filter (·.key = key) := by
  subst hentry
  induction f with
  | nil => rfl
  | cons e f ih =>
    unfold replace
    split
    · next hkey => simp [hkey, h]
    · rw [List.filter_cons, List.filter_cons, ih]

theorem withKey_replace (hentry : entry.key = key) (h : f.filter (·.key = key) = [present]) :
    (replace key entry f).filter (·.key = key) = [entry] := by
  induction f with
  | nil => cases h
  | cons e f ih =>
    unfold replace
    split
    · next hkey =>
      rw [List.filter_cons_of_pos (by simpa using hkey)] at h
      rw [List.filter_cons_of_pos (by simpa using hentry), (List.cons.inj h).2]
    · next hkey =>
      rw [List.filter_cons_of_neg (by simpa using hkey)] at h ⊢
      exact ih h

/-- A push leaves the entries with other keys as they are, but for the *and*. -/
theorem withKey_push_of_ne (hkey : key ≠ "$and") (h : e.key ≠ key) :
    (push f e).filter (·.key = key) = f.filter (·.key = key) := by
  unfold push
  split
  · simp [h]
  · split
    · split
      · exact withKey_replace_of_ne rfl h
      · exact withKey_pushAnd hkey
    · exact withKey_pushAnd hkey
    · exact withKey_replace_of_ne rfl h
    · rfl
    · exact withKey_pushAnd hkey

theorem withKey?_eq_head? : withKey? f key = (f.filter (·.key = key)).head? :=
  List.head?_filter.symm

/-- The entry for a column on which `ps` were pushed. -/
def gathered (name : String) : List Predicate → Filter
  | [] => []
  | p :: ps => [.column name (p :: ps).flatten]

/-- Terms that are pushed on a column join its entry, if all their keys differ. -/
theorem withKey_push_column {ps : List Predicate} (h : f.filter (·.key = name) = gathered name ps)
    (hterms : ((ps ++ [p]).flatten.map Term.key).Nodup) :
    (push f (.column name p)).filter (·.key = name) = gathered name (ps ++ [p]) := by
  have hpresent : withKey? f (FilterEntry.key (.column name p)) = (gathered name ps).head? := by
    rw [← h]
    exact withKey?_eq_head?
  unfold push
  rw [hpresent]
  cases ps with
  | nil =>
    dsimp only [gathered, List.head?_nil]
    rw [List.filter_append, h]
    simp [gathered, FilterEntry.key]
  | cons q ps =>
    rw [List.flatten_append, List.flatten_singleton] at hterms
    dsimp only [gathered, List.head?_cons]
    rw [Predicate.merge?_of_nodup hterms]
    have hentry (p : Predicate) : FilterEntry.key (.column name p) = name := rfl
    exact (withKey_replace (hentry _) h).trans (by simp)

/-- In a run of pushes the terms on a column make one entry, in order, if all their keys differ. -/
theorem withKey_pushAll {ps : List Predicate} (hname : name ∉ combinatorKeys)
    (h : f.filter (·.key = name) = gathered name ps)
    (hterms : ((ps ++ predicatesOn name entries).flatten.map Term.key).Nodup) :
    (pushAll f entries).filter (·.key = name) =
      gathered name (ps ++ predicatesOn name entries) := by
  induction entries generalizing f ps with
  | nil => simpa [pushAll, predicatesOn] using h
  | cons e entries ih =>
    have hrun : pushAll f (e :: entries) = pushAll (push f e) entries := rfl
    rw [hrun]
    by_cases hkey : e.key = name
    · obtain ⟨p, rfl⟩ := exists_column hname hkey
      rw [predicatesOn_cons_column, List.append_cons] at hterms ⊢
      have hfirst : ((ps ++ [p]).flatten.map Term.key).Nodup := by
        rw [List.flatten_append, List.map_append] at hterms
        exact (List.nodup_append.mp hterms).1
      exact ih (withKey_push_column h hfirst) hterms
    · rw [predicatesOn_cons_of_ne hkey] at hterms ⊢
      have hand : name ≠ "$and" := by
        rintro rfl
        simp [combinatorKeys] at hname
      exact ih ((withKey_push_of_ne hand hkey).trans h) hterms

/-! ## The whole -/

theorem slots_build (changes : List Change) :
    ((build changes).map FilterEntry.slot).Nodup :=
  build_induction (P := fun _ => True) (Q := fun f => (f.map FilterEntry.slot).Nodup)
    List.nodup_nil (fun _ _ hf _ => nodup_slots_push hf)
    (fun f _ hf => hf.sublist (sublist_slots_retain f)) fun _ _ _ _ => trivial

theorem termsApart_build {changes : List Change}
    (h : ∀ c ∈ changes, ∀ e ∈ c.pushed, e.TermsApart) : ∀ e ∈ build changes, e.TermsApart := by
  refine build_induction (Q := fun f => ∀ e ∈ f, e.TermsApart) (by simp)
    (fun _ _ hf he => termsApart_push hf he) (fun f keep hf e he => ?_) h
  cases e with
  | column name p => exact hf _ (column_mem_retain he)
  | _ => trivial

theorem not_hasColumn_build {changes : List Change}
    (h : ∀ c ∈ changes, ¬ HasColumn name c.pushed) : ¬ HasColumn name (build changes) := by
  refine build_induction (P := fun e => ¬ HasColumn name [e]) (Q := fun f => ¬ HasColumn name f)
    (by simp [HasColumn]) (fun f e hf he hc => (hasColumn_push hc).elim hf he) ?_
    fun c hc e he hcolumn => ?_
  · rintro f keep hf ⟨p, hp⟩
    exact hf ⟨p, column_mem_retain hp⟩
  · obtain ⟨p, hp⟩ := hcolumn
    exact h c hc ⟨p, List.mem_singleton.mp hp ▸ he⟩

/-- However a filter is built by pushing and dropping, no entry takes the key of another, but for a
column called `$and` beside the *and*. Without such a column each key is written once. What a run of
pushes brings for a new column is one entry, with the terms in order, if their keys differ. -/
theorem keysApart_build (changes : List Change)
    (h : ∀ c ∈ changes, ∀ e ∈ c.pushed, e.TermsApart) :
    KeysApart (build changes) ∧
    (∀ name p, .column name p ∈ build changes →
      ((Predicate.toMembers p).map Prod.fst).Nodup) ∧
    ((∀ c ∈ changes, ¬ HasColumn "$and" c.pushed) →
      ((build changes).map FilterEntry.key).Nodup ∧
      ((toMembers (build changes)).map Prod.fst).Nodup) ∧
    ∀ name entries, name ∉ combinatorKeys → ¬ HasColumn name (build changes) →
      predicatesOn name entries ≠ [] →
      ((predicatesOn name entries).flatten.map Term.key).Nodup →
      (pushAll (build changes) entries).filter (·.key = name) =
        [.column name (predicatesOn name entries).flatten] := by
  have hslots := slots_build changes
  have hterms := termsApart_build h
  refine ⟨.of_slots hslots hterms, fun name p hp => ?_, fun hand => ?_, ?_⟩
  · rw [Predicate.map_fst_toMembers]
    exact hterms _ hp
  · have hkeys := nodup_keys hslots (not_hasColumn_build hand)
    exact ⟨hkeys, (map_fst_toMembers (build changes)).symm ▸ hkeys⟩
  · intro name entries hname hnew hsome hdistinct
    have hnone : (build changes).filter (·.key = name) = gathered name [] := by
      refine List.filter_eq_nil_iff.mpr fun e he hkey => ?_
      obtain ⟨p, rfl⟩ := exists_column hname (by simpa using hkey)
      exact hnew ⟨p, he⟩
    have hrun := withKey_pushAll hname hnone hdistinct
    obtain ⟨p, ps, hps⟩ := List.exists_cons_of_ne_nil hsome
    rw [List.nil_append, hps] at hrun
    rw [hrun, hps]
    rfl

/-- A column called `$or` and an *or* are kept apart, a test with a used operator goes into the
*and*, and two bounds of one column become one object, with a group pushed between them. -/
theorem keysApart_build_bounds :
    (∀ c ∈ [Change.push (.or [[.column "b" [.op .is .null]]]),
        .extend [.column "$or" [.op .is .null], .column "b" [.op .is .null],
          .column "b" [.op .is (.bool true)]], .retain (· != "c")],
      ∀ e ∈ c.pushed, e.TermsApart) ∧
    ((toMembers (build [Change.push (.or [[.column "b" [.op .is .null]]]),
        .extend [.column "$or" [.op .is .null], .column "b" [.op .is .null],
          .column "b" [.op .is (.bool true)]], .retain (· != "c")])).map Prod.fst).Nodup ∧
    (pushAll (build [])
        [.column "a" [.op .is .null], .and [[.column "a" [.op .is .null]]],
          .column "a" [.op .member .null]]).filter (·.key = "a") =
      [.column "a" [.op .is .null, .op .member .null]] := by
  have hapart : ∀ c ∈ [Change.push (.or [[.column "b" [.op .is .null]]]),
      .extend [.column "$or" [.op .is .null], .column "b" [.op .is .null],
        .column "b" [.op .is (.bool true)]], .retain (· != "c")],
      ∀ e ∈ c.pushed, e.TermsApart := by
    simp [Change.pushed, FilterEntry.TermsApart]
  obtain ⟨-, -, hkeys, -⟩ := keysApart_build _ hapart
  obtain ⟨-, -, -, hbounds⟩ := keysApart_build [] (by simp)
  refine ⟨hapart, (hkeys (by simp [Change.pushed, HasColumn])).2, ?_⟩
  exact hbounds "a" _ (by decide) (by simp [HasColumn, build]) (by simp [predicatesOn])
    (by simp [predicatesOn, Term.key, Operator.key])

end Filter

end RestQuery
