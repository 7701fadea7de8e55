import RestQuery.Proofs.Filter.Entries
import RestQuery.Proofs.Outcome
import RestQuery.Proofs.Text.Scanning
import RestQuery.Query.Filters

/-!
# The conditions of a group

A group is read condition by condition, and a condition may be a group again. Here the recursion is
said once: what holds of a group that is read, if it holds of the groups in it. With it it is told
from the text of a group alone which conditions put terms into its entry.
-/

namespace RestQuery

namespace Filters

variable {ctx : Context} {path : Option String} {s : List Char} {cs : List (List Char)}
  {reads : List (Option FilterEntry)} {e : FilterEntry} {negated : Bool} {c : Connective}
  {levels : Nat} {P : FilterEntry → Prop} {T : String → Term → Prop}

/-! ## Groups as texts -/

/-- The conditions between the brackets of a group; none if the text is not written as a group. -/
def conditions? (s : List Char) : Option (List (List Char)) :=
  match unwrapGroup s with
  | .error _ => none
  | .ok inner =>
    match Value.splitTopLevel ',' inner with
    | .error _ => none
    | .ok pieces => some (pieces.map Text.trim)

/-- A group, itself or one in it at any depth, has the conditions `cs`. -/
inductive HasGroup : List Char → List (List Char) → Prop where
  /-- The group itself has them. -/
  | own {s : List Char} {cs : List (List Char)} (h : conditions? s = some cs) : HasGroup s cs
  /-- One of its conditions is a group that has them, itself or in it. -/
  | inner {s condition group : List Char} {cs cs' : List (List Char)} {negated : Bool}
      {c : Connective} (h : conditions? s = some cs) (hmem : condition ∈ cs)
      (hgroup : splitNegatedGroup condition = some (negated, c, group))
      (hin : HasGroup group cs') : HasGroup s cs'

/-- A group has a condition. -/
theorem HasGroup.ne_nil (h : HasGroup s cs) : cs ≠ [] := by
  induction h with
  | own h =>
    unfold conditions? at h
    split at h
    · cases h
    · split at h
      · cases h
      · next pieces hpieces =>
        cases h
        unfold Value.splitTopLevel at hpieces
        split at hpieces
        · cases hpieces
        · next hsplit =>
          cases hpieces
          obtain ⟨_, _, -, ⟨rfl, -⟩ | ⟨_, _, -, -, -, rfl⟩⟩ := Text.sepBy_cases hsplit <;> simp
        · cases hpieces
  | inner _ _ _ _ ih => exact ih

/-- What all groups in a text have the text has for itself, and the groups among its conditions. -/
theorem forall_hasGroup_iff {Q : List (List Char) → Prop} (h : conditions? s = some cs) :
    (∀ cs', HasGroup s cs' → Q cs') ↔ Q cs ∧ ∀ condition ∈ cs, ∀ negated c group,
      splitNegatedGroup condition = some (negated, c, group) →
        ∀ cs', HasGroup group cs' → Q cs' := by
  constructor
  · intro hall
    refine ⟨hall cs (.own h), fun condition hmem negated c group hgroup cs' hin => ?_⟩
    exact hall cs' (.inner h hmem hgroup hin)
  · rintro ⟨hown, hinner⟩ cs' hin
    cases hin with
    | own h' =>
      rw [h] at h'
      cases h'
      exact hown
    | inner h' hmem hgroup hin =>
      rw [h] at h'
      cases h'
      exact hinner _ hmem _ _ _ hgroup _ hin

/-! ## Reading a group -/

/-- What a condition of a group is read as, where `motive` tells what groups are read as. -/
def ReadsAs (ctx : Context) (path : Option String) (motive : List Char → FilterEntry → Prop)
    (condition : List Char) (read : Option FilterEntry) : Prop :=
  match splitNegatedGroup condition with
  | none => columnCondition ctx path condition = .ok read
  | some (_, _, group) => ∃ e, read = some e ∧ motive group e

theorem readsAs_of_condition {motive : List Char → FilterEntry → Prop} {nested : GroupReader}
    {group condition : List Char} {read : Option FilterEntry}
    (hnested : ∀ c negated s e, nested c negated s = .ok e → motive s e)
    (h : Filters.condition ctx path nested group condition = .ok read) :
    ReadsAs ctx path motive condition read := by
  unfold Filters.condition at h
  unfold ReadsAs
  split at h
  · cases h
  · split at h
    · next negated c inner hgroup =>
      obtain ⟨e, he, rfl⟩ := map_eq_ok.mp h
      rw [hgroup]
      exact ⟨e, rfl, hnested c negated inner e he⟩
    · next hgroup =>
      rw [hgroup]
      exact h

/-- All that a group which is read is made of. -/
theorem group_eq_ok (h : group ctx path (levels + 1) c negated s = .ok e) :
    ∃ cs reads, conditions? s = some cs ∧
      cs.mapM (condition ctx path (group ctx path levels) s) = .ok reads ∧
      e = connect c negated (reads.filterMap id) := by
  unfold group at h
  obtain ⟨inner, hinner, h⟩ := bind_eq_ok.mp h
  split at h
  · cases h
  · next pieces hpieces =>
    obtain ⟨reads, hreads, h⟩ := bind_eq_ok.mp h
    cases h
    refine ⟨pieces.map Text.trim, reads, ?_, ?_, rfl⟩
    · unfold conditions?
      rw [hinner]
      dsimp only
      rw [hpieces]
    · rw [List.mapM_map]
      exact hreads

/-- What holds of every group that is read, if it holds of a group whose inner groups it holds of.
-/
theorem group_induction {motive : List Char → FilterEntry → Prop}
    (hstep : ∀ s cs reads c negated, conditions? s = some cs →
      List.Forall₂ (ReadsAs ctx path motive) cs reads →
        motive s (connect c negated (reads.filterMap id)))
    (h : group ctx path levels c negated s = .ok e) : motive s e := by
  induction levels generalizing c negated s e with
  | zero => cases h
  | succ levels ih =>
    obtain ⟨cs, reads, hcs, hreads, rfl⟩ := group_eq_ok h
    refine hstep s cs reads c negated hcs
      ((mapM_eq_ok.mp hreads).imp fun condition read hread => ?_)
    exact readsAs_of_condition (fun _ _ _ _ hnested => ih hnested) hread

/-! ## The entry of a group -/

/-- The entry of a group has what its compound has, what the negation of that has, and what its
conditions have. -/
theorem each_connect : (connect c negated (reads.filterMap id)).Each P ↔
    ((negated = true → P (connect c true (reads.filterMap id))) ∧
      P (connect c false (reads.filterMap id))) ∧
      ∀ read ∈ reads, ∀ e, read = some e → e.Each P := by
  have hmem : (∀ read ∈ reads, ∀ e, read = some e → e.Each P) ↔
      ∀ e ∈ reads.filterMap id, e.Each P := by
    simp only [List.mem_filterMap, id_eq]
    grind
  rw [hmem, ← Filter.eachAll_singletons]
  cases negated <;> cases c <;> simp [connect, FilterEntry.Each, and_assoc]

/-- What all conditions of groups have all groups have, if compounds have it. -/
theorem each_group
    (hcompound : ∀ c negated entries, P (connect c negated entries))
    (hcondition : ∀ s e, columnCondition ctx path s = .ok (some e) → e.Each P)
    (h : group ctx path levels c negated s = .ok e) : e.Each P := by
  refine group_induction (motive := fun _ e => e.Each P) (fun s cs reads c negated _ hreads => ?_) h
  refine each_connect.mpr ⟨⟨fun _ => hcompound c true _, hcompound c false _⟩, ?_⟩
  refine (forall_mem_iff_of_forall₂ (P := fun _ => True) hreads fun s read hread => ?_).mp
    fun _ _ => trivial
  refine ⟨fun _ e he => ?_, fun _ => trivial⟩
  subst he
  unfold ReadsAs at hread
  split at hread
  · exact hcondition s e hread
  · obtain ⟨e', he, heach⟩ := hread
    cases he
    exact heach

/-! ## Where the terms of a group come from -/

/-- A condition on a column puts nothing but terms with the property `T` into the entry of its
group. -/
def AddsOnly (ctx : Context) (path : Option String) (T : String → Term → Prop) (s : List Char) :
    Prop :=
  splitNegatedGroup s = none →
    ∀ e, columnCondition ctx path s = .ok (some e) → e.Each (Filter.OnTerms T)

/-- The terms in the entry of a group are those of the conditions of all groups in it. -/
theorem onTerms_group (h : group ctx path levels c negated s = .ok e) :
    e.Each (Filter.OnTerms T) ↔
      ∀ cs, HasGroup s cs → ∀ condition ∈ cs, AddsOnly ctx path T condition := by
  refine group_induction (motive := fun s e => e.Each (Filter.OnTerms T) ↔
    ∀ cs, HasGroup s cs → ∀ condition ∈ cs, AddsOnly ctx path T condition)
    (fun s cs reads c negated hcs hreads => ?_) h
  have hcompound (negated : Bool) : Filter.OnTerms T (connect c negated (reads.filterMap id)) := by
    cases negated <;> cases c <;> trivial
  rw [each_connect, and_iff_right ⟨fun _ => hcompound true, hcompound false⟩,
    forall_hasGroup_iff hcs, ← forall₂_and]
  refine (forall_mem_iff_of_forall₂ hreads fun condition read hread => ?_).symm
  unfold ReadsAs at hread
  unfold AddsOnly
  split at hread
  · next hnone =>
    rw [hnone, hread]
    simp
  · next negated c group hgroup =>
    obtain ⟨e, rfl, he⟩ := hread
    unfold AddsOnly at he
    rw [hgroup]
    simpa using he.symm

end Filters

end RestQuery
