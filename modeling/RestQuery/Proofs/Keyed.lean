import Mathlib.Tactic.Common
import RestQuery.Keyed

/-!
# Laws of values under ascending names

`Keyed.alter` and `Keyed.add` keep the names ascending, and say what is found under each name. Two
ascending lists under whose names the same is found are equal.
-/

namespace RestQuery.Keyed

variable {α : Type} {m m' : Keyed α} {p : String × α} {name n : String} {change : Option α → α}

/-- The names ascend, so each stands once. -/
def Ascending (m : Keyed α) : Prop := m.Pairwise fun p q => p.1 < q.1

@[simp] theorem ascending_nil : Ascending ([] : Keyed α) := List.Pairwise.nil

theorem ascending_cons : Ascending (p :: m) ↔ (∀ q ∈ m, p.1 < q.1) ∧ Ascending m :=
  List.pairwise_cons

@[simp] theorem find?_nil : find? ([] : Keyed α) n = none := rfl

theorem find?_cons : find? (p :: m) n = if p.1 = n then some p.2 else find? m n := by
  by_cases h : p.1 = n <;> simp [find?, h]

theorem find?_eq_none_of_lt (h : ∀ q ∈ m, n < q.1) : find? m n = none := by
  induction m with
  | nil => rfl
  | cons q m ih =>
    have hq : q.1 ≠ n := fun e => String.lt_irrefl n (e ▸ h q (by simp))
    rw [find?_cons, if_neg hq, ih fun q' hq' => h q' (List.mem_cons_of_mem _ hq')]

theorem find?_eq_none_of_lt_head (hm : Ascending (p :: m)) (h : n < p.1) :
    find? (p :: m) n = none := by
  refine find?_eq_none_of_lt fun q hq => ?_
  rcases List.mem_cons.mp hq with rfl | hq
  · exact h
  · exact String.lt_trans h ((ascending_cons.mp hm).1 q hq)

theorem mem_of_find? {value : α} (h : find? m n = some value) : (n, value) ∈ m := by
  obtain ⟨p, hp, rfl⟩ := Option.map_eq_some_iff.mp h
  have hname : p.1 = n := by simpa using List.find?_some hp
  have hmem : p ∈ m := List.mem_of_find?_eq_some hp
  rwa [← hname]

theorem ne_of_find?_eq_none (h : find? m n = none) : ∀ p ∈ m, p.1 ≠ n := by
  have hnone := List.find?_eq_none.mp (Option.map_eq_none_iff.mp h)
  intro p hp
  simpa using hnone p hp

/-! ## Changing a value -/

theorem mem_alter {q : String × α} (h : q ∈ alter name change m) :
    q.1 = name ∨ q ∈ m := by
  induction m with
  | nil => simp_all [alter]
  | cons p m ih =>
    unfold alter at h
    split at h
    · rcases List.mem_cons.mp h with h | h
      · left
        simp_all
      · exact .inr (List.mem_cons_of_mem _ h)
    · split at h
      · rcases List.mem_cons.mp h with h | h
        · left
          simp_all
        · exact .inr h
      · rcases List.mem_cons.mp h with h | h
        · exact .inr (h ▸ List.mem_cons_self)
        · exact (ih h).imp id (List.mem_cons_of_mem _)

theorem lt_of_not_lt_of_ne {a b : String} (hlt : ¬ a < b) (hne : a ≠ b) : b < a := by
  by_contra h
  exact hne (String.le_antisymm (String.not_lt.mp h) (String.not_lt.mp hlt))

theorem ascending_alter (hm : Ascending m) : Ascending (alter name change m) := by
  induction m with
  | nil => exact List.pairwise_singleton _ _
  | cons p m ih =>
    obtain ⟨hp, hm'⟩ := ascending_cons.mp hm
    unfold alter
    split
    · exact ascending_cons.mpr ⟨hp, hm'⟩
    · next hne =>
      split
      · next hlt =>
        refine ascending_cons.mpr ⟨fun q hq => ?_, hm⟩
        rcases List.mem_cons.mp hq with rfl | hq
        · exact hlt
        · exact String.lt_trans hlt (hp q hq)
      · next hlt =>
        refine ascending_cons.mpr ⟨fun q hq => ?_, ih hm'⟩
        rcases mem_alter hq with hq | hq
        · exact hq ▸ lt_of_not_lt_of_ne hlt hne
        · exact hp q hq

/-- After a change the changed value is found under its name, and the old ones elsewhere. -/
theorem find?_alter (hm : Ascending m) :
    find? (alter name change m) n =
      if n = name then some (change (find? m name)) else find? m n := by
  induction m with
  | nil =>
    by_cases h : n = name
    · simp [alter, find?_cons, h]
    · simp [alter, find?_cons, h, Ne.symm h]
  | cons p m ih =>
    obtain ⟨hp, hm'⟩ := ascending_cons.mp hm
    unfold alter
    split
    · next he =>
      subst he
      by_cases h : n = p.1
      · simp [find?_cons, h]
      · simp [find?_cons, h, Ne.symm h]
    · next hne =>
      split
      · next hlt =>
        have hnone := find?_eq_none_of_lt_head hm hlt
        by_cases h : n = name
        · simp [find?_cons (p := (name, _)), h, hnone]
        · simp [find?_cons (p := (name, _)), h, Ne.symm h]
      · rw [find?_cons, find?_cons (n := name), ih hm', if_neg (Ne.symm hne)]
        by_cases h : n = name
        · simp [h, Ne.symm hne]
        · simp [h, find?_cons]

/-! ## Adding a value -/

theorem ascending_add {value : α} (hm : Ascending m) : Ascending (add name value m) :=
  ascending_alter hm

/-- The first value that is added under a name stays. -/
theorem find?_add {value : α} (hm : Ascending m) :
    find? (add name value m) n =
      if n = name then some ((find? m name).getD value) else find? m n :=
  find?_alter hm

/-! ## Equality -/

theorem find?_head (p : String × α) (m : Keyed α) : find? (p :: m) p.1 = some p.2 := by
  simp [find?_cons]

theorem not_lt_head (hm : Ascending (p :: m)) {value : α} (h : find? (p :: m) n = some value) :
    ¬ n < p.1 := by
  intro hlt
  rw [find?_eq_none_of_lt_head hm hlt] at h
  cases h

/-- Ascending lists are equal if the same is found in both under every name. -/
theorem ext_find? (hm : Ascending m) (hm' : Ascending m') (h : ∀ n, find? m n = find? m' n) :
    m = m' := by
  induction m generalizing m' with
  | nil =>
    cases m' with
    | nil => rfl
    | cons q m' => simpa [find?_head] using h q.1
  | cons p m ih =>
    cases m' with
    | nil => simpa [find?_head] using h p.1
    | cons q m' =>
      -- Each first name is found in the other list, so neither is before the other.
      have hname : p.1 = q.1 :=
        String.le_antisymm
          (String.not_lt.mp (not_lt_head hm ((h q.1).trans (find?_head q m'))))
          (String.not_lt.mp (not_lt_head hm' ((h p.1).symm.trans (find?_head p m))))
      obtain ⟨hp, hm⟩ := ascending_cons.mp hm
      obtain ⟨hq, hm'⟩ := ascending_cons.mp hm'
      have hvalue : p.2 = q.2 := by
        have := h p.1
        rw [find?_head, hname, find?_head] at this
        exact Option.some.inj this
      have hrest : m = m' := ih hm hm' fun n => by
        by_cases hn : p.1 = n
        · rw [find?_eq_none_of_lt (hn ▸ hp), find?_eq_none_of_lt (hn ▸ hname ▸ hq)]
        · have := h n
          rwa [find?_cons, find?_cons, if_neg hn, if_neg (hname ▸ hn)] at this
      rw [Prod.ext hname hvalue, hrest]

theorem find?_filter_ne [DecidableEq α] {d : α} (hm : Ascending m) :
    find? (m.filter (·.2 ≠ d)) n =
      if (find? m n).getD d = d then none else some ((find? m n).getD d) := by
  induction m with
  | nil => simp
  | cons p m ih =>
    obtain ⟨hp, hm⟩ := ascending_cons.mp hm
    rw [List.filter_cons, find?_cons]
    by_cases hd : p.2 = d
    · rw [if_neg (by simpa using hd), ih hm]
      by_cases hn : p.1 = n
      · have hnone : find? m n = none := find?_eq_none_of_lt (hn ▸ hp)
        simp [hn, hd, hnone]
      · rw [if_neg hn]
    · rw [if_pos (by simpa using hd), find?_cons, ih hm]
      by_cases hn : p.1 = n
      · simp [hn, hd]
      · rw [if_neg hn, if_neg hn]

/-- Ascending lists in which a name without a value counts as having `d` are equal without `d`. -/
theorem filter_ne_eq [DecidableEq α] {d : α} (hm : Ascending m) (hm' : Ascending m')
    (h : ∀ n, (find? m n).getD d = (find? m' n).getD d) :
    m.filter (·.2 ≠ d) = m'.filter (·.2 ≠ d) := by
  refine ext_find? (hm.filter _) (hm'.filter _) fun n => ?_
  rw [find?_filter_ne hm, find?_filter_ne hm', h]

/-! ## Names -/

theorem contains_cons {p : String × α} :
    contains (p :: m) n = true ↔ p.1 = n ∨ contains m n = true := by
  simp [contains]

/-- Changing a value puts its name there, and loses none. -/
theorem contains_alter :
    contains (alter name change m) n = true ↔ n = name ∨ contains m n = true := by
  induction m with
  | nil =>
    rw [alter, contains_cons]
    exact or_congr_left eq_comm
  | cons p m ih =>
    unfold alter
    split
    · next he =>
      rw [contains_cons, contains_cons, he]
      constructor
      · exact .inr
      · rintro (rfl | h)
        · exact .inl rfl
        · exact h
    · split
      · rw [contains_cons]
        exact or_congr_left eq_comm
      · rw [contains_cons, contains_cons, ih]
        exact or_left_comm

theorem contains_add {value : α} :
    contains (add name value m) n = true ↔ n = name ∨ contains m n = true :=
  contains_alter

theorem contains_eq_isSome : contains m n = (find? m n).isSome := by
  induction m with
  | nil => rfl
  | cons p m ih =>
    rw [find?_cons]
    by_cases hp : p.1 = n
    · simp [contains, hp]
    · simpa [contains, hp] using ih

/-- What is there already is not added. -/
theorem add_of_contains {value : α} (hm : Ascending m) (h : contains m name = true) :
    add name value m = m := by
  refine ext_find? (ascending_add hm) hm fun n => ?_
  rw [find?_add hm]
  split
  · next he =>
    obtain ⟨x, hx⟩ := Option.isSome_iff_exists.mp (contains_eq_isSome ▸ h)
    rw [he, hx, Option.getD_some]
  · rfl

end RestQuery.Keyed
