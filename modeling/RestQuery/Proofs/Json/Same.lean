import Mathlib.Data.List.Forall2
import Mathlib.Data.Option.Basic
import RestQuery.Select.Json

/-!
# The same JSON

JSON does not tell two objects apart that have the same members in another order. Two values are the
same if they are equal up to that. What values that are the same have in common is told member by
member and item by item.
-/

namespace RestQuery

namespace Json

/-- Two values are the same up to the order of the members of objects. -/
inductive Same : Json → Json → Prop where
  | refl (j : Json) : Same j j
  | arr {xs ys : List Json} (h : List.Forall₂ Same xs ys) : Same (.arr xs) (.arr ys)
  | obj {members members' : List (String × Json)}
      (h : ∀ key, Option.Rel Same (field? key (.obj members)) (field? key (.obj members'))) :
      Same (.obj members) (.obj members')

variable {j j' : Json} {s s' key name name' : String} {xs ys : List Json}
  {members members' : List (String × Json)}

/-! ## Members -/

theorem field?_obj_cons (p : String × Json) :
    field? key (.obj (p :: members)) =
      if p.1 = key then some p.2 else field? key (.obj members) := by
  by_cases h : p.1 = key <;> simp [field?, h]

@[simp] theorem field?_obj_nil : field? key (.obj []) = none := rfl

theorem field?_append : field? key (.obj (members ++ members')) =
    (field? key (.obj members)).or (field? key (.obj members')) := by
  induction members with
  | nil => rfl
  | cons p members ih =>
    rw [List.cons_append, field?_obj_cons, field?_obj_cons, ih]
    split <;> rfl

theorem field?_optionalMember {α : Type} (toJson : α → Json) (x : Option α) :
    field? key (.obj (optionalMember name toJson x)) =
      if name = key then x.map toJson else none := by
  cases x with
  | none => simp [optionalMember]
  | some x => simp [optionalMember, field?_obj_cons]

theorem field?_listMember {α : Type} (toJson : α → Json) (xs : List α) :
    field? key (.obj (listMember name toJson xs)) =
      if name = key ∧ xs ≠ [] then some (.arr (xs.map toJson)) else none := by
  cases xs with
  | nil => simp [listMember]
  | cons x xs => simp [listMember, field?_obj_cons]

theorem field?_flagMember (b : Bool) :
    field? key (.obj (flagMember name b)) =
      if name = key ∧ b = true then some (.bool true) else none := by
  cases b with
  | false => simp [flagMember]
  | true => simp [flagMember, field?_obj_cons]

/-! ## What values that are the same have in common -/

namespace Same

theorem of_eq (h : j = j') : Same j j' := h ▸ refl j

/-- A text is the same as itself alone. -/
theorem eq_str (h : Same (.str s) j) : j = .str s := by
  cases h
  rfl

theorem str_inj (h : Same (.str s) (.str s')) : s = s' := by
  cases h
  rfl

theorem not_obj_str : ¬ Same (.obj members) (.str s) := by
  intro h
  cases h

theorem items (h : Same (.arr xs) (.arr ys)) : List.Forall₂ Same xs ys := by
  cases h with
  | refl => exact List.forall₂_same.mpr fun x _ => refl x
  | arr h => exact h

theorem field? (h : Same j j') (key : String) : Option.Rel Same (j.field? key) (j'.field? key) := by
  cases h with
  | refl =>
    cases Json.field? key j with
    | none => exact .none
    | some x => exact .some (refl x)
  | arr => exact .none
  | obj h => exact h key

theorem isSome_field? (h : Same j j') (key : String) :
    (j.field? key).isSome = (j'.field? key).isSome := by
  have hrel := h.field? key
  cases hx : j.field? key <;> cases hy : j'.field? key <;> rw [hx, hy] at hrel <;>
    first | rfl | cases hrel

/-- Objects with one member are the same if the names are equal and the values the same. -/
theorem singleton (h : Same (.obj [(name, j)]) (.obj [(name', j')])) :
    name = name' ∧ Same j j' := by
  have hname := h.field? name'
  rw [field?_obj_cons, field?_obj_cons, if_pos rfl] at hname
  split at hname
  · next he =>
    cases hname with
    | some hsame => exact ⟨he, hsame⟩
  · cases hname

end Same

theorem same_of_rel_some (h : Option.Rel Same (some j) (some j')) : Same j j' := by
  cases h with
  | some hsame => exact hsame

/-- Values from which something can be told alike have it in common where they are optional. -/
theorem eq_of_rel_map {α : Type} {f : α → Json} (hf : ∀ a b, Same (f a) (f b) → a = b)
    {x y : Option α} (h : Option.Rel Same (x.map f) (y.map f)) : x = y := by
  cases x with
  | none =>
    cases y with
    | none => rfl
    | some b => cases h
  | some a =>
    cases y with
    | none => cases h
    | some b =>
      cases h with
      | some hsame => rw [hf a b hsame]

theorem eq_of_forall₂_map {α : Type} {f : α → Json} (hf : ∀ a b, Same (f a) (f b) → a = b)
    {xs ys : List α} (h : List.Forall₂ Same (xs.map f) (ys.map f)) : xs = ys := by
  induction xs generalizing ys with
  | nil =>
    cases ys with
    | nil => rfl
    | cons y ys => cases h
  | cons x xs ih =>
    cases ys with
    | nil => cases h
    | cons y ys =>
      cases h with
      | cons hfirst hrest => rw [hf x y hfirst, ih hrest]

theorem eq_of_rel_list {α : Type} {f : α → Json} (hf : ∀ a b, Same (f a) (f b) → a = b)
    {xs ys : List α} (h : Option.Rel Same (if xs ≠ [] then some (.arr (xs.map f)) else none)
      (if ys ≠ [] then some (.arr (ys.map f)) else none)) : xs = ys := by
  by_cases hx : xs = []
  · by_cases hy : ys = []
    · rw [hx, hy]
    · rw [if_neg (not_not.mpr hx), if_pos hy] at h
      cases h
  · by_cases hy : ys = []
    · rw [if_pos hx, if_neg (not_not.mpr hy)] at h
      cases h
    · rw [if_pos hx, if_pos hy] at h
      cases h with
      | some hsame => exact eq_of_forall₂_map hf hsame.items

theorem eq_of_rel_flag {b b' : Bool}
    (h : Option.Rel Same (if b = true then some (.bool true) else none)
      (if b' = true then some (.bool true) else none)) : b = b' := by
  cases b <;> cases b' <;> first | rfl | cases h

end Json

end RestQuery
