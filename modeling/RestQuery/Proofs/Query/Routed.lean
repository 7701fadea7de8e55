import RestQuery.Proofs.Keyed
import RestQuery.Proofs.Outcome
import RestQuery.Query.Context

/-!
# Routed parts

What changing the part of one place does to the parts of the others, and which paths have parts at
all. A key of a parameter is routed to an embed that is there, or to the root.
-/

namespace RestQuery

namespace Routed

variable {α : Type} {r : Routed α} {empty : α} {path place : Option String} {change : α → α}

/-- The part for the root, or for the embed at a path; `empty` where an embed has none. -/
def part (empty : α) (path : Option String) (r : Routed α) : α :=
  match path with
  | none => r.root
  | some path => (Keyed.find? r.embedded path).getD empty

theorem ascending_alter (h : Keyed.Ascending r.embedded) :
    Keyed.Ascending (r.alter empty path change).embedded := by
  cases path with
  | none => exact h
  | some path => exact Keyed.ascending_alter h

theorem part_alter (h : Keyed.Ascending r.embedded) :
    (r.alter empty path change).part empty place =
      if place = path then change (r.part empty path) else r.part empty place := by
  cases path with
  | none => cases place <;> simp [alter, part]
  | some path =>
    cases place with
    | none => simp [alter, part]
    | some p =>
      simp only [alter, part, Keyed.find?_alter h, Option.some.injEq]
      split <;> simp

/-- An embed whose part is changed has one. -/
theorem exists_mem_alter {path : String} (h : Keyed.Ascending r.embedded) :
    ∃ x, (path, x) ∈ (r.alter empty (some path) change).embedded :=
  ⟨_, Keyed.mem_of_find? ((Keyed.find?_alter h).trans (if_pos rfl))⟩

/-- The embeds that have a part all have the property `P`. -/
def Addresses (P : String → Prop) (r : Routed α) : Prop := ∀ part ∈ r.embedded, P part.1

/-- Changing one part gives a part to no embed but its own. -/
theorem Addresses.alter {P : String → Prop} (h : r.Addresses P) (hpath : ∀ p ∈ path, P p) :
    (r.alter empty path change).Addresses P := by
  cases path with
  | none => exact h
  | some path =>
    intro part hpart
    rcases Keyed.mem_alter hpart with he | hmem
    · exact he ▸ hpath path rfl
    · exact h part hmem

end Routed

/-! ## Places of keys -/

/-- The path that is split off a key leads to an embed. -/
theorem Context.hasEmbed_of_splitEmbed {ctx : Context} {key path : String}
    (h : (ctx.splitEmbed key).1 = some path) : ctx.hasEmbed path = true := by
  unfold splitEmbed at h
  split at h
  · next p rest hlast =>
    cases h
    have hmem := List.mem_of_getLast? hlast
    simpa using (List.mem_filter.mp hmem).2
  · cases h

/-- A path that is not refused leads to an embed. -/
theorem Context.hasEmbed_of_filter {ctx : Context} {path : Option String}
    (h : path.filter (fun p => !ctx.hasEmbed p) = none) : ∀ p ∈ path, ctx.hasEmbed p = true := by
  intro p hp
  rw [Option.mem_def.mp hp] at h
  simpa [Option.filter] using h

end RestQuery
