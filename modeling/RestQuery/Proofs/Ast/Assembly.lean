import RestQuery.Ast.Assembly
import RestQuery.Proofs.Handling
import RestQuery.Proofs.Select.Paths

/-!
# Assembly under both handlings

Names are made distinct, references checked and levels finished in related ways under strict and
lenient handling. What is put into embeds is not subject to the handling at all: a part for an embed
that cannot be found is refused under both.
-/

namespace RestQuery

open Relaxes

/-! ## Distinct names -/

namespace SelectEntry

theorem relaxes_checkNames (seen : List String) (entries : List SelectEntry) :
    Relaxes (checkNames .strict seen entries) (checkNames .lenient seen entries) := by
  induction entries generalizing seen with
  | nil => exact ok _
  | cons e entries ih =>
    unfold checkNames
    split
    · exact ih seen
    · exact ite Iff.rfl ((report _).bind fun _ => ih seen) (ih _)

mutual

theorem relaxes_dedupe : ∀ e : SelectEntry, Relaxes (dedupe .strict e) (dedupe .lenient e)
  | .embed _ _ _ entries _ =>
    (relaxes_checkNames [] entries).bind fun _ => (relaxes_dedupeAll [] entries).bind fun _ => ok _
  | .wildcard => ok _
  | .column _ => ok _
  | .field _ => ok _

theorem relaxes_dedupeAll : ∀ (seen : List String) (entries : List SelectEntry),
    Relaxes (dedupeAll .strict seen entries) (dedupeAll .lenient seen entries)
  | _, [] => ok _
  | seen, e :: entries => by
    unfold dedupeAll
    split
    · exact (relaxes_dedupeAll seen entries).bind fun _ => ok _
    · exact ite Iff.rfl (relaxes_dedupeAll seen entries) ((relaxes_dedupe e).bind fun _ =>
        (relaxes_dedupeAll _ entries).bind fun _ => ok _)

end

theorem relaxes_distinctNames (entries : List SelectEntry) :
    Relaxes (distinctNames .strict entries) (distinctNames .lenient entries) :=
  (relaxes_checkNames [] entries).bind fun _ => relaxes_dedupeAll [] entries

end SelectEntry

/-! ## References -/

theorem Clauses.relaxes_checkReferences (joins : Joins) (c : Clauses) :
    Relaxes (c.checkReferences .strict joins) (c.checkReferences .lenient joins) :=
  (forM (fun _ => report _) (c.dangling joins)).bind fun _ => ite Iff.rfl (ok _) (ok _)

namespace SelectEntry

mutual

theorem relaxes_finish : ∀ e : SelectEntry, Relaxes (finish .strict e) (finish .lenient e)
  | .embed _ _ clauses entries joins =>
    (clauses.relaxes_checkReferences joins).bind fun _ => (relaxes_finishAll entries).bind fun _ =>
      ok _
  | .wildcard => ok _
  | .column _ => ok _
  | .field _ => ok _

theorem relaxes_finishAll : ∀ entries : List SelectEntry,
    Relaxes (finishAll .strict entries) (finishAll .lenient entries)
  | [] => ok _
  | e :: entries =>
    (relaxes_finish e).bind fun _ => (relaxes_finishAll entries).bind fun _ => ok _

end

/-! ## Parts of embeds -/

variable {entries es : List SelectEntry} {path : String} {change : Clauses → Clauses}

theorem changeAt_eq_error {e : Error} :
    changeAt path change entries = .error e ↔
      findPath? path entries = none ∧ e = .invalid (.noEmbed path) := by
  have hsome : (modifyPath? (mapClauses change) path entries).isSome =
      (findPath? path entries).isSome := isSome_modifyPath? path entries
  unfold changeAt
  split
  · next entries' h =>
    rw [h] at hsome
    cases hfind : findPath? path entries <;> simp_all
  · next h =>
    rw [h] at hsome
    cases hfind : findPath? path entries <;> simp_all [eq_comm]

theorem isSome_findPath?_of_changeAt (h : changeAt path change entries = .ok es) (path' : String) :
    (findPath? path' es).isSome = (findPath? path' entries).isSome := by
  unfold changeAt at h
  split at h
  · next h' =>
    cases h
    exact isSome_findPath?_of_modifyPath? h' path'
  · cases h

section Parts

variable {α : Type} {changeOf : String × α → Clauses → Clauses} {parts : Keyed α}

/-- Changes that are made one after the other all find their embeds, and keep the paths. -/
theorem findPath?_of_foldlM_changeAt
    (h : parts.foldlM (fun es part => changeAt part.1 (changeOf part) es) entries = .ok es) :
    (∀ part ∈ parts, findPath? part.1 entries ≠ none) ∧
      ∀ path, (findPath? path es).isSome = (findPath? path entries).isSome := by
  induction parts generalizing entries with
  | nil =>
    cases h
    simp
  | cons part parts ih =>
    rw [List.foldlM_cons] at h
    obtain ⟨entries', hpart, hparts⟩ := bind_eq_ok.mp h
    have hsame := isSome_findPath?_of_changeAt hpart
    obtain ⟨hfound, hlater⟩ := ih hparts
    have hfirst : findPath? part.1 entries ≠ none := by
      intro hnone
      rw [changeAt_eq_error.mpr ⟨hnone, rfl⟩] at hpart
      cases hpart
    refine ⟨List.forall_mem_cons.mpr ⟨hfirst, fun later hmem => ?_⟩, fun path => ?_⟩
    · have hthere := hfound later hmem
      rw [← Option.isSome_iff_ne_none] at hthere ⊢
      rw [← hsame, hthere]
    · rw [hlater, hsame]

/-- Changes that are made one after the other fail only where an embed cannot be found. -/
theorem noEmbed_of_foldlM_changeAt {e : Error}
    (h : parts.foldlM (fun es part => changeAt part.1 (changeOf part) es) entries = .error e) :
    ∃ part ∈ parts, findPath? part.1 entries = none ∧ e = .invalid (.noEmbed part.1) := by
  induction parts generalizing entries with
  | nil => cases h
  | cons part parts ih =>
    rw [List.foldlM_cons] at h
    rcases bind_eq_error.mp h with hpart | ⟨entries', hpart, hparts⟩
    · obtain ⟨hnone, he⟩ := changeAt_eq_error.mp hpart
      exact ⟨part, by simp, hnone, he⟩
    · obtain ⟨later, hmem, hnone, he⟩ := ih hparts
      have hsame := isSome_findPath?_of_changeAt hpart later.1
      refine ⟨later, List.mem_cons_of_mem _ hmem, ?_, he⟩
      rw [hnone] at hsame
      exact Option.isSome_eq_false_iff.mp hsame.symm |> Option.isNone_iff_eq_none.mp

/-- Changes that are made one after the other are refused exactly if an embed cannot be found. -/
theorem foldlM_changeAt_invalid_iff :
    (∃ cause, parts.foldlM (fun es part => changeAt part.1 (changeOf part) es) entries =
      .error (.invalid cause)) ↔ ∃ part ∈ parts, findPath? part.1 entries = none := by
  constructor
  · rintro ⟨cause, h⟩
    obtain ⟨part, hpart, hnone, -⟩ := noEmbed_of_foldlM_changeAt h
    exact ⟨part, hpart, hnone⟩
  · rintro ⟨part, hpart, hnone⟩
    cases h : parts.foldlM (fun es part => changeAt part.1 (changeOf part) es) entries with
    | ok es => exact absurd hnone ((findPath?_of_foldlM_changeAt h).1 part hpart)
    | error e =>
      obtain ⟨missing, -, -, rfl⟩ := noEmbed_of_foldlM_changeAt h
      exact ⟨_, rfl⟩

end Parts

end SelectEntry

/-! ## The whole -/

/-- The tree with another handling in its metadata. -/
def Ast.withHandling (h : Handling) (a : Ast) : Ast :=
  { a with metadata := { a.metadata with handling := h } }

namespace Parts

/-- The parts with another handling in their metadata. -/
def withHandling (h : Handling) (p : Parts) : Parts :=
  { p with metadata := { p.metadata with handling := h } }

variable {p : Parts} {ast : Ast}

/-- The paths of the embeds that filters and windows are for. -/
def addressed (p : Parts) : List String :=
  p.filters.embedded.map (·.1) ++ p.windows.embedded.map (·.1)

theorem entries_withHandling {es : List SelectEntry}
    (h : (p.withHandling .strict).entries = .ok es) :
    (p.withHandling .lenient).entries = .ok es := by
  unfold entries at h ⊢
  obtain ⟨distinct, hdistinct, hput⟩ := bind_eq_ok.mp h
  exact bind_eq_ok.mpr ⟨distinct, (SelectEntry.relaxes_distinctNames _).keeps _ hdistinct, hput⟩

/-- The tree of a strict run is that of the lenient one, up to the handling that it says. -/
theorem assemble_withHandling (h : (p.withHandling .strict).assemble = .ok ast) :
    (p.withHandling .lenient).assemble = .ok (ast.withHandling .lenient) := by
  unfold assemble at h ⊢
  obtain ⟨es, hes, h⟩ := bind_eq_ok.mp h
  obtain ⟨root, hroot, h⟩ := bind_eq_ok.mp h
  obtain ⟨finished, hfinished, h⟩ := bind_eq_ok.mp h
  have hroot' := (Clauses.relaxes_checkReferences _ _).keeps _ hroot
  have hfinished' := (SelectEntry.relaxes_finishAll _).keeps _ hfinished
  cases h
  exact bind_eq_ok.mpr ⟨es, entries_withHandling hes, bind_eq_ok.mpr ⟨root, hroot',
    bind_eq_ok.mpr ⟨finished, hfinished', rfl⟩⟩⟩

/-- The parts for embeds are put in place exactly if each embed can be found among the entries. -/
theorem entries_invalid_iff (hl : p.metadata.handling = .lenient) :
    (∃ cause, p.entries = .error (.invalid cause)) ↔
      ∃ es, SelectEntry.distinctNames .lenient ((p.select.map (·.entries)).getD []) = .ok es ∧
        ∃ path ∈ p.addressed, SelectEntry.findPath? path es = none := by
  have hforgives :=
    (SelectEntry.relaxes_distinctNames ((p.select.map (·.entries)).getD [])).forgives
  unfold entries
  simp only [hl]
  constructor
  · rintro ⟨cause, h⟩
    rcases bind_eq_error.mp h with h | ⟨es, hes, h⟩
    · exact absurd h (hforgives cause)
    refine ⟨es, hes, ?_⟩
    rcases bind_eq_error.mp h with h | ⟨es', hes', h⟩
    · obtain ⟨part, hpart, hnone⟩ := SelectEntry.foldlM_changeAt_invalid_iff.mp ⟨cause, h⟩
      exact ⟨part.1, List.mem_append_left _ (List.mem_map_of_mem hpart), hnone⟩
    · obtain ⟨part, hpart, hnone⟩ := SelectEntry.foldlM_changeAt_invalid_iff.mp ⟨cause, h⟩
      obtain ⟨-, hsame⟩ := SelectEntry.findPath?_of_foldlM_changeAt hes'
      refine ⟨part.1, List.mem_append_right _ (List.mem_map_of_mem hpart), ?_⟩
      simpa [hnone] using hsame part.1
  · rintro ⟨es, hes, path, hpath, hnone⟩
    rw [hes, ok_bind]
    -- The filters come first, and leave the paths that the windows look up as they are.
    cases hfilters : p.filters.embedded.foldlM SelectEntry.putFilter es with
    | error e =>
      obtain ⟨part, -, -, rfl⟩ := SelectEntry.noEmbed_of_foldlM_changeAt hfilters
      exact ⟨_, rfl⟩
    | ok es' =>
      obtain ⟨hfound, hsame⟩ := SelectEntry.findPath?_of_foldlM_changeAt hfilters
      rcases List.mem_append.mp hpath with hmem | hmem
      · obtain ⟨part, hpart, rfl⟩ := List.mem_map.mp hmem
        exact absurd hnone (hfound part hpart)
      · obtain ⟨part, hpart, rfl⟩ := List.mem_map.mp hmem
        have hnone' : SelectEntry.findPath? part.1 es' = none := by
          simpa [hnone] using hsame part.1
        exact SelectEntry.foldlM_changeAt_invalid_iff.mpr ⟨part, hpart, hnone'⟩

/-- A lenient assembly fails exactly if a filter or a window is for an embed that cannot be found
once the entries with a used name are dropped. -/
theorem assemble_invalid_iff (hl : p.metadata.handling = .lenient) :
    (∃ cause, p.assemble = .error (.invalid cause)) ↔
      ∃ es, SelectEntry.distinctNames .lenient ((p.select.map (·.entries)).getD []) = .ok es ∧
        ∃ path ∈ p.addressed, SelectEntry.findPath? path es = none := by
  rw [← entries_invalid_iff hl]
  unfold assemble
  rw [hl]
  constructor
  · rintro ⟨cause, h⟩
    rcases bind_eq_error.mp h with h | ⟨es, -, h⟩
    · exact ⟨cause, h⟩
    · exact absurd h (Forgives.bind (Clauses.relaxes_checkReferences _ _).forgives
        (fun root => Forgives.bind (SelectEntry.relaxes_finishAll _).forgives fun finished =>
          .ok _) cause)
  · rintro ⟨cause, h⟩
    exact ⟨cause, bind_eq_error.mpr (.inl h)⟩

end Parts

end RestQuery
