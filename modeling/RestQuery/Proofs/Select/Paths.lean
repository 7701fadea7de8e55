import RestQuery.Proofs.Outcome
import RestQuery.Select.Paths

/-!
# Embeds at paths

Changing the clauses of the embed at a path works exactly if there is one, and changes nothing about
which paths lead to embeds.
-/

namespace RestQuery.SelectEntry

variable {change : SelectEntry → SelectEntry} {clausesChange : Clauses → Clauses}

/-! ## Changing finds what finding finds -/

mutual

theorem isSome_modifyAt? : ∀ (e : SelectEntry) (names : List (List Char)),
    (modifyAt? change names e).isSome = (findAt? names e).isSome
  | .embed _ _ _ _ _, [] => rfl
  | .embed _ _ _ entries _, next :: rest => by
    simpa [modifyAt?, findAt?] using isSome_modifyIn? entries next rest
  | .wildcard, _ => rfl
  | .column _, _ => rfl
  | .field _, _ => rfl

theorem isSome_modifyIn? : ∀ (entries : List SelectEntry) (name : List Char)
    (names : List (List Char)),
    (modifyIn? change name names entries).isSome = (findIn? name names entries).isSome
  | [], _, _ => rfl
  | e :: entries, name, names => by
    unfold modifyIn? findIn?
    split
    · simpa using isSome_modifyAt? e names
    · simpa using isSome_modifyIn? entries name names

end

/-- The embed at a path can be changed exactly if it can be found. -/
theorem isSome_modifyPath? (path : String) (entries : List SelectEntry) :
    (modifyPath? change path entries).isSome = (findPath? path entries).isSome := by
  unfold modifyPath? findPath?
  split
  · rfl
  · exact isSome_modifyIn? entries _ _

/-! ## Changing clauses keeps the paths -/

/-- The entries `e` and `e'` have embeds at the same paths. -/
def SamePaths (e e' : SelectEntry) : Prop :=
  (∀ name, e'.isEmbed name = e.isEmbed name) ∧
    ∀ names, (findAt? names e').isSome = (findAt? names e).isSome

/-- The lists `es` and `es'` have embeds at the same paths. -/
def SamePathsAll (es es' : List SelectEntry) : Prop :=
  ∀ name names, (findIn? name names es').isSome = (findIn? name names es).isSome

theorem SamePaths.cons {e e' : SelectEntry} {es : List SelectEntry} (h : SamePaths e e') :
    SamePathsAll (e :: es) (e' :: es) := by
  intro name names
  unfold findIn?
  rw [h.1 name]
  split
  · exact h.2 names
  · rfl

theorem SamePathsAll.cons {es es' : List SelectEntry} (h : SamePathsAll es es')
    (e : SelectEntry) : SamePathsAll (e :: es) (e :: es') := by
  intro name names
  unfold findIn?
  split
  · rfl
  · exact h name names

theorem samePaths_embed {name : String} {spread spread' : Bool} {clauses clauses' : Clauses}
    {entries entries' : List SelectEntry} {joins joins' : Joins}
    (h : SamePathsAll entries entries') :
    SamePaths (.embed name spread clauses entries joins)
      (.embed name spread' clauses' entries' joins') := by
  refine ⟨fun _ => rfl, fun names => ?_⟩
  cases names with
  | nil => rfl
  | cons next rest => exact h next rest

mutual

theorem samePaths_of_modifyAt? : ∀ (e : SelectEntry) (names : List (List Char)) (e' : SelectEntry),
    modifyAt? (mapClauses clausesChange) names e = some e' → SamePaths e e'
  | .embed _ _ _ _ _, [], _, h => by
    cases h
    exact samePaths_embed fun _ _ => rfl
  | .embed _ _ _ entries _, next :: rest, _, h => by
    obtain ⟨entries', hentries, rfl⟩ := Option.map_eq_some_iff.mp h
    exact samePaths_embed (samePathsAll_of_modifyIn? entries next rest entries' hentries)

theorem samePathsAll_of_modifyIn? : ∀ (es : List SelectEntry) (name : List Char)
    (names : List (List Char)) (es' : List SelectEntry),
    modifyIn? (mapClauses clausesChange) name names es = some es' → SamePathsAll es es'
  | [], _, _, _, h => by cases h
  | e :: es, name, names, _, h => by
    unfold modifyIn? at h
    split at h
    · obtain ⟨e', he, rfl⟩ := Option.map_eq_some_iff.mp h
      exact (samePaths_of_modifyAt? e names e' he).cons
    · obtain ⟨es', hes, rfl⟩ := Option.map_eq_some_iff.mp h
      exact (samePathsAll_of_modifyIn? es name names es' hes).cons e

end

/-- Changing the clauses of an embed changes nothing about which paths lead to embeds. -/
theorem isSome_findPath?_of_modifyPath? {path : String} {es es' : List SelectEntry}
    (h : modifyPath? (mapClauses clausesChange) path es = some es') (path' : String) :
    (findPath? path' es').isSome = (findPath? path' es).isSome := by
  unfold modifyPath? at h
  split at h
  · cases h
  · unfold findPath?
    split
    · rfl
    · exact samePathsAll_of_modifyIn? es _ _ es' h _ _

end RestQuery.SelectEntry
