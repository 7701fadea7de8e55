import Mathlib.Data.List.Basic
import Mathlib.Data.List.Pairwise
import RestQuery.Proofs.Select.Levels

/-!
# The places of a select list

The place of an entry is the indices on the way to it. An embed at a place is also led to by the
names on the way, one for each level, and the paths that are listed for a select list are made of
these names. Where the names of the embeds of each level are distinct they lead to one place.
-/

namespace RestQuery

namespace SelectEntry

variable {e e' : SelectEntry} {es es' : List SelectEntry} {place place' : List Nat}
  {names names' : List (List Char)} {name : List Char} {path parent : String} {i j : Nat}

/-! ## Places -/

/-- The entries in an entry. -/
def nested : SelectEntry → List SelectEntry
  | .embed _ _ _ entries _ => entries
  | _ => []

/-- An entry without the entries in it. -/
def bare : SelectEntry → SelectEntry
  | .embed name spread clauses _ joins => .embed name spread clauses [] joins
  | e => e

/-- The entry that a place leads to from an entry. -/
def partAt? : List Nat → SelectEntry → Option SelectEntry
  | [], e => some e
  | i :: place, e => e.nested[i]?.bind (partAt? place)

/-- The entry at a place. -/
def entryAt? : List Nat → List SelectEntry → Option SelectEntry
  | [], _ => none
  | i :: place, es => es[i]?.bind (partAt? place)

/-- The names `names`, one for each embed on the way, lead to the embed `e` at a place. -/
inductive Leads : List SelectEntry → List Nat → List (List Char) → SelectEntry → Prop where
  /-- The name of an embed of the list leads to it. -/
  | own {es entries : List SelectEntry} {i : Nat} {name : String} {spread : Bool}
      {clauses : Clauses} {joins : Joins}
      (h : es[i]? = some (.embed name spread clauses entries joins)) :
      Leads es [i] [name.toList] (.embed name spread clauses entries joins)
  /-- What leads on from an embed of the list does so after its name. -/
  | inner {es entries : List SelectEntry} {i : Nat} {name : String} {spread : Bool}
      {clauses : Clauses} {joins : Joins} {place : List Nat} {names : List (List Char)}
      {e : SelectEntry} (h : es[i]? = some (.embed name spread clauses entries joins))
      (he : Leads entries place names e) : Leads es (i :: place) (name.toList :: names) e

theorem Leads.place_ne_nil (h : Leads es place names e) : place ≠ [] := by
  cases h <;> exact List.cons_ne_nil _ _

theorem Leads.names_ne_nil (h : Leads es place names e) : names ≠ [] := by
  cases h <;> exact List.cons_ne_nil _ _

/-- The embed that names lead to is at the place. -/
theorem Leads.entryAt? (h : Leads es place names e) : entryAt? place es = some e := by
  induction h with
  | own h =>
    rw [SelectEntry.entryAt?, h]
    rfl
  | inner h he ih =>
    obtain ⟨j, place, rfl⟩ := List.exists_cons_of_ne_nil he.place_ne_nil
    rw [SelectEntry.entryAt?, h]
    exact ih

/-- What leads to an embed in a list also does so in one with more entries, at some place. -/
theorem Leads.mono (h : Leads es place names e) (hes : ∀ e ∈ es, e ∈ es') :
    ∃ place', Leads es' place' names e := by
  cases h with
  | own h =>
    obtain ⟨i', h'⟩ := List.mem_iff_getElem?.mp (hes _ (List.mem_of_getElem? h))
    exact ⟨[i'], .own h'⟩
  | inner h he =>
    obtain ⟨i', h'⟩ := List.mem_iff_getElem?.mp (hes _ (List.mem_of_getElem? h))
    exact ⟨_, .inner h' he⟩

/-- The names on the way to a place are determined. -/
theorem Leads.names_unique (h : Leads es place names e) (h' : Leads es place names' e') :
    names' = names := by
  induction h generalizing names' with
  | own h =>
    cases h' with
    | own h' =>
      cases h.symm.trans h'
      rfl
    | inner _ he' => exact absurd rfl he'.place_ne_nil
  | inner h he ih =>
    cases h' with
    | own => exact absurd rfl he.place_ne_nil
    | inner h' he' =>
      cases h.symm.trans h'
      rw [ih he']

/-! ## The names of the embeds of a level -/

/-- The name of an entry that is an embed. -/
def embedName? : SelectEntry → Option String
  | .embed name _ _ _ _ => some name
  | _ => none

/-- The names of the embeds of a level. -/
def embedNames (es : List SelectEntry) : List String := es.filterMap embedName?

/-- A property that a list and the entries of each level in it have. -/
def EachList (P : List SelectEntry → Prop) (es : List SelectEntry) : Prop :=
  P es ∧ EachLevelAll (fun _ entries _ => P entries) es

theorem EachList.nested {P : List SelectEntry → Prop} {entries : List SelectEntry} {name : String}
    {spread : Bool} {clauses : Clauses} {joins : Joins} (hes : EachList P es)
    (h : es[i]? = some (.embed name spread clauses entries joins)) : EachList P entries :=
  eachLevelAll_iff.mp hes.2 _ (List.mem_of_getElem? h)

theorem EachList.mono {P Q : List SelectEntry → Prop} (hPQ : ∀ es, P es → Q es)
    (hes : EachList P es) : EachList Q es :=
  ⟨hPQ es hes.1, eachLevelAll_mono (fun _ entries _ => hPQ entries) es hes.2⟩

/-- The names of the embeds of a level are distinct. -/
def EmbedsDistinct (es : List SelectEntry) : Prop := (embedNames es).Nodup

/-- The names of the embeds of a level have no points. -/
def WithoutPoints (es : List SelectEntry) : Prop := ∀ name ∈ embedNames es, '.' ∉ name.toList

instance : Decidable (EmbedsDistinct es) := inferInstanceAs (Decidable (embedNames es).Nodup)

instance : Decidable (WithoutPoints es) :=
  inferInstanceAs (Decidable (∀ name ∈ embedNames es, '.' ∉ name.toList))

/-- The names of the embeds of a level are distinct, not empty, and without points. -/
structure NamesPlain (es : List SelectEntry) : Prop where
  distinct : EmbedsDistinct es
  nonempty : ∀ name ∈ embedNames es, name ≠ ""
  withoutPoints : WithoutPoints es

theorem isEmbed_iff : e.isEmbed name = true ↔ e.embedName? = some (.ofList name) := by
  cases e <;> simp [isEmbed, embedName?, ← String.toList_inj]

theorem isEmbed_embed {name : String} {spread : Bool} {clauses : Clauses}
    {entries : List SelectEntry} {joins : Joins} :
    isEmbed name.toList (.embed name spread clauses entries joins) = true := by
  simp [isEmbed]

theorem mem_embedNames {entries : List SelectEntry} {name : String} {spread : Bool}
    {clauses : Clauses} {joins : Joins}
    (h : es[i]? = some (.embed name spread clauses entries joins)) : name ∈ embedNames es :=
  List.mem_filterMap.mpr ⟨_, List.mem_of_getElem? h, rfl⟩

/-- In a level with distinct names a name is that of one embed. -/
theorem EmbedsDistinct.index_unique {name : String} (hes : EmbedsDistinct es)
    (hi : es[i]? = some e) (hj : es[j]? = some e') (he : e.embedName? = some name)
    (he' : e'.embedName? = some name) : j = i := by
  unfold EmbedsDistinct embedNames at hes
  rw [List.nodup_iff_pairwise_ne, List.pairwise_filterMap, List.pairwise_iff_getElem] at hes
  obtain ⟨hilt, rfl⟩ := List.getElem?_eq_some_iff.mp hi
  obtain ⟨hjlt, rfl⟩ := List.getElem?_eq_some_iff.mp hj
  by_contra hne
  rcases Nat.lt_or_gt_of_ne hne with hlt | hlt
  · exact hes j i hjlt hilt hlt name he' name he rfl
  · exact hes i j hilt hjlt hlt name he name he' rfl

/-- Where the names of each level are distinct the same names lead to one place. -/
theorem Leads.place_unique (h : Leads es place names e) (h' : Leads es place' names e')
    (hes : EachList EmbedsDistinct es) : place' = place := by
  -- By the way to the one place; at each name the other has to take the same embed.
  induction h generalizing place' with
  | @own es entries i name spread clauses joins h =>
    generalize hnames : [name.toList] = names' at h'
    cases h' with
    | own h' =>
      have hsame := String.toList_inj.mp (List.cons.inj hnames).1
      rw [hes.1.index_unique h h' rfl (by rw [hsame]; rfl)]
    | inner _ he' => exact absurd (List.cons.inj hnames).2.symm he'.names_ne_nil
  | @inner es entries i name spread clauses joins place names e h he ih =>
    generalize hnames : name.toList :: names = names' at h'
    cases h' with
    | own => exact absurd (List.cons.inj hnames).2 he.names_ne_nil
    | inner h' he' =>
      obtain ⟨hhead, hrest⟩ := List.cons.inj hnames
      have hsame := String.toList_inj.mp hhead
      obtain rfl := hes.1.index_unique h h' rfl (by rw [hsame]; rfl)
      cases h.symm.trans h'
      subst hrest
      rw [ih he' (hes.nested h)]

theorem Leads.not_mem (h : Leads es place names e) (hes : EachList WithoutPoints es) :
    ∀ name ∈ names, '.' ∉ name := by
  induction h with
  | own h =>
    intro name hname
    cases List.mem_singleton.mp hname
    exact hes.1 _ (mem_embedNames h)
  | inner h he ih =>
    intro name hname
    rcases List.mem_cons.mp hname with rfl | hname
    · exact hes.1 _ (mem_embedNames h)
    · exact ih (hes.nested h) name hname

/-- All names but the last lead to an embed too. -/
theorem Leads.of_concat (h : Leads es place (names ++ [name]) e) (hnames : names ≠ []) :
    ∃ place' e', Leads es place' names e' := by
  induction names generalizing es place with
  | nil => exact absurd rfl hnames
  | cons first names ih =>
    generalize hall : first :: names ++ [name] = all at h
    cases h with
    | own => simp at hall
    | inner h he =>
      obtain ⟨rfl, rfl⟩ := List.cons.inj hall
      by_cases hrest : names = []
      · subst hrest
        exact ⟨_, _, .own h⟩
      · obtain ⟨place', e', he'⟩ := ih he hrest
        exact ⟨_, e', .inner h he'⟩

/-! ## Paths as texts -/

/-- The path on the way through `names` from a parent. -/
def joinNames (parent : String) (names : List (List Char)) : String :=
  names.foldl (fun path name => joinPath path (.ofList name)) parent

theorem toList_joinNames (hparent : parent ≠ "") :
    (joinNames parent names).toList = ['.'].intercalate (parent.toList :: names) := by
  induction names generalizing parent with
  | nil => exact List.intercalate_singleton.symm
  | cons name names ih =>
    have hjoin : joinPath parent (.ofList name) = parent ++ "." ++ .ofList name := by
      unfold joinPath
      rw [if_neg (by simpa using hparent)]
    have hne : joinPath parent (.ofList name) ≠ "" := by
      rw [hjoin, ← String.toList_inj.ne]
      simp
    have hmore : joinNames parent (name :: names) =
        joinNames (joinPath parent (.ofList name)) names := rfl
    rw [hmore, ih hne, hjoin, List.intercalate_cons_cons]
    cases names with
    | nil => simp
    | cons => simp [List.intercalate_cons_cons]

/-- The path from the top level is the names with points between them. -/
theorem Leads.toList_joinNames (h : Leads es place names e)
    (hes : ∀ name ∈ embedNames es, name ≠ "") :
    (joinNames "" names).toList = ['.'].intercalate names := by
  have hhead : ∀ name : String, name ≠ "" → ∀ names,
      (joinNames "" (name.toList :: names)).toList = ['.'].intercalate (name.toList :: names) := by
    intro name hname names
    have hjoin : joinNames "" (name.toList :: names) = joinNames name names := by
      simp [joinNames, joinPath]
    rw [hjoin, SelectEntry.toList_joinNames hname]
  cases h with
  | own h => exact hhead _ (hes _ (mem_embedNames h)) []
  | inner h he => exact hhead _ (hes _ (mem_embedNames h)) _

theorem pathsAll_eq_flatMap (parent : String) (es : List SelectEntry) :
    pathsAll parent es = es.flatMap (paths parent) := by
  induction es with
  | nil => rfl
  | cons e es ih => rw [pathsAll, ih, List.flatMap_cons]

mutual

theorem exists_leads_of_mem_paths : ∀ (e : SelectEntry) {parent path : String},
    path ∈ e.paths parent →
      ∃ place names x, Leads [e] place names x ∧ path = joinNames parent names
  | .embed name spread clauses entries joins, parent, path, h => by
    have hfirst : [SelectEntry.embed name spread clauses entries joins][0]? =
        some (.embed name spread clauses entries joins) := rfl
    rcases List.mem_append.mp h with h | h
    · obtain ⟨place, names, x, hx, rfl⟩ := exists_leads_of_mem_pathsAll entries h
      exact ⟨_, _, x, .inner hfirst hx, by simp [joinNames]⟩
    · obtain rfl := List.mem_singleton.mp h
      exact ⟨_, _, _, .own hfirst, by simp [joinNames]⟩
  | .wildcard, _, _, h => by cases h
  | .column _, _, _, h => by cases h
  | .field _, _, _, h => by cases h

theorem exists_leads_of_mem_pathsAll : ∀ (es : List SelectEntry) {parent path : String},
    path ∈ pathsAll parent es →
      ∃ place names x, Leads es place names x ∧ path = joinNames parent names
  | [], _, _, h => by cases h
  | e :: es, parent, path, h => by
    rcases List.mem_append.mp h with h | h
    · obtain ⟨_, names, x, hx, hpath⟩ := exists_leads_of_mem_paths e h
      have hfirst : ∀ x ∈ [e], x ∈ e :: es := by simp
      obtain ⟨place, hx⟩ := hx.mono hfirst
      exact ⟨place, names, x, hx, hpath⟩
    · obtain ⟨_, names, x, hx, hpath⟩ := exists_leads_of_mem_pathsAll es h
      have hlater : ∀ x ∈ es, x ∈ e :: es := fun _ => List.mem_cons_of_mem e
      obtain ⟨place, hx⟩ := hx.mono hlater
      exact ⟨place, names, x, hx, hpath⟩

end

theorem Leads.mem_pathsAll (h : Leads es place names e) (parent : String) :
    joinNames parent names ∈ pathsAll parent es := by
  induction h generalizing parent with
  | own h =>
    rw [pathsAll_eq_flatMap]
    refine List.mem_flatMap.mpr ⟨_, List.mem_of_getElem? h, ?_⟩
    simp [paths, joinNames]
  | @inner es entries i name spread clauses joins place names e h he ih =>
    rw [pathsAll_eq_flatMap]
    refine List.mem_flatMap.mpr ⟨_, List.mem_of_getElem? h, List.mem_append_left _ ?_⟩
    have hjoin : joinNames parent (name.toList :: names) =
        joinNames (joinPath parent name) names := by
      simp [joinNames]
    rw [hjoin]
    exact ih _

/-- The paths that are listed are those made of names that lead to an embed. -/
theorem mem_pathsAll : path ∈ pathsAll parent es ↔
    ∃ place names e, Leads es place names e ∧ path = joinNames parent names := by
  constructor
  · exact exists_leads_of_mem_pathsAll es
  · rintro ⟨place, names, e, h, rfl⟩
    exact h.mem_pathsAll parent

end SelectEntry

end RestQuery
