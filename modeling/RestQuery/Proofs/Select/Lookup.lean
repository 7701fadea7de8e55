import RestQuery.Proofs.Select.Paths
import RestQuery.Proofs.Select.Places

/-!
# Finding embeds by their paths

An embed is found by cutting a path at its points and taking, at each level, the first embed of the
next name. Where the names of the embeds of each level are distinct, not empty and without points,
the paths at which an embed is found are those that are listed, each leads to a place of its own,
and a change of the embed at a path is a change at its place.
-/

namespace RestQuery

namespace SelectEntry

variable {change : Clauses → Clauses} {e e' : SelectEntry} {es : List SelectEntry}
  {place place' other : List Nat} {names : List (List Char)} {name : List Char}
  {path path' parent : String} {i j : Nat}

/-! ## Finding -/

/-- The first embed of a name is found, and the way goes on from it. -/
theorem findIn?_eq : findIn? name names es = (es.find? (isEmbed name)).bind (findAt? names) := by
  induction es with
  | nil => rfl
  | cons e es ih =>
    unfold findIn?
    rw [List.find?_cons]
    split
    · next h => rw [h]; rfl
    · next h => rw [Bool.eq_false_iff.mpr h, ih]

theorem exists_embed_of_findIn? (h : findIn? name names es = some e) :
    ∃ (i : Nat) (n : String) (spread : Bool) (clauses : Clauses) (entries : List SelectEntry)
      (joins : Joins), name = n.toList ∧
        es[i]? = some (.embed n spread clauses entries joins) ∧
        findAt? names (.embed n spread clauses entries joins) = some e := by
  rw [findIn?_eq] at h
  obtain ⟨first, hfirst, hat⟩ := Option.bind_eq_some_iff.mp h
  obtain ⟨i, hi⟩ := List.mem_iff_getElem?.mp (List.mem_of_find?_eq_some hfirst)
  have hname := List.find?_some hfirst
  cases first with
  | embed n =>
    have hn : n.toList = name := by simpa [isEmbed] using hname
    exact ⟨i, _, _, _, _, _, hn.symm, hi, hat⟩
  | _ => cases hname

/-- What is found is an embed that the names of the path lead to. -/
theorem exists_leads_of_findIn? (h : findIn? name names es = some e) :
    ∃ place, Leads es place (name :: names) e := by
  induction names generalizing name es with
  | nil =>
    obtain ⟨i, n, spread, clauses, entries, joins, rfl, hi, hat⟩ := exists_embed_of_findIn? h
    cases hat
    exact ⟨[i], .own hi⟩
  | cons next names ih =>
    obtain ⟨i, n, spread, clauses, entries, joins, rfl, hi, hat⟩ := exists_embed_of_findIn? h
    obtain ⟨place, he⟩ := ih hat
    exact ⟨i :: place, .inner hi he⟩

/-- In a level with distinct names the first embed of a name is the one of that name. -/
theorem EmbedsDistinct.find?_isEmbed (hes : EmbedsDistinct es) (hi : es[i]? = some e)
    (he : e.isEmbed name = true) : es.find? (isEmbed name) = some e := by
  have hsome : (es.find? (isEmbed name)).isSome = true :=
    List.find?_isSome.mpr ⟨e, List.mem_of_getElem? hi, he⟩
  obtain ⟨first, hfirst⟩ := Option.isSome_iff_exists.mp hsome
  obtain ⟨j, hj⟩ := List.mem_iff_getElem?.mp (List.mem_of_find?_eq_some hfirst)
  have hname := List.find?_some hfirst
  obtain rfl := hes.index_unique hi hj (isEmbed_iff.mp he) (isEmbed_iff.mp hname)
  rw [hfirst, ← hi, hj]

/-- Where the names of each level are distinct every embed is found. -/
theorem Leads.findIn? (h : Leads es place (name :: names) e) (hes : EachList EmbedsDistinct es) :
    findIn? name names es = some e := by
  induction names generalizing es place name with
  | nil =>
    rw [findIn?_eq]
    cases h with
    | own h =>
      rw [hes.1.find?_isEmbed h isEmbed_embed]
      rfl
    | inner _ he => exact absurd rfl he.names_ne_nil
  | cons next names ih =>
    rw [findIn?_eq]
    cases h with
    | inner h he =>
      rw [hes.1.find?_isEmbed h isEmbed_embed]
      exact ih he (hes.nested h)

/-! ## Changing -/

/-- An entry with the embed changed that a place leads to from it. -/
def changePart (change : Clauses → Clauses) : List Nat → SelectEntry → SelectEntry
  | [], e => mapClauses change e
  | i :: place, .embed name spread clauses entries joins =>
    .embed name spread clauses (entries.modify i (changePart change place)) joins
  | _ :: _, e => e

/-- A list with the embed at a place changed. -/
def changePlace (change : Clauses → Clauses) : List Nat → List SelectEntry → List SelectEntry
  | [], es => es
  | i :: place, es => es.modify i (changePart change place)

@[simp] theorem nested_mapClauses : (mapClauses change e).nested = e.nested := by cases e <;> rfl

@[simp] theorem bare_mapClauses : (mapClauses change e).bare = mapClauses change e.bare := by
  cases e <;> rfl

@[simp] theorem bare_changePart_cons : (changePart change (i :: place) e).bare = e.bare := by
  cases e <;> rfl

theorem nested_changePart_cons :
    (changePart change (i :: place) e).nested = e.nested.modify i (changePart change place) := by
  cases e with
  | embed => rfl
  | _ => exact (List.modify_nil _ _).symm

/-- An entry at `other`, without those in it, after a change at `place`. -/
def bareAfter (change : Clauses → Clauses) (place other : List Nat) (e : SelectEntry) :
    SelectEntry :=
  if other = place then mapClauses change e.bare else e.bare

theorem bare_partAt?_modify {f : SelectEntry → SelectEntry}
    (hf : ∀ e, (partAt? other (f e)).map bare =
      (partAt? other e).map (bareAfter change place other)) :
    ((es.modify i f)[j]?.bind (partAt? other)).map bare =
      (es[j]?.bind (partAt? other)).map (bareAfter change (i :: place) (j :: other)) := by
  rw [List.getElem?_modify]
  cases es[j]? with
  | none => rfl
  | some e =>
    by_cases hij : i = j
    · subst hij
      have hafter : bareAfter change (i :: place) (i :: other) = bareAfter change place other := by
        funext e
        simp [bareAfter]
      simpa [hafter] using hf e
    · have hji : ¬ j = i := Ne.symm hij
      have hafter : bareAfter change (i :: place) (j :: other) = bare := by
        funext e
        simp [bareAfter, hji]
      simp [hij, hafter]

theorem bare_partAt?_changePart : (partAt? other (changePart change place e)).map bare =
    (partAt? other e).map (bareAfter change place other) := by
  induction place generalizing other e with
  | nil =>
    cases other with
    | nil => simp [partAt?, changePart, bareAfter]
    | cons j other =>
      have hafter : bareAfter change [] (j :: other) = bare := by
        funext e
        simp [bareAfter]
      rw [changePart, partAt?, nested_mapClauses, hafter]
      rfl
  | cons i place ih =>
    cases other with
    | nil => simp [partAt?, bareAfter]
    | cons j other =>
      rw [partAt?, nested_changePart_cons, bare_partAt?_modify fun e => ih]
      rfl

/-- A change at a place changes the clauses of the embed there, and nothing of another entry. -/
theorem bare_entryAt?_changePlace (hplace : place ≠ []) :
    (entryAt? other (changePlace change place es)).map bare =
      (entryAt? other es).map (bareAfter change place other) := by
  obtain ⟨i, place, rfl⟩ := List.exists_cons_of_ne_nil hplace
  cases other with
  | nil => rfl
  | cons j other => exact bare_partAt?_modify fun e => bare_partAt?_changePart

theorem map_modify_of_eq {α : Type} {f : SelectEntry → SelectEntry} {g : SelectEntry → α}
    (h : ∀ e, g (f e) = g e) : (es.modify i f).map g = es.map g := by
  refine List.ext_getElem? fun j => ?_
  rw [List.getElem?_map, List.getElem?_map, List.getElem?_modify]
  cases es[j]? with
  | none => rfl
  | some e =>
    by_cases hij : i = j
    · simp [hij, h]
    · simp [hij]

theorem pathsAll_modify {f : SelectEntry → SelectEntry}
    (h : ∀ e, (f e).paths parent = e.paths parent) :
    pathsAll parent (es.modify i f) = pathsAll parent es := by
  rw [pathsAll_eq_flatMap, pathsAll_eq_flatMap, List.flatMap_def, List.flatMap_def,
    map_modify_of_eq h]

theorem paths_changePart : (changePart change place e).paths parent = e.paths parent := by
  induction place generalizing e parent with
  | nil => cases e <;> rfl
  | cons i place ih =>
    cases e with
    | embed => simp [changePart, paths, pathsAll_modify fun e => ih]
    | _ => rfl

/-- A change at a place leaves the paths as they are. -/
theorem pathsAll_changePlace :
    pathsAll parent (changePlace change place es) = pathsAll parent es := by
  cases place with
  | nil => rfl
  | cons i place => exact pathsAll_modify fun e => paths_changePart

theorem partAt?_changePart (h : partAt? place e = some e') :
    partAt? place (changePart change place e) = some (mapClauses change e') := by
  induction place generalizing e with
  | nil =>
    cases h
    rfl
  | cons i place ih =>
    rw [partAt?, nested_changePart_cons, List.getElem?_modify_eq]
    obtain ⟨next, hnext, hrest⟩ := Option.bind_eq_some_iff.mp h
    rw [hnext]
    exact ih hrest

theorem entryAt?_changePlace (h : entryAt? place es = some e) :
    entryAt? place (changePlace change place es) = some (mapClauses change e) := by
  cases place with
  | nil => cases h
  | cons i place =>
    rw [changePlace, entryAt?, List.getElem?_modify_eq]
    obtain ⟨first, hfirst, hrest⟩ := Option.bind_eq_some_iff.mp h
    rw [hfirst]
    exact partAt?_changePart hrest

/-- The first embed of a name is changed, as the way goes on from it. -/
theorem modifyIn?_of_first {f g : SelectEntry → SelectEntry} (hi : es[i]? = some e)
    (he : e.isEmbed name = true) (hfirst : ∀ j < i, ∀ e ∈ es[j]?, e.isEmbed name = false)
    (hat : modifyAt? f names e = some (g e)) :
    modifyIn? f name names es = some (es.modify i g) := by
  induction es generalizing i with
  | nil => cases hi
  | cons first es ih =>
    unfold modifyIn?
    cases i with
    | zero =>
      cases hi
      rw [if_pos he, hat]
      rfl
    | succ i =>
      have hnot : first.isEmbed name = false := hfirst 0 (Nat.succ_pos i) first rfl
      have hlater : ∀ j < i, ∀ e ∈ es[j]?, e.isEmbed name = false :=
        fun j hj => hfirst (j + 1) (Nat.succ_lt_succ hj)
      rw [if_neg (Bool.eq_false_iff.mp hnot), ih hi hlater]
      rfl

theorem EmbedsDistinct.first (hes : EmbedsDistinct es) (hi : es[i]? = some e)
    (he : e.isEmbed name = true) : ∀ j < i, ∀ e ∈ es[j]?, e.isEmbed name = false := by
  intro j hj e' he'
  by_contra hname
  rw [Bool.not_eq_false] at hname
  exact Nat.ne_of_lt hj (hes.index_unique hi he' (isEmbed_iff.mp he) (isEmbed_iff.mp hname))

/-- Where the names of each level are distinct, changing the embed at a path changes it at its
place. -/
theorem Leads.modifyIn? (h : Leads es place (name :: names) e) (hes : EachList EmbedsDistinct es) :
    modifyIn? (mapClauses change) name names es = some (changePlace change place es) := by
  induction names generalizing es place name with
  | nil =>
    cases h with
    | own h => exact modifyIn?_of_first h isEmbed_embed (hes.1.first h isEmbed_embed) rfl
    | inner _ he => exact absurd rfl he.names_ne_nil
  | cons next names ih =>
    cases h with
    | inner h he =>
      refine modifyIn?_of_first h isEmbed_embed (hes.1.first h isEmbed_embed) ?_
      obtain ⟨j, place, rfl⟩ := List.exists_cons_of_ne_nil he.place_ne_nil
      rw [modifyAt?, ih he (hes.nested h)]
      rfl

/-! ## Paths -/

/-- A path leads to the embed `e` at a place: it is the names on the way with points between
them. -/
def LeadsTo (es : List SelectEntry) (path : String) (place : List Nat) (e : SelectEntry) : Prop :=
  ∃ names, Leads es place names e ∧ path.toList = ['.'].intercalate names

/-- The names on the way to an embed are those that its path is taken apart into. -/
theorem Leads.splitAll_intercalate (h : Leads es place names e) (hes : EachList WithoutPoints es) :
    Text.splitAll '.' (['.'].intercalate names) = names :=
  Text.splitAll_intercalate h.names_ne_nil (h.not_mem hes)

theorem findPath?_eq_some_iff (hes : EachList NamesPlain es) :
    findPath? path es = some e ↔ ∃ place, LeadsTo es path place e := by
  have hjoined := @Text.intercalate_splitAll '.' path.toList
  unfold findPath?
  constructor
  · intro h
    split at h
    · cases h
    · next name names hsplit =>
      obtain ⟨place, hleads⟩ := exists_leads_of_findIn? h
      rw [hsplit] at hjoined
      exact ⟨place, _, hleads, hjoined.symm⟩
  · rintro ⟨place, names, hleads, hpath⟩
    rw [hpath, hleads.splitAll_intercalate (hes.mono fun _ h => h.withoutPoints)]
    obtain ⟨name, names, rfl⟩ := List.exists_cons_of_ne_nil hleads.names_ne_nil
    exact hleads.findIn? (hes.mono fun _ h => h.distinct)

/-- The paths that are listed are those that lead to an embed. -/
theorem mem_embedPaths_iff {select : Select} (hes : NamesPlain select.entries) :
    path ∈ select.embedPaths ↔ ∃ place e, LeadsTo select.entries path place e := by
  rw [Select.mem_embedPaths, mem_pathsAll]
  constructor
  · rintro ⟨place, names, e, hleads, rfl⟩
    exact ⟨place, e, names, hleads, hleads.toList_joinNames hes.nonempty⟩
  · rintro ⟨place, e, names, hleads, hpath⟩
    refine ⟨place, names, e, hleads, String.toList_inj.mp ?_⟩
    rw [hpath, hleads.toList_joinNames hes.nonempty]

/-- Each path leads to one place, and each place has one path. -/
theorem LeadsTo.path_eq_iff (h : LeadsTo es path place e) (h' : LeadsTo es path' place' e')
    (hes : EachList NamesPlain es) : path' = path ↔ place' = place := by
  obtain ⟨names, hleads, hpath⟩ := h
  obtain ⟨names', hleads', hpath'⟩ := h'
  have hpoints : EachList WithoutPoints es := hes.mono fun _ h => h.withoutPoints
  constructor
  · rintro rfl
    have hnames : names' = names := by
      rw [← hleads'.splitAll_intercalate hpoints, ← hpath', hpath,
        hleads.splitAll_intercalate hpoints]
    subst hnames
    exact hleads.place_unique hleads' (hes.mono fun _ h => h.distinct)
  · rintro rfl
    rw [← String.toList_inj, hpath, hpath', hleads.names_unique hleads']

theorem LeadsTo.modifyPath? (h : LeadsTo es path place e) (hes : EachList NamesPlain es) :
    modifyPath? (mapClauses change) path es = some (changePlace change place es) := by
  obtain ⟨names, hleads, hpath⟩ := h
  unfold SelectEntry.modifyPath?
  rw [hpath, hleads.splitAll_intercalate (hes.mono fun _ h => h.withoutPoints)]
  obtain ⟨name, names, rfl⟩ := List.exists_cons_of_ne_nil hleads.names_ne_nil
  exact hleads.modifyIn? (hes.mono fun _ h => h.distinct)

/-- Finding agrees with listing. An embed is found at the paths that are listed and at no others, it
is the one that the names in the path lead to, and different paths lead to different places.
Changing the clauses of the embed at a path changes those at its place, nothing of the entries at
other places, and no path. -/
theorem findPath?_embedPaths (select : Select) (hes : EachList NamesPlain select.entries) :
    (∀ path e, findPath? path select.entries = some e ↔
      ∃ place, LeadsTo select.entries path place e) ∧
    (∀ path, (findPath? path select.entries).isSome = true ↔ path ∈ select.embedPaths) ∧
    (∀ path path' place place' e e', LeadsTo select.entries path place e →
      LeadsTo select.entries path' place' e' → (path' = path ↔ place' = place)) ∧
    ∀ path place e, LeadsTo select.entries path place e → ∀ change, ∃ entries,
      modifyPath? (mapClauses change) path select.entries = some entries ∧
      entryAt? place select.entries = some e ∧
      entryAt? place entries = some (mapClauses change e) ∧
      (∀ other, (entryAt? other entries).map bare =
        (entryAt? other select.entries).map (bareAfter change place other)) ∧
      Select.embedPaths { select with entries } = select.embedPaths := by
  refine ⟨fun path e => findPath?_eq_some_iff hes, fun path => ?_,
    fun _ _ _ _ _ _ h h' => h.path_eq_iff h' hes, fun path place e h change => ?_⟩
  · rw [mem_embedPaths_iff hes.1, Option.isSome_iff_exists]
    simp only [findPath?_eq_some_iff hes]
    exact exists_comm
  · obtain ⟨names, hleads, -⟩ := id h
    refine ⟨_, h.modifyPath? hes, hleads.entryAt?, entryAt?_changePlace hleads.entryAt?,
      fun other => bare_entryAt?_changePlace hleads.place_ne_nil, ?_⟩
    unfold Select.embedPaths
    rw [pathsAll_changePlace]

/-- Of two embeds `films` on different levels the path `actors.films` leads to the inner one, and a
limit that is set there is set for that one alone. -/
theorem findPath?_embedPaths_nested :
    let films : SelectEntry := .embed "films" false {} [] []
    let select : Select :=
      { entries := [films, .column "actors", .embed "actors" false {} [films] []] }
    EachList NamesPlain select.entries ∧ LeadsTo select.entries "actors.films" [2, 0] films ∧
      findPath? "actors.films" select.entries = some films ∧
      (∀ path, (findPath? path select.entries).isSome = true ↔
        path ∈ ["actors", "actors.films", "films"]) ∧
      ∃ entries,
        modifyPath? (mapClauses fun c => { c with limit := some 3 }) "actors.films" select.entries =
          some entries ∧
        entryAt? [2, 0] entries = some (.embed "films" false { limit := some 3 } [] []) ∧
        (entryAt? [0] entries).map bare = some films ∧
        Select.embedPaths { select with entries } = select.embedPaths := by
  intro films select
  have hnone : NamesPlain [] := ⟨by decide, by decide, by decide⟩
  have hinner : NamesPlain [films] := ⟨by decide, by decide, by decide⟩
  have houter : NamesPlain select.entries := ⟨by decide, by decide, by decide⟩
  have hplain : EachList NamesPlain select.entries :=
    ⟨houter, ⟨hnone, trivial⟩, trivial, ⟨hinner, ⟨hnone, trivial⟩, trivial⟩, trivial⟩
  have hpaths : select.embedPaths = ["actors", "actors.films", "films"] := by decide
  have hleads : LeadsTo select.entries "actors.films" [2, 0] films :=
    ⟨_, .inner rfl (.own rfl), by decide⟩
  obtain ⟨hfinds, hlisted, -, hchange⟩ := findPath?_embedPaths select hplain
  obtain ⟨entries, hmodify, -, hthere, hothers, hsame⟩ :=
    hchange _ _ _ hleads fun c => { c with limit := some 3 }
  refine ⟨hplain, hleads, (hfinds _ _).mpr ⟨_, hleads⟩, fun path => ?_, entries, hmodify, hthere,
    hothers [0], hsame⟩
  rw [hlisted, hpaths]

end SelectEntry

end RestQuery
