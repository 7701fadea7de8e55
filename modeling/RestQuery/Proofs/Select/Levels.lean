import Mathlib.Data.List.Basic
import Mathlib.Data.List.Pairwise
import RestQuery.Proofs.Select.WellFormed
import RestQuery.Proofs.Text.Splitting

/-!
# The levels of a select list

Every embed of a select list is a level of its own, with clauses, entries and joins. A level is
addressed by the names on the way to it. Where the names of each level are distinct, changing the
embed at a path changes the clauses at its address and no others.
-/

namespace RestQuery

theorem mem_insertAscending {s t : String} {texts : List String} :
    t ∈ insertAscending s texts ↔ t = s ∨ t ∈ texts := by
  induction texts with
  | nil => simp [insertAscending]
  | cons u texts ih =>
    unfold insertAscending
    split
    · next hsu =>
      rw [hsu, List.mem_cons, or_self_left]
    · split
      · exact List.mem_cons
      · rw [List.mem_cons, ih, List.mem_cons]
        exact or_left_comm

/-- The paths that are listed for a select list are those to its embeds. -/
theorem Select.mem_embedPaths {select : Select} {path : String} :
    path ∈ select.embedPaths ↔ path ∈ SelectEntry.pathsAll "" select.entries := by
  unfold embedPaths
  induction SelectEntry.pathsAll "" select.entries with
  | nil => simp
  | cons first paths ih => rw [List.foldr_cons, mem_insertAscending, ih, List.mem_cons]

/-- The names on the way to the embed at a path. -/
def pathNames (path : String) : List (List Char) := Text.splitAll '.' path.toList

theorem pathNames_injective {path path' : String} (h : pathNames path = pathNames path') :
    path = path' := String.toList_inj.mp (Text.splitAll_injective h)

namespace SelectEntry

variable {f g : List (List Char) → Clauses → Clauses} {change : Clauses → Clauses}
  {P Q : Clauses → List SelectEntry → Joins → Prop} {e e' : SelectEntry}
  {es es' : List SelectEntry} {names : List (List Char)} {c : Clauses}

/-! ## Outlines -/

/-- An entry as the level that it stands in sees it: an embed without what belongs to its own
level. -/
def outline : SelectEntry → SelectEntry
  | .embed name spread _ _ _ => .embed name spread {} [] []
  | e => e

@[simp] theorem name?_outline : (outline e).name? = e.name? := by cases e <;> rfl

@[simp] theorem isAggregate_outline : (outline e).isAggregate = e.isAggregate := by cases e <;> rfl

@[simp] theorem sourceColumn?_outline : (outline e).sourceColumn? = e.sourceColumn? := by
  cases e <;> rfl

theorem embeds_outline {name : String} : (outline e).Embeds name ↔ e.Embeds name := by
  cases e <;> simp [Embeds, outline]

theorem filterMap_name?_of_outline (h : es'.map outline = es.map outline) :
    es'.filterMap name? = es.filterMap name? := by
  have hmap (es : List SelectEntry) : (es.map outline).filterMap name? = es.filterMap name? := by
    rw [List.filterMap_map]
    exact List.filterMap_congr fun e _ => name?_outline
  rw [← hmap es', h, hmap]

theorem exists_embeds_of_outline {name : String} (h : es'.map outline = es.map outline) :
    (∃ e ∈ es', e.Embeds name) ↔ ∃ e ∈ es, e.Embeds name := by
  have hmap (es : List SelectEntry) : (∃ e ∈ es, e.Embeds name) ↔
      ∃ e ∈ es.map outline, e.Embeds name := by
    simp [embeds_outline]
  rw [hmap es', h, ← hmap]

/-! ## Properties of each level -/

mutual

/-- Whether each level in an entry has the property `P`. -/
def EachLevel (P : Clauses → List SelectEntry → Joins → Prop) : SelectEntry → Prop
  | .embed _ _ clauses entries joins => P clauses entries joins ∧ EachLevelAll P entries
  | _ => True

/-- Whether each level in a list, its own apart, has the property `P`. -/
def EachLevelAll (P : Clauses → List SelectEntry → Joins → Prop) : List SelectEntry → Prop
  | [] => True
  | e :: rest => e.EachLevel P ∧ EachLevelAll P rest

end

theorem eachLevelAll_iff : EachLevelAll P es ↔ ∀ e ∈ es, e.EachLevel P := by
  induction es with
  | nil => simp [EachLevelAll]
  | cons e es ih => simp [EachLevelAll, ih]

mutual

theorem eachLevel_mono (hPQ : ∀ c entries joins, P c entries joins → Q c entries joins) :
    ∀ e : SelectEntry, e.EachLevel P → e.EachLevel Q
  | .embed _ _ _ entries _, h => ⟨hPQ _ _ _ h.1, eachLevelAll_mono hPQ entries h.2⟩
  | .wildcard, _ => trivial
  | .column _, _ => trivial
  | .field _, _ => trivial

theorem eachLevelAll_mono (hPQ : ∀ c entries joins, P c entries joins → Q c entries joins) :
    ∀ es : List SelectEntry, EachLevelAll P es → EachLevelAll Q es
  | [], _ => trivial
  | e :: es, h => ⟨eachLevel_mono hPQ e h.1, eachLevelAll_mono hPQ es h.2⟩

end

mutual

theorem eachLevel_of_forall (hP : ∀ c entries joins, P c entries joins) :
    ∀ e : SelectEntry, e.EachLevel P
  | .embed _ _ _ entries _ => ⟨hP _ _ _, eachLevelAll_of_forall hP entries⟩
  | .wildcard => trivial
  | .column _ => trivial
  | .field _ => trivial

theorem eachLevelAll_of_forall (hP : ∀ c entries joins, P c entries joins) :
    ∀ es : List SelectEntry, EachLevelAll P es
  | [] => trivial
  | e :: es => ⟨eachLevel_of_forall hP e, eachLevelAll_of_forall hP es⟩

end

/-- The names of a level are distinct. -/
def NamesDistinct (entries : List SelectEntry) : Prop := (entries.filterMap name?).Nodup

/-- The names of a list and of each level in it are distinct. -/
def Distinct (entries : List SelectEntry) : Prop :=
  NamesDistinct entries ∧ EachLevelAll (fun _ entries _ => NamesDistinct entries) entries

theorem Distinct.tail (h : Distinct (e :: es)) : Distinct es := by
  refine ⟨?_, h.2.2⟩
  have hnames := h.1
  unfold NamesDistinct at hnames ⊢
  rw [List.filterMap_cons] at hnames
  split at hnames
  · exact hnames
  · exact (List.nodup_cons.mp hnames).2

/-! ## Changing the clauses of each level -/

mutual

/-- An entry with the clauses of each level in it changed by `f`, which is told the address. -/
def mapLevels (f : List (List Char) → Clauses → Clauses) : SelectEntry → SelectEntry
  | .embed name spread clauses entries joins =>
    .embed name spread (f [name.toList] clauses)
      (mapLevelsAll (fun names => f (name.toList :: names)) entries) joins
  | e => e

/-- A list with the clauses of each level in it changed by `f`, which is told the address. -/
def mapLevelsAll (f : List (List Char) → Clauses → Clauses) : List SelectEntry → List SelectEntry
  | [] => []
  | e :: rest => mapLevels f e :: mapLevelsAll f rest

end

theorem mapLevelsAll_eq_map : mapLevelsAll f es = es.map (mapLevels f) := by
  induction es with
  | nil => rfl
  | cons e es ih => rw [mapLevelsAll, ih, List.map_cons]

@[simp] theorem outline_mapLevels : outline (mapLevels f e) = outline e := by cases e <;> rfl

theorem outline_mapLevelsAll : (mapLevelsAll f es).map outline = es.map outline := by
  rw [mapLevelsAll_eq_map, List.map_map]
  exact List.map_congr_left fun e _ => outline_mapLevels

mutual

theorem mapLevels_congr_of {P : Clauses → Prop} : ∀ {f g : List (List Char) → Clauses → Clauses}
    (e : SelectEntry), e.EachLevel (fun c _ _ => P c) →
      (∀ names ≠ [], ∀ c, P c → f names c = g names c) → mapLevels f e = mapLevels g e
  | f, g, .embed name _ clauses entries _, he, h => by
    have hclauses : f [name.toList] clauses = g [name.toList] clauses := h _ (by simp) _ he.1
    have hentries := mapLevelsAll_congr_of entries he.2
      fun names _ => h (name.toList :: names) (List.cons_ne_nil _ _)
    rw [mapLevels, mapLevels, hclauses, hentries]
  | _, _, .wildcard, _, _ => rfl
  | _, _, .column _, _, _ => rfl
  | _, _, .field _, _, _ => rfl

/-- Changes that agree at every address, on the clauses that there are, have the same result. -/
theorem mapLevelsAll_congr_of {P : Clauses → Prop} : ∀ {f g : List (List Char) → Clauses → Clauses}
    (es : List SelectEntry), EachLevelAll (fun c _ _ => P c) es →
      (∀ names ≠ [], ∀ c, P c → f names c = g names c) → mapLevelsAll f es = mapLevelsAll g es
  | _, _, [], _, _ => rfl
  | _, _, e :: es, hes, h => by
    rw [mapLevelsAll, mapLevelsAll, mapLevels_congr_of e hes.1 h, mapLevelsAll_congr_of es hes.2 h]

end

theorem mapLevelsAll_congr (es : List SelectEntry)
    (h : ∀ names ≠ [], ∀ c, f names c = g names c) : mapLevelsAll f es = mapLevelsAll g es :=
  mapLevelsAll_congr_of (P := fun _ => True) es (eachLevelAll_of_forall (by simp) es)
    fun names hnames c _ => h names hnames c

mutual

theorem mapLevels_id : ∀ e : SelectEntry, mapLevels (fun _ c => c) e = e
  | .embed _ _ _ entries _ => by rw [mapLevels, mapLevelsAll_id entries]
  | .wildcard => rfl
  | .column _ => rfl
  | .field _ => rfl

theorem mapLevelsAll_id : ∀ es : List SelectEntry, mapLevelsAll (fun _ c => c) es = es
  | [] => rfl
  | e :: es => by rw [mapLevelsAll, mapLevels_id e, mapLevelsAll_id es]

end

mutual

theorem mapLevels_mapLevels : ∀ (f g : List (List Char) → Clauses → Clauses) (e : SelectEntry),
    mapLevels f (mapLevels g e) = mapLevels (fun names c => f names (g names c)) e
  | _, _, .embed _ _ _ entries _ => by
    rw [mapLevels, mapLevels, mapLevels, mapLevelsAll_mapLevelsAll _ _ entries]
  | _, _, .wildcard => rfl
  | _, _, .column _ => rfl
  | _, _, .field _ => rfl

/-- Two changes one after the other are one change. -/
theorem mapLevelsAll_mapLevelsAll : ∀ (f g : List (List Char) → Clauses → Clauses)
    (es : List SelectEntry),
    mapLevelsAll f (mapLevelsAll g es) = mapLevelsAll (fun names c => f names (g names c)) es
  | _, _, [] => rfl
  | f, g, e :: es => by
    rw [mapLevelsAll, mapLevelsAll, mapLevelsAll, mapLevels_mapLevels f g e,
      mapLevelsAll_mapLevelsAll f g es]

end

mutual

theorem eachLevel_mapLevels : ∀ {f : List (List Char) → Clauses → Clauses} (e : SelectEntry),
    (∀ names c es es' js, es'.map outline = es.map outline → P c es js → Q (f names c) es' js) →
      e.EachLevel P → (mapLevels f e).EachLevel Q
  | _, .embed _ _ _ entries _, h, he =>
    ⟨h _ _ _ _ _ outline_mapLevelsAll he.1, eachLevelAll_mapLevelsAll entries (fun _ => h _) he.2⟩
  | _, .wildcard, _, _ => trivial
  | _, .column _, _, _ => trivial
  | _, .field _, _, _ => trivial

/-- What each level has after a change, if it depends on the entries as the level sees them. -/
theorem eachLevelAll_mapLevelsAll : ∀ {f : List (List Char) → Clauses → Clauses}
    (es : List SelectEntry),
    (∀ names c es es' js, es'.map outline = es.map outline → P c es js → Q (f names c) es' js) →
      EachLevelAll P es → EachLevelAll Q (mapLevelsAll f es)
  | _, [], _, _ => trivial
  | _, e :: es, h, hes => ⟨eachLevel_mapLevels e h hes.1, eachLevelAll_mapLevelsAll es h hes.2⟩

end

/-- Changing clauses leaves names as they are. -/
theorem distinct_mapLevelsAll (h : Distinct es) : Distinct (mapLevelsAll f es) := by
  refine ⟨?_, eachLevelAll_mapLevelsAll es (fun _ _ es es' _ houtline hnames => ?_) h.2⟩
  · unfold NamesDistinct
    rw [filterMap_name?_of_outline outline_mapLevelsAll]
    exact h.1
  · unfold NamesDistinct at hnames ⊢
    rwa [filterMap_name?_of_outline houtline]

mutual

theorem paths_mapLevels : ∀ (f : List (List Char) → Clauses → Clauses) (parent : String)
    (e : SelectEntry), (mapLevels f e).paths parent = e.paths parent
  | _, _, .embed _ _ _ entries _ => by
    rw [mapLevels, paths, paths, pathsAll_mapLevelsAll _ _ entries]
  | _, _, .wildcard => rfl
  | _, _, .column _ => rfl
  | _, _, .field _ => rfl

/-- Changing clauses leaves the paths to the levels as they are. -/
theorem pathsAll_mapLevelsAll : ∀ (f : List (List Char) → Clauses → Clauses) (parent : String)
    (es : List SelectEntry), pathsAll parent (mapLevelsAll f es) = pathsAll parent es
  | _, _, [] => rfl
  | f, parent, e :: es => by
    rw [mapLevelsAll, pathsAll, pathsAll, paths_mapLevels f parent e,
      pathsAll_mapLevelsAll f parent es]

end

/-! ## Levels by their address -/

/-- The list `entries` has an embed at the address `names`, with the clauses `c`. -/
inductive HasLevel : List SelectEntry → List (List Char) → Clauses → Prop where
  /-- An embed of the list is addressed by its name. -/
  | own {entries nested : List SelectEntry} {name : String} {spread : Bool} {c : Clauses}
      {joins : Joins} (h : .embed name spread c nested joins ∈ entries) :
      HasLevel entries [name.toList] c
  /-- A level in an embed of the list is addressed by the name of the embed before its address
  there. -/
  | inner {entries nested : List SelectEntry} {name : String} {spread : Bool} {clauses : Clauses}
      {joins : Joins} {names : List (List Char)} {c : Clauses}
      (h : .embed name spread clauses nested joins ∈ entries) (hc : HasLevel nested names c) :
      HasLevel entries (name.toList :: names) c

theorem HasLevel.mono (h : HasLevel es names c) (hes : ∀ e ∈ es, e ∈ es') :
    HasLevel es' names c := by
  cases h with
  | own h => exact .own (hes _ h)
  | inner h hc => exact .inner (hes _ h) hc

/-- A level of a list whose clauses are changed has the clauses changed for its address. -/
theorem hasLevel_mapLevelsAll (h : HasLevel es names c) :
    HasLevel (mapLevelsAll f es) names (f names c) := by
  induction h generalizing f with
  | own h =>
    rw [mapLevelsAll_eq_map]
    exact .own (List.mem_map_of_mem (f := mapLevels f) h)
  | inner h _ ih =>
    rw [mapLevelsAll_eq_map]
    exact .inner (List.mem_map_of_mem (f := mapLevels f) h) ih

theorem embed_of_mapLevels {name : String} {spread : Bool} {clauses : Clauses}
    {entries : List SelectEntry} {joins : Joins}
    (h : mapLevels f e = .embed name spread clauses entries joins) :
    ∃ clauses₀ entries₀, e = .embed name spread clauses₀ entries₀ joins ∧
      clauses = f [name.toList] clauses₀ ∧
      entries = mapLevelsAll (fun names => f (name.toList :: names)) entries₀ := by
  cases e with
  | embed =>
    cases h
    exact ⟨_, _, rfl, rfl, rfl⟩
  | _ => cases h

theorem hasLevel_of_mapLevelsAll (h : HasLevel (mapLevelsAll f es) names c) :
    ∃ c₀, HasLevel es names c₀ ∧ c = f names c₀ := by
  generalize hes : mapLevelsAll f es = mapped at h
  induction h generalizing f es with
  | own h =>
    rw [← hes, mapLevelsAll_eq_map] at h
    obtain ⟨e, he, hmap⟩ := List.mem_map.mp h
    obtain ⟨c₀, entries₀, rfl, rfl, -⟩ := embed_of_mapLevels hmap
    exact ⟨c₀, .own he, rfl⟩
  | inner h _ ih =>
    rw [← hes, mapLevelsAll_eq_map] at h
    obtain ⟨e, he, hmap⟩ := List.mem_map.mp h
    obtain ⟨_, entries₀, rfl, -, hnested⟩ := embed_of_mapLevels hmap
    obtain ⟨c₀, hc₀, rfl⟩ := ih hnested.symm
    exact ⟨c₀, .inner he hc₀, rfl⟩

theorem HasLevel.ne_nil (h : HasLevel es names c) : names ≠ [] := by
  cases h <;> exact List.cons_ne_nil _ _

/-- What each level has a level at an address has. -/
theorem HasLevel.of_eachLevelAll {P : Clauses → Prop} (h : HasLevel es names c)
    (hes : EachLevelAll (fun c _ _ => P c) es) : P c := by
  induction h with
  | own h => exact (eachLevelAll_iff.mp hes _ h).1
  | inner h _ ih => exact ih (eachLevelAll_iff.mp hes _ h).2

theorem eq_of_name?_eq {name : String} (hes : NamesDistinct es) (he : e ∈ es) (he' : e' ∈ es)
    (hname : e.name? = some name) (hname' : e'.name? = some name) : e = e' := by
  unfold NamesDistinct at hes
  rw [List.nodup_iff_pairwise_ne, List.pairwise_filterMap] at hes
  by_contra hne
  have hsymm : Std.Symm fun e e' : SelectEntry =>
      ∀ n, e.name? = some n → ∀ n', e'.name? = some n' → n ≠ n' :=
    ⟨fun e e' h n hn n' hn' => (h n' hn' n hn).symm⟩
  exact hes.forall he he' hne name hname name hname' rfl

/-- Where the names of each level are distinct there is one level at an address. -/
theorem HasLevel.unique {c' : Clauses} (h : HasLevel es names c) (h' : HasLevel es names c')
    (hes : Distinct es) : c' = c := by
  -- By the way to the one level; at each name the other has to take the same embed.
  induction h with
  | @own entries nested name spread c joins h =>
    generalize hnames : [name.toList] = names' at h'
    cases h' with
    | own h' =>
      have hsame := String.toList_inj.mp (List.cons.inj hnames).1
      cases eq_of_name?_eq hes.1 h h' rfl (by rw [hsame]; rfl)
      rfl
    | inner _ hc' => exact absurd (List.cons.inj hnames).2.symm hc'.ne_nil
  | @inner entries nested name spread clauses joins names c h hc ih =>
    generalize hnames : name.toList :: names = names' at h'
    cases h' with
    | own => exact absurd (List.cons.inj hnames).2 hc.ne_nil
    | inner h' hc' =>
      have hsame := String.toList_inj.mp (List.cons.inj hnames).1
      cases eq_of_name?_eq hes.1 h h' rfl (by rw [hsame]; rfl)
      have hnested := eachLevelAll_iff.mp hes.2 _ h
      exact ih ((List.cons.inj hnames).2 ▸ hc') hnested

/-! ## Changing one level -/

/-- Changes the clauses at one address. -/
def changeOnly (place : List (List Char)) (change : Clauses → Clauses)
    (names : List (List Char)) (c : Clauses) : Clauses :=
  if names = place then change c else c

/-- What may be done before or after the change may be done before or after it at one address. -/
theorem changeOnly_comm {place : List (List Char)} (f : Clauses → Clauses)
    (h : f (change c) = change (f c)) :
    f (changeOnly place change names c) = changeOnly place change names (f c) := by
  unfold changeOnly
  split
  · exact h
  · rfl

/-- An entry in which no address begins with the name is left as it is. -/
theorem mapLevels_changeOnly_of_not_isEmbed {name : List Char} (h : e.isEmbed name = false) :
    mapLevels (changeOnly (name :: names) change) e = e := by
  cases e with
  | embed n spread clauses entries joins =>
    have hn : n.toList ≠ name := by simpa [isEmbed] using h
    have hrest : mapLevelsAll
        (fun rest => changeOnly (name :: names) change (n.toList :: rest)) entries = entries := by
      have hid := mapLevelsAll_congr (g := fun _ c => c) entries fun rest _ c => by
        show changeOnly (name :: names) change (n.toList :: rest) c = c
        simp [changeOnly, hn]
      rw [hid, mapLevelsAll_id]
    rw [mapLevels, hrest]
    simp [changeOnly, hn]
  | _ => rfl

theorem mapLevelsAll_changeOnly_of_not_isEmbed {name : List Char}
    (h : ∀ e ∈ es, e.isEmbed name = false) :
    mapLevelsAll (changeOnly (name :: names) change) es = es := by
  rw [mapLevelsAll_eq_map]
  calc es.map (mapLevels (changeOnly (name :: names) change))
      = es.map id :=
        List.map_congr_left fun e he => mapLevels_changeOnly_of_not_isEmbed (h e he)
    _ = es := List.map_id es

/-- The embed of a name is the only entry of that name. -/
theorem not_isEmbed_of_namesDistinct {name : List Char} (h : NamesDistinct (e :: es))
    (he : e.isEmbed name = true) : ∀ e' ∈ es, e'.isEmbed name = false := by
  intro e' he'
  rw [Bool.eq_false_iff]
  intro hsame
  have hname : ∀ e : SelectEntry, e.isEmbed name = true → e.name? = some (.ofList name) := by
    intro e he
    cases e with
    | embed n =>
      have hn : n.toList = name := by simpa [isEmbed] using he
      rw [← hn, String.ofList_toList]
      rfl
    | _ => cases he
  unfold NamesDistinct at h
  rw [List.filterMap_cons, hname e he] at h
  have hmem : String.ofList name ∈ es.filterMap name? :=
    List.mem_filterMap.mpr ⟨e', he', hname e' hsame⟩
  exact (List.nodup_cons.mp h).1 hmem

mutual

theorem modifyAt?_eq_mapLevels : ∀ (names : List (List Char)) (e : SelectEntry) (e' : SelectEntry)
    (name : List Char), e.isEmbed name = true →
      e.EachLevel (fun _ entries _ => NamesDistinct entries) →
      modifyAt? (mapClauses change) names e = some e' →
      e' = mapLevels (changeOnly (name :: names) change) e ∧ ∃ c, HasLevel [e] (name :: names) c
  | [], .embed n spread clauses entries joins, e', name, hname, _, h => by
    have hn : n.toList = name := by simpa [isEmbed] using hname
    subst hn
    cases h
    have hrest : mapLevelsAll
        (fun rest => changeOnly [n.toList] change (n.toList :: rest)) entries = entries := by
      have hid := mapLevelsAll_congr (g := fun _ c => c) entries fun rest hrest c => by
        show changeOnly [n.toList] change (n.toList :: rest) c = c
        simp [changeOnly, hrest]
      rw [hid, mapLevelsAll_id]
    refine ⟨?_, clauses, .own (List.mem_singleton_self _)⟩
    rw [mapLevels, hrest]
    simp [changeOnly, mapClauses]
  | next :: rest, .embed n spread clauses entries joins, e', name, hname, hd, h => by
    have hn : n.toList = name := by simpa [isEmbed] using hname
    subst hn
    obtain ⟨entries', hentries, rfl⟩ := Option.map_eq_some_iff.mp h
    obtain ⟨rfl, c, hc⟩ := modifyIn?_eq_mapLevelsAll rest entries entries' next hd hentries
    have hrest : mapLevelsAll
        (fun names => changeOnly (n.toList :: next :: rest) change (n.toList :: names)) entries =
          mapLevelsAll (changeOnly (next :: rest) change) entries :=
      mapLevelsAll_congr entries fun names _ c => by simp [changeOnly]
    refine ⟨?_, c, .inner (List.mem_singleton_self _) hc⟩
    rw [mapLevels, hrest]
    simp [changeOnly]

/-- Changing the embed at a path changes the clauses at its address only, and there is one. -/
theorem modifyIn?_eq_mapLevelsAll : ∀ (names : List (List Char)) (es es' : List SelectEntry)
    (name : List Char), Distinct es →
      modifyIn? (mapClauses change) name names es = some es' →
      es' = mapLevelsAll (changeOnly (name :: names) change) es ∧
        ∃ c, HasLevel es (name :: names) c
  | _, [], _, _, _, h => by cases h
  | names, e :: es, es', name, hd, h => by
    unfold modifyIn? at h
    split at h
    · next he =>
      obtain ⟨e', he', rfl⟩ := Option.map_eq_some_iff.mp h
      obtain ⟨rfl, c, hc⟩ := modifyAt?_eq_mapLevels names e e' name he hd.2.1 he'
      have hothers : mapLevelsAll (changeOnly (name :: names) change) es = es :=
        mapLevelsAll_changeOnly_of_not_isEmbed (not_isEmbed_of_namesDistinct hd.1 he)
      exact ⟨by rw [mapLevelsAll, hothers], c, hc.mono (by simp)⟩
    · next he =>
      obtain ⟨es'', hes, rfl⟩ := Option.map_eq_some_iff.mp h
      obtain ⟨rfl, c, hc⟩ := modifyIn?_eq_mapLevelsAll names es es'' name hd.tail hes
      have hself : mapLevels (changeOnly (name :: names) change) e = e :=
        mapLevels_changeOnly_of_not_isEmbed (Bool.eq_false_iff.mpr he)
      exact ⟨by rw [mapLevelsAll, hself], c, hc.mono fun _ => List.mem_cons_of_mem _⟩

end

end SelectEntry

end RestQuery
