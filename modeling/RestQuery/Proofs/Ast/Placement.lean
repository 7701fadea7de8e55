import RestQuery.Proofs.Ast.Validity
import RestQuery.Select.Printer

/-!
# Strict assembly puts every part in its place

Under strict handling a select list that was read is left as it is: each part that is given for an
embed by its path is put into the one level at the address of that path, groups are derived, and
nothing else changes. The tree that strict parts make up is therefore given in closed form.
-/

namespace RestQuery

open SelectEntry

namespace SelectEntry

variable {f : List (List Char) → Clauses → Clauses} {es : List SelectEntry} {e : SelectEntry}

/-- A list without the clauses of the levels in it. -/
def withoutClausesAll (es : List SelectEntry) : List SelectEntry := mapLevelsAll (fun _ _ => {}) es

/-- A list is nothing but itself where no level in it has clauses. -/
theorem withoutClausesAll_eq_self (h : EachLevelAll (fun c _ _ => c = {}) es) :
    withoutClausesAll es = es := by
  calc withoutClausesAll es
      = mapLevelsAll (fun _ c => c) es :=
        mapLevelsAll_congr_of (P := fun c => c = {}) es h fun _ _ _ hc => hc.symm
    _ = es := mapLevelsAll_id es

/-! ## Printing -/

mutual

theorem renderEntry_mapLevels : ∀ (f : List (List Char) → Clauses → Clauses) (joins : Joins)
    (e : SelectEntry), Select.renderEntry joins (mapLevels f e) = Select.renderEntry joins e
  | _, _, .embed name _ _ entries nested => by
    rw [mapLevels, Select.renderEntry, Select.renderEntry, renderEntries_mapLevelsAll _ _ entries]
  | _, _, .wildcard => rfl
  | _, _, .column _ => rfl
  | _, _, .field _ => rfl

/-- Clauses are not printed. -/
theorem renderEntries_mapLevelsAll : ∀ (f : List (List Char) → Clauses → Clauses) (joins : Joins)
    (es : List SelectEntry),
    Select.renderEntries joins (mapLevelsAll f es) = Select.renderEntries joins es
  | _, _, [] => rfl
  | f, joins, [e] => renderEntry_mapLevels f joins e
  | f, joins, e :: e' :: es => by
    have hrest := renderEntries_mapLevelsAll f joins (e' :: es)
    rw [mapLevelsAll, mapLevelsAll, Select.renderEntries, Select.renderEntries,
      renderEntry_mapLevels f joins e, ← hrest, mapLevelsAll]

end

end SelectEntry

/-! ## The closed form -/

namespace Parts

variable {p : Parts} {ast : Ast}

/-- The select list of the parts, if there is one, was read. -/
def SelectIsRead (p : Parts) : Prop :=
  ∀ t ∈ p.select, ∃ maxDepth s, Select.parse maxDepth s = .ok t

/-- The entries of the select list. -/
def listed (p : Parts) : List SelectEntry := (p.select.map (·.entries)).getD []

/-- The joins that the select list declares. -/
def declared (p : Parts) : Joins := (p.select.map (·.joins)).getD []

/-- A select list that was read has no clauses yet, and declares the joins of each level. -/
theorem SelectIsRead.declare (hp : p.SelectIsRead) : Joins.Declare p.declared p.listed ∧
    EachLevelAll (fun c entries joins => c = {} ∧ Joins.Declare joins entries) p.listed := by
  unfold declared listed
  cases hselect : p.select with
  | none =>
    refine ⟨⟨Keyed.ascending_nil, by simp, ?_⟩, trivial⟩
    intro n j h
    cases h
  | some t =>
    obtain ⟨_, _, hread⟩ := hp t hselect
    have hw := (Select.parse_within hread).wellFormed
    exact ⟨hw.declare, eachLevelAll_of_wellFormedAll _ hw.entries⟩

theorem SelectIsRead.clauses (hp : p.SelectIsRead) :
    EachLevelAll (fun c _ _ => c = {}) p.listed :=
  eachLevelAll_mono (fun _ _ _ h => h.1) _ hp.declare.2

/-- Once groups are derived the levels of the select list have nothing but groups. -/
theorem SelectIsRead.groups (hp : p.SelectIsRead) :
    EachLevelAll (fun c _ _ => c = { group := c.group }) (withGroupsAll p.listed) :=
  eachLevelAll_withGroupsAll (fun _ _ _ _ _ hc => by rw [hc]) _ hp.clauses

/-- The entries of the select list with the groups and the parts of each level. -/
def placedEntries (p : Parts) : List SelectEntry := mapLevelsAll p.place (withGroupsAll p.listed)

/-- The tree that strict parts make up. -/
def placed (p : Parts) : Ast where
  operation := p.operation
  target := p.target
  schema := p.schema
  select := p.select.map fun _ => p.placedEntries
  joins := p.declared
  clauses := {
    filter := p.filters.root
    order := p.windows.root.order
    limit := p.windows.root.limit
    offset := p.windows.root.offset
    group := groupColumns p.listed }
  values := if p.operation.isWrite then p.values else none
  args := p.call.map (·.args)
  onConflict := p.conflict
  metadata := { p.metadata with call := p.call.map (·.style) }

theorem getD_select_placed (p : Parts) : p.placed.select.getD [] = p.placedEntries := by
  cases hselect : p.select with
  | none => simp [placed, placedEntries, listed, hselect, withGroupsAll, mapLevelsAll]
  | some t => simp [placed, hselect]

/-- There is a level for each part that is given for an embed. -/
def FindsAll (p : Parts) : Prop :=
  (∀ part ∈ p.filters.embedded, ∃ c, HasLevel p.listed (pathNames part.1) c) ∧
    ∀ part ∈ p.windows.embedded, ∃ c, HasLevel p.listed (pathNames part.1) c

/-- Joins that were declared are not added again. -/
theorem fillJoinsAll_place (hp : p.SelectIsRead) :
    levelJoins (mapLevelsAll p.place p.listed) p.declared = p.declared ∧
      fillJoinsAll (mapLevelsAll p.place p.listed) = mapLevelsAll p.place p.listed := by
  obtain ⟨hroot, hlevels⟩ := hp.declare
  constructor
  · rw [levelJoins_of_outline outline_mapLevelsAll]
    refine levelJoins_eq_self hroot.ascending fun n hn => ?_
    rw [Keyed.contains_eq_isSome]
    exact (hroot.names n).mpr hn
  · refine fillJoinsAll_eq_self _ (eachLevelAll_mapLevelsAll _ ?_ hlevels)
    rintro _ c es es' joins houtline ⟨-, hdeclare⟩
    refine ⟨hdeclare.ascending, fun n => ?_, hdeclare.wellFormed⟩
    exact (hdeclare.names n).trans (exists_embeds_of_outline houtline).symm

/-- Strict assembly of a select list that was read gives the tree in closed form, whose names are
distinct at each level. -/
theorem assemble_strict (hp : p.SelectIsRead) (hs : p.metadata.handling = .strict)
    (h : p.assemble = .ok ast) : ast = p.placed ∧ Distinct p.placedEntries ∧ p.FindsAll := by
  obtain ⟨es, root, finished, hes, hroot, hfinished, rfl⟩ := assemble_eq_ok h
  obtain ⟨distinct, hdistinct, rfl, hfilters, hwindows⟩ := entries_eq_mapLevelsAll hes
  rw [hs] at hdistinct hroot hfinished
  have hd : Distinct distinct := distinct_of_distinctNames hdistinct
  obtain rfl : distinct = p.listed := distinctNames_strict hdistinct
  obtain rfl := Clauses.checkReferences_strict hroot
  obtain ⟨hjoins, hfilled⟩ := fillJoinsAll_place hp
  unfold declared at hjoins
  -- No level has a group before, so each group is the derived one.
  have hgroups : EachLevelAll (fun c _ _ => c.group = []) (mapLevelsAll p.place p.listed) := by
    refine eachLevelAll_mapLevelsAll _ (fun _ _ _ _ _ _ hc => ?_) hp.clauses
    rw [group_place, hc]
  rw [hfilled] at hfinished
  have hentries : finished = p.placedEntries := by
    rw [finishAll_strict _ _ hgroups hfinished, withGroupsAll_mapLevelsAll _ fun _ _ _ =>
      place_withGroup]
    rfl
  refine ⟨?_, distinct_mapLevelsAll (distinct_withGroupsAll hd), hfilters, hwindows⟩
  rw [hentries, hfilled, hjoins, groupColumns_of_outline outline_mapLevelsAll]
  rfl

end Parts

/-! ## Parts in their places -/

/-- What the level at an address has of the parts that are given for embeds: the filter and the
window for its path, and nothing where there are none. -/
structure Clauses.Holds (filters : Keyed Filter) (windows : Keyed Window)
    (names : List (List Char)) (c : Clauses) : Prop where
  /-- A filter for the path of the level is the filter of the level. -/
  filter : ∀ path f, (path, f) ∈ filters → pathNames path = names →
    c.filter = Filter.pushAll [] f
  /-- A level for whose path there is no filter has none. -/
  no_filter : (∀ part ∈ filters, pathNames part.1 ≠ names) → c.filter = []
  /-- A window for the path of the level is the window of the level. -/
  window : ∀ path w, (path, w) ∈ windows → pathNames path = names →
    c.order = w.order ∧ c.limit = w.limit ∧ c.offset = w.offset
  /-- A level for whose path there is no window has none. -/
  no_window : (∀ part ∈ windows, pathNames part.1 ≠ names) →
    c.order = [] ∧ c.limit = none ∧ c.offset = none

/-- A tree is made of parts: its select list is the one that was read, with every part in the one
level that it is for. -/
structure Ast.MadeOf (a : Ast) (p : Parts) : Prop where
  /-- Without the clauses of its levels the select list is the one that was read. With it the joins
  of each level are. -/
  select : a.select.map withoutClausesAll = p.select.map (·.entries)
  /-- The joins of the root are those that were read. -/
  joins : a.joins = p.declared
  /-- The clauses of the root are the parts for the root. -/
  root : a.clauses = {
    filter := p.filters.root
    order := p.windows.root.order
    limit := p.windows.root.limit
    offset := p.windows.root.offset
    group := a.clauses.group }
  /-- There is a level at the path of each filter. -/
  filters : ∀ part ∈ p.filters.embedded, ∃ c, HasLevel (a.select.getD []) (pathNames part.1) c
  /-- There is a level at the path of each window. -/
  windows : ∀ part ∈ p.windows.embedded, ∃ c, HasLevel (a.select.getD []) (pathNames part.1) c
  /-- There is no more than one level at an address. -/
  unique : ∀ names c c', HasLevel (a.select.getD []) names c →
    HasLevel (a.select.getD []) names c' → c' = c
  /-- Each level has the parts for its path, and no others. -/
  levels : ∀ names c, HasLevel (a.select.getD []) names c →
    c.Holds p.filters.embedded p.windows.embedded names
  /-- The select list is written as the one that was read. -/
  render : ∀ t ∈ p.select, ∀ es ∈ a.select, Select.render ⟨es, a.joins⟩ = t.render

namespace Parts

variable {p : Parts} {ast : Ast} {names : List (List Char)} {c : Clauses}

/-- Where no clauses were before, a level has the parts that are put in. -/
theorem holds_place (hf : Keyed.Ascending p.filters.embedded)
    (hw : Keyed.Ascending p.windows.embedded) (group : List String) :
    (p.place names { group }).Holds p.filters.embedded p.windows.embedded names := by
  -- Filters and windows are put into different clauses, so each can be read off alone.
  have hfilter : (p.place names { group }).filter =
      (placeParts addFilter p.filters.embedded names { group }).filter :=
    placeParts_keeps Clauses.filter fun _ _ => rfl
  have hsame : p.place names { group } = placeParts addWindow p.windows.embedded names
      (placeParts addFilter p.filters.embedded names { group }) := rfl
  have horder : (placeParts addFilter p.filters.embedded names { group }).order = [] :=
    placeParts_keeps Clauses.order fun _ _ => rfl
  have hlimit : (placeParts addFilter p.filters.embedded names { group }).limit = none :=
    placeParts_keeps Clauses.limit fun _ _ => rfl
  have hoffset : (placeParts addFilter p.filters.embedded names { group }).offset = none :=
    placeParts_keeps Clauses.offset fun _ _ => rfl
  refine ⟨?_, ?_, ?_, ?_⟩
  · rintro path f hmem rfl
    rw [hfilter, placeParts_of_mem hf hmem]
    rfl
  · intro hnone
    rw [hfilter, placeParts_of_not_mem hnone]
  · rintro path w hmem rfl
    rw [hsame, placeParts_of_mem hw hmem]
    simp [addWindow, horder, hlimit, hoffset]
  · intro hnone
    rw [hsame, placeParts_of_not_mem hnone]
    exact ⟨horder, hlimit, hoffset⟩

/-- Every level of the tree in closed form has the parts that are put in where no clauses were. -/
theorem eq_place_of_hasLevel (hp : p.SelectIsRead) (h : HasLevel p.placedEntries names c) :
    ∃ group, c = p.place names { group } := by
  obtain ⟨c₀, hc₀, rfl⟩ := hasLevel_of_mapLevelsAll h
  have hc := hc₀.of_eachLevelAll (P := fun c => c = { group := c.group }) hp.groups
  exact ⟨c₀.group, by rw [← hc]⟩

theorem exists_hasLevel_placedEntries (h : ∃ c, HasLevel p.listed names c) :
    ∃ c, HasLevel p.placedEntries names c := by
  obtain ⟨c, hc⟩ := h
  obtain ⟨group, hgroup⟩ := hasLevel_withGroupsAll hc
  exact ⟨_, hasLevel_mapLevelsAll hgroup⟩

theorem withoutClausesAll_placedEntries (hp : p.SelectIsRead) :
    withoutClausesAll p.placedEntries = p.listed := by
  calc withoutClausesAll p.placedEntries
      = withoutClausesAll (withGroupsAll p.listed) := mapLevelsAll_mapLevelsAll _ _ _
    _ = withoutClausesAll p.listed := mapLevelsAll_withGroupsAll _ fun _ _ _ => rfl
    _ = p.listed := withoutClausesAll_eq_self hp.clauses

/-- Strict assembly of a select list that was read puts every part into the level that it is for,
and changes nothing else but the groups. -/
theorem madeOf_assemble (hp : p.SelectIsRead) (hs : p.metadata.handling = .strict)
    (hf : Keyed.Ascending p.filters.embedded) (hw : Keyed.Ascending p.windows.embedded)
    (h : p.assemble = .ok ast) : ast.MadeOf p := by
  obtain ⟨rfl, hdistinct, hfilters, hwindows⟩ := assemble_strict hp hs h
  have herased := withoutClausesAll_placedEntries hp
  have hentries : p.placed.select.getD [] = p.placedEntries := getD_select_placed p
  refine ⟨?_, rfl, rfl, ?_, ?_, ?_, ?_, ?_⟩
  · cases hselect : p.select with
    | none => simp [placed, hselect]
    | some t => simp [placed, hselect, herased, listed]
  · intro part hpart
    rw [hentries]
    exact exists_hasLevel_placedEntries (hfilters part hpart)
  · intro part hpart
    rw [hentries]
    exact exists_hasLevel_placedEntries (hwindows part hpart)
  · intro names c c' hc hc'
    rw [hentries] at hc hc'
    exact hc.unique hc' hdistinct
  · intro names c hc
    rw [hentries] at hc
    obtain ⟨group, rfl⟩ := eq_place_of_hasLevel hp hc
    exact holds_place hf hw group
  · intro t ht es hes
    have hselect : p.select = some t := ht
    have hlisted : p.listed = t.entries := by simp [listed, hselect]
    have hdeclared : p.declared = t.joins := by simp [declared, hselect]
    obtain rfl : p.placedEntries = es := by simpa [placed, hselect] using hes
    have hprint := renderEntries_mapLevelsAll (fun _ _ => {}) t.joins p.placedEntries
    unfold Select.render
    calc Select.renderEntries p.declared p.placedEntries
        = Select.renderEntries t.joins (withoutClausesAll p.placedEntries) := by
          rw [hdeclared]
          exact hprint.symm
      _ = Select.renderEntries t.joins t.entries := by rw [herased, hlisted]

/-- Strict parts with filters and windows for embeds, one of which stands in another. -/
def nested (select : Select) : Parts where
  operation := .query
  target := .table "items"
  schema := none
  select := some select
  filters := {
    root := [nullTest "a.k"]
    embedded := [("a", [nullTest "b.v", .not (nullTest "k")]), ("a.b", [nullTest "v"])] }
  windows := {
    root := { limit := some 2 }
    embedded := [("a.b", { order := [{ column := "v" }], offset := some 1 }),
      ("c", { limit := some 3 })] }
  metadata := { handling := .strict }
  call := none
  conflict := none
  values := none

/-- Parts for an embed, for one in it and for one beside it are put into their places. -/
theorem madeOf_assemble_nested :
    ∃ t ast, Select.parse 4 "k,a:x!inner(k,b(v.max())),c(*)".toList = .ok t ∧
      (nested t).SelectIsRead ∧ (nested t).metadata.handling = .strict ∧
      Keyed.Ascending (nested t).filters.embedded ∧ Keyed.Ascending (nested t).windows.embedded ∧
      (nested t).assemble = .ok ast ∧ ast.MadeOf (nested t) := by
  have hread : Select.parse 4 "k,a:x!inner(k,b(v.max())),c(*)".toList =
      .ok ⟨[.column "k",
          .embed "a" false {}
            [.column "k",
              .embed "b" false {}
                [.field { name := "max", column := some "v", aggregate := some .max }] []]
            [("b", { table := "b" })],
          .embed "c" false {} [.wildcard] []],
        [("a", { table := "x", type := .inner }), ("c", { table := "c" })]⟩ :=
    Select.parse_eq_of_agrees (by decide +kernel)
  have hp (t : Select) (ht : Select.parse 4 "k,a:x!inner(k,b(v.max())),c(*)".toList = .ok t) :
      (nested t).SelectIsRead := by
    rintro select ⟨⟩
    exact ⟨4, _, ht⟩
  have hf (t : Select) : Keyed.Ascending (nested t).filters.embedded := by
    simp only [nested, Keyed.Ascending]
    decide
  have hw (t : Select) : Keyed.Ascending (nested t).windows.embedded := by
    simp only [nested, Keyed.Ascending]
    decide
  refine ⟨_, _, hread, hp _ hread, rfl, hf _, hw _, rfl, ?_⟩
  exact madeOf_assemble (hp _ hread) rfl (hf _) (hw _) rfl

end Parts

end RestQuery
