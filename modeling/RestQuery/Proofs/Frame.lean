import RestQuery.Proofs.Ast.Placement
import RestQuery.Proofs.Query.Appending
import RestQuery.Proofs.Request

/-!
# A parameter changes only what it addresses

One more parameter at the end of a query takes one more step in the runs that find the filters and
the windows. Under strict handling that step changes one part for one place, and the tree in closed
form follows: one aspect of the level at that place changes, and nothing else.
-/

namespace RestQuery

open SelectEntry

variable {place : Option String} {names : List (List Char)} {c : Clauses}

/-! ## Changing one aspect of one level -/

/-- The clauses `c` with one aspect of `new`. -/
def Aspect.copy (aspect : Aspect) (new c : Clauses) : Clauses :=
  match aspect with
  | .filter => { c with filter := new.filter }
  | .clause .order => { c with order := new.order }
  | .clause .limit => { c with limit := new.limit }
  | .clause .offset => { c with offset := new.offset }

theorem Aspect.copy_withGroup (aspect : Aspect) (new : Clauses) (group : List String) :
    { aspect.copy new c with group } = aspect.copy new { c with group } := by
  cases aspect with
  | filter => rfl
  | clause word => cases word <;> rfl

/-- The tree with the clauses of the root, or of the embed at a path, changed. -/
def Ast.changeLevel (place : Option String) (change : Clauses → Clauses) (a : Ast) : Ast :=
  match place with
  | none => { a with clauses := change a.clauses }
  | some path =>
    { a with select := a.select.map (mapLevelsAll (changeOnly (pathNames path) change)) }

/-! ## Parts that are changed at one place -/

/-- A level has the part for its path put in, or the empty one where there is none. -/
theorem placeParts_part {α : Type} {changeOf : α → Clauses → Clauses} {r : Routed α} {empty : α}
    {path : String} (hr : Keyed.Ascending r.embedded) (hempty : ∀ c, changeOf empty c = c) :
    placeParts changeOf r.embedded (pathNames path) c =
      changeOf (r.part empty (some path)) c := by
  have hpart : r.part empty (some path) = (Keyed.find? r.embedded path).getD empty := rfl
  rw [hpart]
  cases hfind : Keyed.find? r.embedded path with
  | none =>
    have hnone : ∀ part ∈ r.embedded, pathNames part.1 ≠ pathNames path := by
      intro part hmem hsame
      exact Keyed.ne_of_find?_eq_none hfind part hmem (pathNames_injective hsame)
    rw [placeParts_of_not_mem hnone]
    exact (hempty c).symm
  | some x => exact placeParts_of_mem hr (Keyed.mem_of_find? hfind)

/-- Where two windows differ in one clause only, so do the clauses that they are added to. -/
theorem Windows.AgreeBut.addWindow {word : Clause} {w w' : Window} (h : AgreeBut word w w') :
    addWindow w' c = (Aspect.clause word).copy (addWindow w' c) (addWindow w c) := by
  obtain ⟨horder, hlimit, hoffset⟩ := h
  cases word with
  | order => simp_all [Aspect.copy, SelectEntry.addWindow]
  | limit => simp_all [Aspect.copy, SelectEntry.addWindow]
  | offset => simp_all [Aspect.copy, SelectEntry.addWindow]

namespace Parts

variable {p : Parts}

/-- The parts with other filters. -/
def withFilters (fs : Filters) (p : Parts) : Parts := { p with filters := fs }

/-- The parts with other windows. -/
def withWindows (ws : Windows) (p : Parts) : Parts := { p with windows := ws }

/-- Where the parts differ at one level only, the entries do. -/
theorem placedEntries_eq {p' : Parts} {aspect : Aspect} {new : Clauses} {path : String}
    (hp : p.SelectIsRead) (hlisted : p'.listed = p.listed)
    (h : ∀ names, p'.place names {} =
      changeOnly (pathNames path) (aspect.copy new) names (p.place names {})) :
    p'.placedEntries =
      mapLevelsAll (changeOnly (pathNames path) (aspect.copy new)) p.placedEntries := by
  unfold placedEntries
  rw [hlisted, mapLevelsAll_mapLevelsAll]
  refine mapLevelsAll_congr_of (P := fun c => c = { group := c.group }) _ hp.groups ?_
  -- The clauses before are nothing but a group, which is kept on both sides.
  intro names _ c hc
  have hplace (p : Parts) : p.place names c = { p.place names {} with group := c.group } := by
    rw [place_withGroup, ← hc]
  rw [hplace, hplace p, h]
  exact changeOnly_comm (fun c' => { c' with group := c.group }) (aspect.copy_withGroup new _)

/-- A tree in closed form whose entries differ at one level from those of another. -/
theorem placed_eq_changeLevel {p' : Parts} {change : Clauses → Clauses} {path : String}
    (hsame : p'.placed = { p.placed with select := p.select.map fun _ => p'.placedEntries })
    (hentries : p'.placedEntries =
      mapLevelsAll (changeOnly (pathNames path) change) p.placedEntries) :
    p'.placed = p.placed.changeLevel (some path) change := by
  have hselect : (p.select.map fun _ => p'.placedEntries) =
      p.placed.select.map (mapLevelsAll (changeOnly (pathNames path) change)) := by
    rw [hentries, placed, Option.map_map]
    rfl
  rw [hsame, hselect]
  rfl

/-- Changing the filter of one place changes the filter of its level only. -/
theorem placed_withFilters (hp : p.SelectIsRead) (hf : Keyed.Ascending p.filters.embedded)
    (place : Option String) (f : Filter → Filter) :
    ∃ new, (p.withFilters (p.filters.alter [] place f)).placed =
      p.placed.changeLevel place (Aspect.filter.copy new) := by
  cases place with
  | none => exact ⟨{ filter := f p.filters.root }, rfl⟩
  | some path =>
    have hf' : Keyed.Ascending (p.filters.alter [] (some path) f).embedded :=
      Routed.ascending_alter hf
    let new := addFilter ((p.filters.alter [] (some path) f).part [] (some path)) {}
    refine ⟨new, placed_eq_changeLevel rfl (placedEntries_eq hp rfl fun names => ?_)⟩
    unfold place withFilters
    by_cases hnames : names = pathNames path
    · -- The window is added alike to whatever the filter is.
      have hcomm (c : Clauses) :
          Aspect.filter.copy new (placeParts addWindow p.windows.embedded names c) =
            placeParts addWindow p.windows.embedded names (Aspect.filter.copy new c) :=
        placeParts_comm (Aspect.filter.copy new) fun _ _ => rfl
      have hempty : ∀ c, addFilter [] c = c := fun _ => rfl
      rw [changeOnly, if_pos hnames, hcomm, hnames, placeParts_part hf' hempty,
        placeParts_part hf hempty]
      rfl
    · rw [changeOnly, if_neg hnames]
      unfold Routed.alter
      rw [placeParts_alter (Ne.symm hnames)]

/-- Changing a clause of the window of one place changes that clause of its level only. -/
theorem placed_withWindows (hp : p.SelectIsRead) (hw : Keyed.Ascending p.windows.embedded)
    (place : Option String) (word : Clause) {f : Window → Window}
    (hfc : ∀ w, Windows.AgreeBut word w (f w)) :
    ∃ new, (p.withWindows (p.windows.alter {} place f)).placed =
      p.placed.changeLevel place ((Aspect.clause word).copy new) := by
  have hempty : ∀ c, addWindow {} c = c := by simp [addWindow]
  cases place with
  | none =>
    let w := f p.windows.root
    obtain ⟨horder, hlimit, hoffset⟩ := hfc p.windows.root
    have hplaced : (p.withWindows (p.windows.alter {} none f)).placed =
        { p.placed with clauses := { p.placed.clauses with
          order := w.order, limit := w.limit, offset := w.offset } } := rfl
    have hclauses : { p.placed.clauses with
          order := w.order, limit := w.limit, offset := w.offset } =
        (Aspect.clause word).copy { order := w.order, limit := w.limit, offset := w.offset }
          p.placed.clauses := by
      cases word with
      | order => simp_all [Aspect.copy, placed, w]
      | limit => simp_all [Aspect.copy, placed, w]
      | offset => simp_all [Aspect.copy, placed, w]
    rw [hplaced, hclauses]
    exact ⟨_, rfl⟩
  | some path =>
    have hw' : Keyed.Ascending (p.windows.alter {} (some path) f).embedded :=
      Routed.ascending_alter hw
    let filtered := placeParts addFilter p.filters.embedded (pathNames path) {}
    refine ⟨addWindow (f (p.windows.part {} (some path))) filtered,
      placed_eq_changeLevel rfl (placedEntries_eq hp rfl fun names => ?_)⟩
    unfold place withWindows
    by_cases hnames : names = pathNames path
    · rw [changeOnly, if_pos hnames, hnames, placeParts_part hw' hempty, placeParts_part hw hempty,
        Routed.part_alter hw, if_pos rfl]
      exact (hfc _).addWindow
    · rw [changeOnly, if_neg hnames]
      unfold Routed.alter
      rw [placeParts_alter (Ne.symm hnames)]

/-- What one more parameter does to a tree in closed form: the aspect that its key addresses changes
at the place that it addresses, where there is a level if the parts for all levels can be put in. -/
theorem placed_addParam {ctx : Context} {fs : Filters} {ws : Windows} {key value : String}
    {aspect : Aspect} (hp : p.SelectIsRead) (hf : Keyed.Ascending p.filters.embedded)
    (hw : Keyed.Ascending p.windows.embedded) (hs : ctx.handling = .strict)
    (hcall : ctx.isQueryCall = false)
    (haddressed : (ParamKey.classify key).addressed? (ctx.splitEmbed key).1 = some (place, aspect))
    (hfs : Filters.addParam ctx p.filters (key, value) = .ok fs)
    (hws : Windows.addParam ctx p.windows (key, value) = .ok ws) :
    (∃ new, ((p.withFilters fs).withWindows ws).placed =
        p.placed.changeLevel place (aspect.copy new)) ∧
      (((p.withFilters fs).withWindows ws).FindsAll →
        ∀ path ∈ place, ∃ c, HasLevel p.placedEntries (pathNames path) c) := by
  have hfilters := Filters.addParam_strict hs hcall hfs
  have hwindows := Windows.addParam_strict hs (ctx.splitEmbed key).1 hws
  rw [haddressed] at hfilters hwindows
  cases aspect with
  | filter =>
    obtain ⟨entry, rfl⟩ := hfilters
    obtain rfl : ws = p.windows := hwindows
    refine ⟨placed_withFilters hp hf place (Filter.push · entry), ?_⟩
    rintro ⟨hfound, -⟩ path rfl
    obtain ⟨x, hx⟩ := Routed.exists_mem_alter hf
    exact exists_hasLevel_placedEntries (hfound _ hx)
  | clause c =>
    obtain rfl : fs = p.filters := hfilters
    obtain ⟨f, hfc, rfl⟩ := hwindows
    refine ⟨placed_withWindows hp hw place c hfc, ?_⟩
    rintro ⟨-, hfound⟩ path rfl
    obtain ⟨x, hx⟩ := Routed.exists_mem_alter hw
    exact exists_hasLevel_placedEntries (hfound _ hx)

/-- A tree says the handling and the target of its parts. -/
theorem handling_assemble {ast : Ast} (h : p.assemble = .ok ast) :
    ast.metadata.handling = p.metadata.handling ∧ ast.target = p.target := by
  obtain ⟨_, _, _, -, -, -, rfl⟩ := assemble_eq_ok h
  exact ⟨rfl, rfl⟩

end Parts

/-! ## Requests -/

namespace Request

variable {config : Config} {r r' : Request} {ctx : Context} {select : Option Select}
  {p p' : Parts} {ast ast' : Ast} {key value name : String} {operation : Operation}

/-- The request `r'` is `r` with one more parameter at the end of its query. -/
structure Appends (r r' : Request) (key value : String) : Prop where
  /-- The method is the same. -/
  method : r'.method = r.method
  /-- The headers are the same. -/
  headers : r'.headers = r.headers
  /-- The body is the same. -/
  body : r'.body = r.body
  /-- The path is the same, and the query has the parameter after the others. -/
  url : ∃ path query query', Url.ofTarget r.target = .ok ⟨path, query⟩ ∧
    Url.ofTarget r'.target = .ok ⟨path, query'⟩ ∧
    Params.ofQuery query' = Params.ofQuery query ++ [(key, value)]

/-- A parameter that is no select list changes nothing else that is known of a request. -/
theorem read_append (hr : r.Appends r' key value) (hkey : key ≠ "select")
    (h : r.read config = .ok (ctx, select)) :
    r'.read config = .ok (ctx.append (key, value), select) := by
  obtain ⟨path, query, query', hurl, hurl', hparams⟩ := hr.url
  unfold read at h ⊢
  rw [hurl, ok_bind] at h
  obtain ⟨contentType, hcontentType, h⟩ := bind_eq_ok.mp h
  obtain ⟨target, htarget, h⟩ := bind_eq_ok.mp h
  obtain ⟨negotiation, hnegotiation, h⟩ := bind_eq_ok.mp h
  obtain ⟨select', hselect, h⟩ := bind_eq_ok.mp h
  obtain ⟨payload, hpayload, h⟩ := bind_eq_ok.mp h
  obtain ⟨handling, hhandling, h⟩ := bind_eq_ok.mp h
  cases h
  have hselect' : readSelect config (Params.ofQuery query') = .ok select := by
    rw [hparams]
    unfold readSelect at hselect ⊢
    rw [Params.last?_append hkey]
    exact hselect
  rw [hurl', ok_bind, hr.method, hr.headers, hr.body]
  dsimp only at hcontentType htarget hnegotiation hpayload hhandling ⊢
  rw [hcontentType, ok_bind, htarget, ok_bind, hnegotiation, ok_bind, hselect', ok_bind, hpayload,
    ok_bind, hhandling, ok_bind, hparams]
  rfl

/-- A request for a table calls no function. -/
theorem ne_rpc_of_table (htarget : ctx.target = .table name)
    (h : Operation.ofContext ctx = .ok operation) : operation ≠ .rpc := by
  have hpost : ∀ operation, Operation.ofPost ctx = .ok operation → operation ≠ .rpc := by
    intro operation h
    unfold Operation.ofPost at h
    split at h
    · cases h
      decide
    · split at h
      · cases h
        decide
      · obtain ⟨-, -, h⟩ := bind_eq_ok.mp h
        cases h
        decide
  unfold Operation.ofContext at h
  rw [htarget] at h
  cases hmethod : ctx.method with
  | post =>
    rw [hmethod] at h
    exact hpost operation h
  | _ =>
    rw [hmethod] at h
    cases h
    try decide

/-- One more parameter adds to the filters and the windows of a table, and to nothing else. -/
theorem parts_append (hkey : key ∉ ParamKey.reservedKeys) (htarget : ctx.target = .table name)
    (hp : parts ctx select = .ok p) (hp' : parts (ctx.append (key, value)) select = .ok p') :
    ∃ fs ws, p' = (p.withFilters fs).withWindows ws ∧
      Filters.addParam ctx p.filters (key, value) = .ok fs ∧
      Windows.addParam ctx p.windows (key, value) = .ok ws := by
  obtain ⟨operation, filters, windows, metadata, call, hoperation, hfilters, hwindows, hmetadata,
    hcall, rfl⟩ := parts_eq_ok.mp hp
  obtain ⟨operation', fs, ws, metadata', call', hoperation', hfs, hws, hmetadata', hcall', rfl⟩ :=
    parts_eq_ok.mp hp'
  -- The readers of reserved parameters look up their own keys, which the new one is not.
  have hcolumns : key ≠ "columns" := by
    rintro rfl
    exact hkey (by decide)
  have hconflict : key ≠ "on_conflict" := by
    rintro rfl
    exact hkey (by decide)
  have hsame : Operation.ofContext (ctx.append (key, value)) = Operation.ofContext ctx := rfl
  obtain rfl : operation' = operation := by
    rw [hsame, hoperation] at hoperation'
    exact (Except.ok.inj hoperation').symm
  have hmeta : Metadata.ofContext (ctx.append (key, value)) operation' =
      Metadata.ofContext ctx operation' := by
    have hlast : Params.last? (ctx.append (key, value)).params "columns" =
        Params.last? ctx.params "columns" := Params.last?_append hcolumns
    unfold Metadata.ofContext Metadata.addAll
    rw [hlast]
    rfl
  obtain rfl : metadata' = metadata := by
    rw [hmeta, hmetadata] at hmetadata'
    exact (Except.ok.inj hmetadata').symm
  have hnone (ctx : Context) : callOf ctx operation' = .ok none :=
    if_neg (ne_rpc_of_table htarget hoperation)
  obtain rfl : call' = call := by
    rw [hnone] at hcall hcall'
    cases hcall
    cases hcall'
    rfl
  have hconflicts : Conflict.ofContext (ctx.append (key, value)) = Conflict.ofContext ctx := by
    have hlast : Params.last? (ctx.append (key, value)).params "on_conflict" =
        Params.last? ctx.params "on_conflict" := Params.last?_append hconflict
    unfold Conflict.ofContext
    rw [hlast]
    rfl
  obtain ⟨filters', hfilters', hadd⟩ := Filters.ofContext_append hfs
  obtain ⟨windows', hwindows', hadd'⟩ := Windows.ofContext_append hws
  obtain rfl : filters' = filters := Except.ok.inj (hfilters'.symm.trans hfilters)
  obtain rfl : windows' = windows := Except.ok.inj (hwindows'.symm.trans hwindows)
  refine ⟨fs, ws, ?_, hadd, hadd'⟩
  rw [hconflicts]
  rfl

/-- The select list of a request was read, and its paths are those that are known. -/
theorem select_of_read (hread : r.read config = .ok (ctx, select)) :
    ctx.embeds = (select.map (·.embedPaths)).getD [] ∧
      ∀ t ∈ select, ∃ maxDepth s, Select.parse maxDepth s = .ok t := by
  unfold read at hread
  obtain ⟨url, -, hread⟩ := bind_eq_ok.mp hread
  obtain ⟨contentType, -, hread⟩ := bind_eq_ok.mp hread
  obtain ⟨target, -, hread⟩ := bind_eq_ok.mp hread
  obtain ⟨negotiation, -, hread⟩ := bind_eq_ok.mp hread
  obtain ⟨select', hselect, hread⟩ := bind_eq_ok.mp hread
  obtain ⟨payload, -, hread⟩ := bind_eq_ok.mp hread
  obtain ⟨handling, -, hread⟩ := bind_eq_ok.mp hread
  cases hread
  refine ⟨rfl, fun t ht => ?_⟩
  unfold readSelect at hselect
  split at hselect
  · cases hselect
    cases ht
  · split at hselect
    · next s _ t' hparse =>
      cases hselect
      cases ht
      exact ⟨_, _, hparse⟩
    · cases hselect

theorem selectIsRead (hread : r.read config = .ok (ctx, select)) (hp : parts ctx select = .ok p) :
    p.SelectIsRead :=
  fun t ht => (select_of_read hread).2 t ((select_parts hp).1 ▸ ht)

/-- The paths to embeds that are known of a request are those in its tree. -/
theorem hasEmbed_iff (hread : r.read config = .ok (ctx, select)) (hp : parts ctx select = .ok p)
    (path : String) : ctx.hasEmbed path = true ↔ path ∈ pathsAll "" p.placedEntries := by
  have hpaths : pathsAll "" p.placedEntries = pathsAll "" p.listed := by
    rw [← Parts.withoutClausesAll_placedEntries (selectIsRead hread hp)]
    exact (pathsAll_mapLevelsAll _ _ _).symm
  rw [hpaths]
  unfold Context.hasEmbed Parts.listed
  rw [(select_of_read hread).1, (select_parts hp).1, List.contains_iff_mem]
  cases select with
  | none => simp [pathsAll]
  | some t => exact Select.mem_embedPaths

theorem target_parts (hp : parts ctx select = .ok p) : p.target = ctx.target := by
  obtain ⟨_, _, _, _, _, -, -, -, -, -, rfl⟩ := parts_eq_ok.mp hp
  rfl

theorem ascending_parts (hp : parts ctx select = .ok p) :
    Keyed.Ascending p.filters.embedded ∧ Keyed.Ascending p.windows.embedded := by
  obtain ⟨_, _, _, _, _, -, hfilters, hwindows, -, -, rfl⟩ := parts_eq_ok.mp hp
  exact ⟨Filters.ascending_ofContext hfilters, Windows.ascending_ofContext hwindows⟩

/-- One more parameter of a strict request for a table, with a key that is not reserved, changes one
aspect of one level and nothing else: those that the key addresses, and they are determined. -/
theorem toAst_append (hr : r.Appends r' key value) (hkey : key ∉ ParamKey.reservedKeys)
    (h : r.toAst config = .ok ast) (h' : r'.toAst config = .ok ast')
    (htarget : ast.target = .table name) (hs : ast.metadata.handling = .strict) :
    ∃ place aspect new,
      (∀ place' aspect', Addresses (pathsAll "" (ast.select.getD [])) key place' aspect' ↔
        place' = place ∧ aspect' = aspect) ∧
      (∀ path ∈ place, ∃ c, HasLevel (ast.select.getD []) (pathNames path) c) ∧
      ast' = ast.changeLevel place (aspect.copy new) := by
  have hselect : key ≠ "select" := by
    rintro rfl
    exact hkey (by decide)
  obtain ⟨⟨ctx, select⟩, hread, -⟩ := bind_eq_ok.mp h
  rw [toAst_of_read hread] at h
  rw [toAst_of_read (read_append hr hselect hread)] at h'
  obtain ⟨p, hp, h⟩ := bind_eq_ok.mp h
  obtain ⟨p', hp', h'⟩ := bind_eq_ok.mp h'
  -- The context is strict and for a table, since the tree says what the context said.
  obtain ⟨hps, hpt⟩ := Parts.handling_assemble h
  have hctxs : ctx.handling = .strict := by rw [← (select_parts hp).2, ← hps, hs]
  have hctxt : ctx.target = .table name := by rw [← target_parts hp, ← hpt, htarget]
  have hcall : ctx.isQueryCall = false := by
    unfold Context.isQueryCall
    rw [hctxt]
    rfl
  have hlisted : p.SelectIsRead := selectIsRead hread hp
  obtain ⟨hf, hw⟩ := ascending_parts hp
  obtain ⟨fs, ws, rfl, hfs, hws⟩ := parts_append hkey hctxt hp hp'
  have hlisted' : ((p.withFilters fs).withWindows ws).SelectIsRead := hlisted
  obtain ⟨rfl, -, -⟩ := Parts.assemble_strict hlisted (hps ▸ hs) h
  obtain ⟨rfl, -, hfound⟩ := Parts.assemble_strict hlisted' (hps ▸ hs) h'
  rw [Parts.getD_select_placed]
  have hlongest : LongestPrefix (pathsAll "" p.placedEntries) key (ctx.splitEmbed key).1 :=
    Context.longestPrefix_splitEmbed (hasEmbed_iff hread hp)
  obtain ⟨place, aspect, haddressed⟩ :=
    ParamKey.exists_addressed? hkey (ctx.splitEmbed key).1
  obtain ⟨⟨new, hnew⟩, hlevel⟩ :=
    Parts.placed_addParam hlisted hf hw hctxs hcall haddressed hfs hws
  refine ⟨place, aspect, new, fun place' aspect' => ?_, hlevel hfound, hnew⟩
  rw [addresses_iff hlongest, haddressed, Option.some.injEq, Prod.mk.injEq]
  exact and_congr eq_comm eq_comm

theorem appends_items {target target' : String} {path : List Char}
    {query query' : Option (List Char)} (hurl : Url.ofTarget target = .ok ⟨path, query⟩)
    (hurl' : Url.ofTarget target' = .ok ⟨path, query'⟩)
    (hparams : Params.ofQuery query' = Params.ofQuery query ++ [(key, value)]) :
    (items target).Appends (items target') key value where
  method := rfl
  headers := rfl
  body := rfl
  url := ⟨path, query, query', hurl, hurl', hparams⟩

theorem read_items_strict {target list : String} {query : List Char} {params : Params} {t : Select}
    (hurl : Url.ofTarget target = .ok ⟨"/items".toList, some query⟩)
    (hparams : Params.ofQuery (some query) = params)
    (hlast : Params.last? params "select" = some list)
    (hlist : Select.parse 16 list.toList = .ok t) :
    (items target).read (Config.withHandling .strict {}) =
      .ok (itemsContext params t.embedPaths .strict, some t) := by
  have hleaves : (items target).LeavesHandling := by
    intro prefer hprefer
    cases hprefer
    simp
  have hlenient : (items target).read (Config.withHandling .lenient {}) =
      .ok (itemsContext params t.embedPaths .lenient, some t) :=
    read_items hurl hparams hlast hlist
  exact (read_withHandling hleaves hlenient .strict).2

/-- The list of an embed with another in it. -/
def nestedSelect : Select where
  entries := [.embed "a" false {} [.column "k", .embed "b" false {} [.column "v"] []]
    [("b", { table := "b" })]]
  joins := [("a", { table := "a" })]

/-- A condition on a column of the inner of two embeds changes the filter of one level. -/
theorem toAst_append_nested :
    ∃ ast ast' place aspect new,
      (items "/items?select=a(k,b(v))&a.k=gt.1").Appends
          (items "/items?select=a(k,b(v))&a.k=gt.1&a.b.v=gt.2") "a.b.v" "gt.2" ∧
        "a.b.v" ∉ ParamKey.reservedKeys ∧
        (items "/items?select=a(k,b(v))&a.k=gt.1").toAst (Config.withHandling .strict {}) =
          .ok ast ∧
        (items "/items?select=a(k,b(v))&a.k=gt.1&a.b.v=gt.2").toAst
          (Config.withHandling .strict {}) = .ok ast' ∧
        ast.target = .table "items" ∧ ast.metadata.handling = .strict ∧
        (∀ place' aspect', Addresses (pathsAll "" (ast.select.getD [])) "a.b.v" place' aspect' ↔
          place' = place ∧ aspect' = aspect) ∧
        (∀ path ∈ place, ∃ c, HasLevel (ast.select.getD []) (pathNames path) c) ∧
        ast' = ast.changeLevel place (aspect.copy new) := by
  have hurl : Url.ofTarget "/items?select=a(k,b(v))&a.k=gt.1" =
      .ok ⟨"/items".toList, some "select=a(k,b(v))&a.k=gt.1".toList⟩ := by
    rfl
  have hurl' : Url.ofTarget "/items?select=a(k,b(v))&a.k=gt.1&a.b.v=gt.2" =
      .ok ⟨"/items".toList, some "select=a(k,b(v))&a.k=gt.1&a.b.v=gt.2".toList⟩ := by
    rfl
  have hparams : Params.ofQuery (some "select=a(k,b(v))&a.k=gt.1".toList) =
      [("select", "a(k,b(v))"), ("a.k", "gt.1")] := by
    rfl
  have hparams' : Params.ofQuery (some "select=a(k,b(v))&a.k=gt.1&a.b.v=gt.2".toList) =
      [("select", "a(k,b(v))"), ("a.k", "gt.1"), ("a.b.v", "gt.2")] := by
    rfl
  have hlist : Select.parse 16 "a(k,b(v))".toList = .ok nestedSelect :=
    Select.parse_eq_of_agrees (by decide +kernel)
  have happends : (items "/items?select=a(k,b(v))&a.k=gt.1").Appends
      (items "/items?select=a(k,b(v))&a.k=gt.1&a.b.v=gt.2") "a.b.v" "gt.2" :=
    appends_items hurl hurl' (by rw [hparams, hparams']; rfl)
  have hread := read_items_strict hurl hparams rfl hlist
  have hread' := read_items_strict hurl' hparams' rfl hlist
  have hembeds : nestedSelect.embedPaths = ["a", "a.b"] := by decide +kernel
  rw [hembeds] at hread hread'
  have hok : (parts (itemsContext [("select", "a(k,b(v))"), ("a.k", "gt.1")] ["a", "a.b"] .strict)
      (some nestedSelect) >>= Parts.assemble).isOk = true := by
    decide +kernel
  have hok' : (parts (itemsContext [("select", "a(k,b(v))"), ("a.k", "gt.1"), ("a.b.v", "gt.2")]
      ["a", "a.b"] .strict) (some nestedSelect) >>= Parts.assemble).isOk = true := by
    decide +kernel
  obtain ⟨ast, h⟩ := exists_eq_ok hok
  obtain ⟨ast', h'⟩ := exists_eq_ok hok'
  obtain ⟨p, hp, hassemble⟩ := bind_eq_ok.mp h
  obtain ⟨hps, hpt⟩ := Parts.handling_assemble hassemble
  have htarget : ast.target = .table "items" := by
    rw [hpt, target_parts hp]
    rfl
  have hs : ast.metadata.handling = .strict := by
    rw [hps, (select_parts hp).2]
    rfl
  rw [← toAst_of_read hread] at h
  rw [← toAst_of_read hread'] at h'
  have hkey : "a.b.v" ∉ ParamKey.reservedKeys := by decide
  obtain ⟨place, aspect, new, hchange⟩ := toAst_append happends hkey h h' htarget hs
  exact ⟨ast, ast', place, aspect, new, happends, hkey, h, h', htarget, hs, hchange⟩

end Request

end RestQuery
