import RestQuery.Proofs.Frame

/-!
# The filters of a tree

Each filter of an assembled tree is the one that was put into its level, or what is left of that
one when columns of the level belong to none of its embeds. So what all filters of a tree have can
be asked of the levels before they are finished, and of the filters of the parts.
-/

namespace RestQuery

open SelectEntry

/-- The root and each embed of a tree have a filter with the property `Q`. -/
def Ast.EachFilter (Q : Filter → Prop) (a : Ast) : Prop :=
  Q a.clauses.filter ∧ EachLevelAll (fun c _ _ => Q c.filter) (a.select.getD [])

/-- The filter that a level has once its references are checked: its own if none dangles, and
otherwise what is left of that when the columns that dangle are dropped. -/
def Clauses.checkedFilter (joins : Joins) (c : Clauses) : Filter :=
  if c.dangling joins = [] then c.filter else Filter.retain (refersTo joins) c.filter

namespace SelectEntry

variable {handling : Handling} {Q : Filter → Prop} {P : Clauses → Prop}

theorem filter_checkReferences {joins : Joins} {c c' : Clauses}
    (h : c.checkReferences handling joins = .ok c') : c'.filter = c.checkedFilter joins := by
  obtain ⟨_, -, h⟩ := bind_eq_ok.mp h
  unfold Clauses.checkedFilter
  split at h
  · next hempty =>
    cases h
    rw [if_pos (List.isEmpty_iff.mp hempty)]
  · next hempty =>
    cases h
    rw [if_neg fun hnil => hempty (List.isEmpty_iff.mpr hnil)]

mutual

theorem eachLevel_fillJoins : ∀ e : SelectEntry, e.EachLevel (fun c _ _ => P c) →
    e.fillJoins.EachLevel fun c _ _ => P c
  | .embed _ _ _ entries _, h => ⟨h.1, eachLevelAll_fillJoinsAll entries h.2⟩
  | .wildcard, _ => trivial
  | .column _, _ => trivial
  | .field _, _ => trivial

/-- Filling in joins leaves the clauses of each level as they are. -/
theorem eachLevelAll_fillJoinsAll : ∀ es : List SelectEntry,
    EachLevelAll (fun c _ _ => P c) es → EachLevelAll (fun c _ _ => P c) (fillJoinsAll es)
  | [], _ => trivial
  | e :: es, h => ⟨eachLevel_fillJoins e h.1, eachLevelAll_fillJoinsAll es h.2⟩

end

mutual

theorem eachLevel_finish_iff : ∀ e e' : SelectEntry, finish handling e = .ok e' →
    (e'.EachLevel (fun c _ _ => Q c.filter) ↔
      e.EachLevel fun c _ joins => Q (c.checkedFilter joins))
  | .embed _ _ _ entries _, _, h => by
    obtain ⟨clauses', hclauses, h⟩ := bind_eq_ok.mp h
    obtain ⟨entries', hentries, h⟩ := bind_eq_ok.mp h
    cases h
    have hfilter := filter_checkReferences hclauses
    have hnested := eachLevelAll_finishAll_iff entries entries' hentries
    unfold EachLevel
    dsimp only
    rw [hfilter, hnested]
  | .wildcard, _, h => by
    cases h
    exact Iff.rfl
  | .column _, _, h => by
    cases h
    exact Iff.rfl
  | .field _, _, h => by
    cases h
    exact Iff.rfl

/-- The filters of finished levels are those of the levels before, once their references are
checked. -/
theorem eachLevelAll_finishAll_iff : ∀ es es' : List SelectEntry, finishAll handling es = .ok es' →
    (EachLevelAll (fun c _ _ => Q c.filter) es' ↔
      EachLevelAll (fun c _ joins => Q (c.checkedFilter joins)) es)
  | [], _, h => by
    cases h
    exact Iff.rfl
  | e :: es, _, h => by
    obtain ⟨e', he, h⟩ := bind_eq_ok.mp h
    obtain ⟨rest, hrest, h⟩ := bind_eq_ok.mp h
    cases h
    exact and_congr (eachLevel_finish_iff e e' he) (eachLevelAll_finishAll_iff es rest hrest)

end

end SelectEntry

namespace Parts

variable {p : Parts} {ast : Ast} {es : List SelectEntry} {Q : Filter → Prop}

/-- The clauses of the root before its references are checked. -/
def rootClauses (p : Parts) : Clauses where
  filter := p.filters.root
  order := p.windows.root.order
  limit := p.windows.root.limit
  offset := p.windows.root.offset

/-- A level without clauses gets the filter for its path, if there is one. -/
theorem filter_place (names : List (List Char)) (hf : Keyed.Ascending p.filters.embedded) :
    (p.place names {}).filter = [] ∨
      ∃ path, (p.place names {}).filter = Filter.pushAll [] (p.filters.part [] (some path)) := by
  have hwindow : (p.place names {}).filter =
      (placeParts addFilter p.filters.embedded names {}).filter :=
    placeParts_keeps Clauses.filter fun _ _ => rfl
  rw [hwindow]
  by_cases hpath : ∃ path, pathNames path = names
  · obtain ⟨path, rfl⟩ := hpath
    have hempty : ∀ c, addFilter [] c = c := fun _ => rfl
    rw [placeParts_part hf hempty]
    exact .inr ⟨path, rfl⟩
  · rw [placeParts_of_not_mem fun part _ hpart => hpath ⟨part.1, hpart⟩]
    exact .inl rfl

/-- Each level has no filter, or that for a path, before it is finished. -/
theorem eachLevelAll_filter_entries (hp : p.SelectIsRead)
    (hf : Keyed.Ascending p.filters.embedded) (h : p.entries = .ok es) (hnil : Q [])
    (hpart : ∀ path, Q (Filter.pushAll [] (p.filters.part [] (some path)))) :
    EachLevelAll (fun c _ _ => Q c.filter) es := by
  obtain ⟨distinct, hdistinct, rfl, -, -⟩ := entries_eq_mapLevelsAll h
  obtain ⟨-, hlevels⟩ := eachLevelAll_distinctNames hp.clauses hdistinct
  refine eachLevelAll_mapLevelsAll distinct (fun names c _ _ _ _ hc => ?_) hlevels
  rw [hc.1]
  rcases filter_place names hf with hnone | ⟨path, hpath⟩
  · rw [hnone]
    exact hnil
  · rw [hpath]
    exact hpart path

/-- What all filters of an assembled tree have can be asked of the levels before they are
finished. -/
theorem eachFilter_assemble_iff (hes : p.entries = .ok es) (h : p.assemble = .ok ast) :
    ast.EachFilter Q ↔ Q (p.rootClauses.checkedFilter p.declared) ∧
      EachLevelAll (fun c _ joins => Q (c.checkedFilter joins)) (fillJoinsAll es) := by
  obtain ⟨es', root, finished, hes', hroot, hfinished, rfl⟩ := assemble_eq_ok h
  obtain rfl : es' = es := Except.ok.inj (hes'.symm.trans hes)
  have hfilter : root.filter = p.rootClauses.checkedFilter p.declared :=
    filter_checkReferences hroot
  have hentries : (p.select.map fun _ => finished).getD [] = finished := by
    cases hselect : p.select with
    | none => exact (finished_of_select_none hselect hes hfinished).symm
    | some select => rfl
  unfold Ast.EachFilter
  rw [hentries, eachLevelAll_finishAll_iff _ _ hfinished, ← hfilter]

/-- What the filters of the parts have at every depth all filters of the tree have, if it is kept by
pushing and by dropping columns. -/
theorem eachFilter_assemble {P : FilterEntry → Prop} (hpush : Filter.SurvivesPush P)
    (hretain : ∀ keep f, Filter.Each P f → Filter.Each P (Filter.retain keep f))
    (hp : p.SelectIsRead) (hf : Keyed.Ascending p.filters.embedded)
    (hpart : ∀ path, Filter.Each P (p.filters.part [] path)) (h : p.assemble = .ok ast) :
    ast.EachFilter (Filter.Each P) := by
  have hchecked (joins : Joins) (c : Clauses) (hc : Filter.Each P c.filter) :
      Filter.Each P (c.checkedFilter joins) := by
    unfold Clauses.checkedFilter
    split_ifs
    · exact hc
    · exact hretain _ _ hc
  obtain ⟨es, root, finished, hes, -, -, -⟩ := assemble_eq_ok h
  refine (eachFilter_assemble_iff hes h).mpr ⟨hchecked _ _ (hpart none), ?_⟩
  have hagain (path : String) :
      Filter.Each P (Filter.pushAll [] (p.filters.part [] (some path))) :=
    Filter.each_pushAll hpush trivial (hpart (some path))
  have hplaced : EachLevelAll (fun c _ _ => Filter.Each P c.filter) es :=
    eachLevelAll_filter_entries hp hf hes trivial hagain
  have hfilled := eachLevelAll_fillJoinsAll (P := fun c => Filter.Each P c.filter) es hplaced
  exact eachLevelAll_mono (fun c _ joins hc => hchecked joins c hc) _ hfilled

end Parts

namespace Request

/-- The list of one embed. -/
def embedSelect : Select where
  entries := [.embed "a" false {} [.column "id"] []]
  joins := [("a", { table := "a" })]

/-- A lenient request for rows with one embed. -/
theorem read_items_embed {target : String} {query : List Char} {params : Params}
    (hurl : Url.ofTarget target = .ok ⟨"/items".toList, some query⟩)
    (hparams : Params.ofQuery (some query) = params)
    (hlast : Params.last? params "select" = some "a(id)") :
    (items target).read {} = .ok (itemsContext params ["a"] .lenient, some embedSelect) := by
  have hlist : Select.parse 16 "a(id)".toList = .ok embedSelect :=
    Select.parse_eq_of_agrees (by decide +kernel)
  have hembeds : embedSelect.embedPaths = ["a"] := by decide +kernel
  rw [← hembeds]
  exact read_items hurl hparams hlast hlist

end Request

namespace Filters

/-- What is known of a lenient request for rows with one embed, with alternatives on the rows. -/
def alternatives (value : String) : Context :=
  Request.itemsContext [("select", "a(id)"), ("or", value)] ["a"] .lenient

variable {value : String} {e : FilterEntry}

theorem paramEntry_select : paramEntry (alternatives value) ("select", "a(id)") = .ok none := by
  have hkey : ParamKey.classify "select" = .reserved := by decide
  have hcall : (alternatives value).isArgument "select" "a(id)" = false := rfl
  simp only [paramEntry, hcall, hkey]
  rfl

theorem paramEntry_or
    (h : group (alternatives value) none maxGroupDepth .or false value.toList = .ok e) :
    paramEntry (alternatives value) ("or", value) = .ok (some (none, e)) := by
  have hkey : ParamKey.classify "or" = .group none false .or := by decide
  have hcall : (alternatives value).isArgument "or" value = false := rfl
  simp only [paramEntry, hcall, hkey, groupEntry]
  rw [Option.filter_none, h]
  rfl

/-- The alternatives are the filter of the rows. -/
theorem ofContext_alternatives
    (h : group (alternatives value) none maxGroupDepth .or false value.toList = .ok e) :
    routed (alternatives value) none = [e] ∧
      ofContext (alternatives value) = .ok { root := [e] } := by
  have hparams : (alternatives value).params = [("select", "a(id)"), ("or", value)] := rfl
  have hselect : paramEntry (alternatives value) ("select", "a(id)") = .ok none :=
    paramEntry_select
  have hor := paramEntry_or h
  constructor
  · unfold routed
    rw [hparams]
    simp [entryAt?, hselect, hor]
  · unfold ofContext
    rw [hparams]
    simp only [List.foldlM_cons, List.foldlM_nil, addParam, hselect, hor, ok_bind]
    rfl

/-- Alternatives of which one is a test for related rows and the other is on a column. -/
theorem group_alternatives_null :
    group (alternatives "(a.is.null,id.eq.1)") none maxGroupDepth .or false
      "(a.is.null,id.eq.1)".toList =
        .ok (.or [[.column "a" [.op (.compare .eq none) .null]],
          [.column "id" [.op (.compare .eq none) (.int 1)]]]) := by
  have hpieces : Value.splitTopLevel ',' "a.is.null,id.eq.1".toList =
      .ok ["a.is.null".toList, "id.eq.1".toList] := by
    decide +kernel
  exact (group_of_pieces rfl hpieces).trans rfl

theorem read_alternatives_null :
    (Request.items "/items?select=a(id)&or=(a.is.null,id.eq.1)").read {} =
      .ok (alternatives "(a.is.null,id.eq.1)", some Request.embedSelect) := by
  have hurl : Url.ofTarget "/items?select=a(id)&or=(a.is.null,id.eq.1)" =
      .ok ⟨"/items".toList, some "select=a(id)&or=(a.is.null,id.eq.1)".toList⟩ := by
    rfl
  have hparams : Params.ofQuery (some "select=a(id)&or=(a.is.null,id.eq.1)".toList) =
      [("select", "a(id)"), ("or", "(a.is.null,id.eq.1)")] := by
    rfl
  exact Request.read_items_embed hurl hparams rfl

end Filters

end RestQuery
