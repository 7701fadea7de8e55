import RestQuery.Proofs.Ast.Filters
import RestQuery.Proofs.Filter.Filled
import RestQuery.Proofs.Query.Conditions
import RestQuery.Proofs.Query.Groups

/-!
# Combinations of nothing in a tree

Under lenient handling a condition on an embed that is no test for related rows is passed over. A
group whose conditions are all passed over combines nothing, and it stays in the tree unless columns
of its level are dropped.
-/

namespace RestQuery

open SelectEntry

namespace Filters

variable {ctx : Context} {path : Option String} {s : List Char} {cs : List (List Char)}
  {e : FilterEntry} {negated : Bool} {c : Connective} {levels : Nat} {param : String × String}

/-- A condition that is passed over: it is on an embed, and no test for related rows. -/
structure PassedOver (ctx : Context) (path : Option String) (s : List Char) : Prop where
  /-- Invalid conditions are passed over. -/
  handling : ctx.handling = .lenient
  /-- It is no group. -/
  condition : splitNegatedGroup s = none
  /-- It is cut into the name of an embed and no test. -/
  embed : ∃ column expression, splitCondition s = .ok (column, expression) ∧
    ctx.hasEmbed (columnPath path (.ofList column)) = true ∧ embedTest? expression = none

/-- A condition on a column is left out exactly if it is passed over. -/
theorem columnCondition_eq_none_iff {read : Option FilterEntry}
    (hnone : splitNegatedGroup s = none) (h : columnCondition ctx path s = .ok read) :
    read = none ↔ PassedOver ctx path s := by
  constructor
  · rintro rfl
    unfold columnCondition at h
    split at h
    · obtain ⟨e, -, he⟩ := map_eq_ok.mp h
      cases he
    · next column expression hcut =>
      dsimp only at h
      split at h
      · next hembed =>
        obtain ⟨found, hfound, he⟩ := map_eq_ok.mp h
        cases Option.map_eq_none_iff.mp he
        obtain ⟨hlenient, htest⟩ := embedPredicate_eq_none hfound
        exact ⟨hlenient, hnone, column, expression, hcut, hembed, htest⟩
      · obtain ⟨p, -, he⟩ := map_eq_ok.mp h
        cases he
  · rintro ⟨-, -, column, expression, hcut, hembed, htest⟩
    by_contra hread
    obtain ⟨e, rfl⟩ := Option.ne_none_iff_exists'.mp hread
    obtain ⟨name, p, -, hreads⟩ := columnCondition_eq_some h
    cases hreads with
    | raw _ hcut' =>
      rw [hcut] at hcut'
      cases hcut'
    | cut hcut' hexpression =>
      rw [hcut] at hcut'
      cases hcut'
      cases hexpression with
      | test _ htest' =>
        rw [htest] at htest'
        cases htest'
      | operator hembed' =>
        rw [hembed] at hembed'
        cases hembed'

/-- A condition of a group adds nothing to it exactly if it is passed over. -/
theorem ReadsAs.eq_none_iff {motive : List Char → FilterEntry → Prop} {read : Option FilterEntry}
    (h : ReadsAs ctx path motive s read) : read = none ↔ PassedOver ctx path s := by
  unfold ReadsAs at h
  split at h
  · next hnone => exact columnCondition_eq_none_iff hnone h
  · next hgroup =>
    obtain ⟨e, rfl, -⟩ := h
    refine iff_of_false (by simp) fun hpassed => ?_
    have hnone := hpassed.condition
    rw [hgroup] at hnone
    cases hnone

theorem filled_connect {entries : List FilterEntry} :
    (connect c false entries).Filled ↔ entries ≠ [] := by
  cases c <;> simp [connect, FilterEntry.Filled]

/-- The entry of a group combines something exactly if each group in it has a condition that is not
passed over. -/
theorem filled_group_iff (h : group ctx path levels c negated s = .ok e) :
    e.Each FilterEntry.Filled ↔
      ∀ cs, HasGroup s cs → ∃ condition ∈ cs, ¬ PassedOver ctx path condition := by
  refine group_induction (motive := fun s e => e.Each FilterEntry.Filled ↔
    ∀ cs, HasGroup s cs → ∃ condition ∈ cs, ¬ PassedOver ctx path condition)
    (fun s cs reads c negated hcs hreads => ?_) h
  rw [each_connect, forall_hasGroup_iff hcs]
  refine and_congr ?_ ?_
  · have hnot : (connect c true (reads.filterMap id)).Filled := by cases c <;> trivial
    have hpassed : (∀ condition ∈ cs, PassedOver ctx path condition) ↔
        ∀ read ∈ reads, read = none :=
      forall_mem_iff_of_forall₂ hreads fun s read hread => hread.eq_none_iff.symm
    have hnone : reads.filterMap id = [] ↔ ∀ read ∈ reads, read = none :=
      List.filterMap_eq_nil_iff
    rw [and_iff_right fun _ => hnot, filled_connect, ne_eq, hnone, ← hpassed]
    simp
  · refine (forall_mem_iff_of_forall₂ hreads fun condition read hread => ?_).symm
    unfold ReadsAs at hread
    split at hread
    · next hnone =>
      rw [hnone]
      refine iff_of_true (by simp) fun e he => ?_
      rw [he] at hread
      obtain ⟨name, p, rfl, -⟩ := columnCondition_eq_some hread
      trivial
    · next negated c group hgroup =>
      obtain ⟨e, rfl, he⟩ := hread
      rw [hgroup]
      simpa using he.symm

/-- A parameter is a group, on the root or on the embed at `path`, of which all conditions are
passed over, or one has such a group in it. -/
def EmptiesGroup (ctx : Context) (path : Option String) (param : String × String) : Prop :=
  ∃ negated c cs, ParamKey.classify param.1 = .group path negated c ∧
    HasGroup param.2.toList cs ∧ ∀ s ∈ cs, PassedOver ctx path s

theorem filled_paramEntry (hread : paramEntry ctx param = .ok (some (path, e)))
    (hnone : ¬ EmptiesGroup ctx path param) : e.Each FilterEntry.Filled := by
  obtain ⟨key, value⟩ := param
  rcases paramEntry_eq_some hread with ⟨_, -, hcolumn⟩ | ⟨negated, c, hkey, hgroup⟩
  · obtain ⟨-, p, rfl, -⟩ := columnEntry_eq_some hcolumn
    trivial
  · refine (filled_group_iff hgroup).mpr fun cs hin => ?_
    by_contra hall
    push Not at hall
    exact hnone ⟨negated, c, cs, hkey, hin, hall⟩

end Filters

namespace Request

open Filters (EmptiesGroup)

variable {config : Config} {r : Request} {ctx : Context} {select : Option Select} {p : Parts}
  {es : List SelectEntry} {ast : Ast}

theorem filled_checkedFilter_iff {joins : Joins} {c : Clauses} :
    Filter.Each FilterEntry.Filled (c.checkedFilter joins) ↔
      c.dangling joins ≠ [] ∨ Filter.Each FilterEntry.Filled c.filter := by
  unfold Clauses.checkedFilter
  split_ifs with hnil
  · simp [hnil]
  · exact iff_of_true (Filter.filled_retain c.filter) (.inl hnil)

/-- Where each group has a condition that is not passed over, no filter of the tree combines
nothing. -/
theorem filled_toAst (hread : r.read config = .ok (ctx, select)) (h : r.toAst config = .ok ast)
    (hnone : ∀ path, ∀ param ∈ ctx.params, ¬ EmptiesGroup ctx path param) :
    ast.EachFilter (Filter.Each FilterEntry.Filled) := by
  rw [toAst_of_read hread] at h
  obtain ⟨p, hp, h⟩ := bind_eq_ok.mp h
  refine Parts.eachFilter_assemble Filter.survivesPush_filled
    (fun _ f _ => Filter.filled_retain f) (selectIsRead hread hp) (ascending_parts hp).1
    (fun path => ?_) h
  obtain ⟨_, _, _, _, _, -, hfilters, -, -, -, rfl⟩ := parts_eq_ok.mp hp
  refine Filters.each_ofContext Filter.survivesPush_filled hfilters fun param hparam e he => ?_
  exact Filters.filled_paramEntry he (hnone path param hparam)

/-- Under strict handling no filter of the tree combines nothing. -/
theorem filled_toAst_strict (hread : r.read config = .ok (ctx, select))
    (h : r.toAst config = .ok ast) (hs : ctx.handling = .strict) :
    ast.EachFilter (Filter.Each FilterEntry.Filled) := by
  refine filled_toAst hread h fun path param _ ⟨_, _, cs, _, hin, hpassed⟩ => ?_
  obtain ⟨s, hmem⟩ := List.exists_mem_of_ne_nil cs hin.ne_nil
  have hlenient := (hpassed s hmem).handling
  rw [hs] at hlenient
  cases hlenient

/-- The filters of a tree combine nothing empty exactly if that holds of each level whose columns
all belong to embeds of the level. Where it does not hold, a group in the request has no conditions
but such as are passed over. -/
theorem filled_toAst_iff (hread : r.read config = .ok (ctx, select))
    (hp : parts ctx select = .ok p) (hes : p.entries = .ok es) (h : r.toAst config = .ok ast) :
    (ast.EachFilter (Filter.Each FilterEntry.Filled) ↔
      (p.rootClauses.dangling p.declared ≠ [] ∨
        Filter.Each FilterEntry.Filled p.rootClauses.filter) ∧
      EachLevelAll (fun c _ joins => c.dangling joins ≠ [] ∨
        Filter.Each FilterEntry.Filled c.filter) (fillJoinsAll es)) ∧
    (¬ ast.EachFilter (Filter.Each FilterEntry.Filled) →
      ∃ path, ∃ param ∈ ctx.params, EmptiesGroup ctx path param) := by
  constructor
  · rw [toAst_of_read hread, hp, ok_bind] at h
    rw [Parts.eachFilter_assemble_iff hes h]
    simp only [filled_checkedFilter_iff]
  · intro hnot
    by_contra hnone
    push Not at hnone
    exact hnot (filled_toAst hread h hnone)

/-- Alternatives on the rows are the only filter, and there are no windows. -/
theorem parts_alternatives {value : String} {e : FilterEntry}
    (hgroup : Filters.group (Filters.alternatives value) none Filters.maxGroupDepth .or false
      value.toList = .ok e)
    (hp : parts (Filters.alternatives value) select = .ok p) :
    p.filters = { root := [e] } ∧ p.rootClauses = { filter := [e] } := by
  obtain ⟨_, filters, windows, _, _, -, hfilters, hwindows, -, -, rfl⟩ := parts_eq_ok.mp hp
  have hfilters' := (Filters.ofContext_alternatives hgroup).2
  have hwindows' : Windows.ofContext (Filters.alternatives value) = .ok { root := {} } := rfl
  obtain rfl := Except.ok.inj (hfilters.symm.trans hfilters')
  obtain rfl := Except.ok.inj (hwindows.symm.trans hwindows')
  exact ⟨rfl, rfl⟩

/-- A group of which one condition is a test for related rows and the other is on a column. -/
theorem filled_toAst_null :
    ∃ ctx select p es ast,
      (items "/items?select=a(id)&or=(a.is.null,id.eq.1)").read {} = .ok (ctx, select) ∧
        parts ctx select = .ok p ∧ p.entries = .ok es ∧
        (items "/items?select=a(id)&or=(a.is.null,id.eq.1)").toAst {} = .ok ast ∧
        ast.EachFilter (Filter.Each FilterEntry.Filled) := by
  have hok : (parts (Filters.alternatives "(a.is.null,id.eq.1)") (some embedSelect) >>=
      Parts.assemble).isOk = true := by
    decide +kernel
  have hread := Filters.read_alternatives_null
  obtain ⟨ast, h⟩ := exists_eq_ok hok
  obtain ⟨p, hp, hassemble⟩ := bind_eq_ok.mp h
  obtain ⟨es, -, -, hes, -, -, -⟩ := Parts.assemble_eq_ok hassemble
  have h' : (items "/items?select=a(id)&or=(a.is.null,id.eq.1)").toAst {} = .ok ast := by
    rw [toAst_of_read hread]
    exact h
  obtain ⟨hfilters, hroot⟩ := parts_alternatives Filters.group_alternatives_null hp
  refine ⟨_, _, p, es, ast, hread, hp, hes, h', (filled_toAst_iff hread hp hes h').1.mpr ?_⟩
  constructor
  · rw [hroot]
    right
    simp [Filter.Each, FilterEntry.Each, Filter.EachAll, FilterEntry.Filled]
  -- There is no filter for the embed.
  · have hpart (path : String) : p.filters.part [] (some path) = [] := by rw [hfilters]; rfl
    have hlevels : EachLevelAll (fun c _ _ => Filter.Each FilterEntry.Filled c.filter) es := by
      refine Parts.eachLevelAll_filter_entries (selectIsRead hread hp) (ascending_parts hp).1 hes
        trivial fun path => ?_
      rw [hpart]
      trivial
    exact eachLevelAll_mono (fun _ _ _ => .inr) _
      (eachLevelAll_fillJoinsAll (P := fun c => Filter.Each FilterEntry.Filled c.filter) es hlevels)

/-- A group whose one condition is passed over is left with nothing. -/
theorem filled_toAst_passedOver :
    ∃ ast, (items "/items?select=a(id)&or=(a.gt.5)").toAst {} = .ok ast ∧
      ¬ ast.EachFilter (Filter.Each FilterEntry.Filled) := by
  have hurl : Url.ofTarget "/items?select=a(id)&or=(a.gt.5)" =
      .ok ⟨"/items".toList, some "select=a(id)&or=(a.gt.5)".toList⟩ := by
    rfl
  have hparams : Params.ofQuery (some "select=a(id)&or=(a.gt.5)".toList) =
      [("select", "a(id)"), ("or", "(a.gt.5)")] := by
    rfl
  have hpieces : Value.splitTopLevel ',' "a.gt.5".toList = .ok ["a.gt.5".toList] := by
    decide +kernel
  have hgroup : Filters.group (Filters.alternatives "(a.gt.5)") none Filters.maxGroupDepth .or false
      "(a.gt.5)".toList = .ok (.or []) :=
    (Filters.group_of_pieces rfl hpieces).trans rfl
  have hok : (parts (Filters.alternatives "(a.gt.5)") (some embedSelect) >>=
      Parts.assemble).isOk = true := by
    decide +kernel
  have hread := read_items_embed hurl hparams rfl
  obtain ⟨ast, h⟩ := exists_eq_ok hok
  refine ⟨ast, ?_, fun hfilled => ?_⟩
  · rw [toAst_of_read hread]
    exact h
  · obtain ⟨p, hp, h⟩ := bind_eq_ok.mp h
    obtain ⟨es, -, -, hes, -, -, -⟩ := Parts.assemble_eq_ok h
    have hroot := ((Parts.eachFilter_assemble_iff hes h).mp hfilled).1
    rw [(parts_alternatives hgroup hp).2] at hroot
    exact hroot.1.1.1 rfl

end Request

end RestQuery
