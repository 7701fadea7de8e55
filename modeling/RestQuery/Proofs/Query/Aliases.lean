import RestQuery.Proofs.Ast.Filters
import RestQuery.Proofs.Query.Addressing
import RestQuery.Proofs.Query.Conditions
import RestQuery.Proofs.Query.Groups

/-!
# Conditions on embeds

The name of an embed stands for a test whether rows are related, and so the terms on it should be
such tests and nothing else. A parameter and a condition that is cut in two keep to this. A
condition that cannot be cut in two is kept as it is under lenient handling, even if it begins with
the name of an embed: these conditions are the only way in which other terms get there.
-/

namespace RestQuery

namespace Filters

variable {ctx : Context} {fs : Filters} {path place : Option String} {s : List Char}
  {e : FilterEntry} {p : Predicate} {dotted key value : String} {param : String × String}

/-- A term tests whether rows are related. -/
def IsExistenceTest (t : Term) : Prop :=
  t = .op (.compare .eq none) .null ∨ t = .op (.compare .neq none) .null

/-- A term on an embed of the root or of the embed at `path` tests whether rows are related. -/
def TestsEmbeds (ctx : Context) (path : Option String) (name : String) (t : Term) : Prop :=
  ctx.hasEmbed (columnPath path name) = true → IsExistenceTest t

/-- A condition in a group on the root or on the embed at `path` is kept as it is, and it begins
with the name of an embed. -/
structure KeepsAlias (ctx : Context) (path : Option String) (s : List Char) : Prop where
  /-- Invalid conditions are passed over. -/
  handling : ctx.handling = .lenient
  /-- It is no group. -/
  condition : splitNegatedGroup s = none
  /-- It cannot be cut in two. -/
  cut : ∃ fault, splitCondition s = .error fault
  /-- There is a name at its front. -/
  name : leadingName s ≠ []
  /-- The name is that of an embed. -/
  embed : ctx.hasEmbed (columnPath path (.ofList (leadingName s))) = true

/-- A parameter is a group, on the root or on the embed at `path`, that keeps a condition on an
embed as it is, in itself or in a group in it. -/
def KeepsAliasIn (ctx : Context) (path : Option String) (param : String × String) : Prop :=
  ∃ negated c cs s, ParamKey.classify param.1 = .group path negated c ∧
    HasGroup param.2.toList cs ∧ s ∈ cs ∧ KeepsAlias ctx path s

theorem ReadsExpression.isExistenceTest (hread : ReadsExpression ctx dotted s p)
    (hembed : ctx.hasEmbed dotted = true) : ∀ t ∈ p, IsExistenceTest t := by
  cases hread with
  | test _ htest =>
    intro t ht
    cases List.mem_singleton.mp ht
    rcases eq_or_neq_of_embedTest? htest with rfl | rfl
    · exact .inl rfl
    · exact .inr rfl
  | operator hnone _ =>
    rw [hembed] at hnone
    cases hnone

/-- The terms of a condition on a column are tests where they are on an embed, unless it is kept as
it is. -/
theorem addsOnly_testsEmbeds_iff :
    AddsOnly ctx path (TestsEmbeds ctx path) s ↔ ¬ KeepsAlias ctx path s := by
  constructor
  · intro hadds hkeeps
    obtain ⟨fault, hcut⟩ := hkeeps.cut
    obtain ⟨rest, hkept⟩ : ∃ rest, columnCondition ctx path s =
        .ok (some (.column (.ofList (leadingName s))
          (Predicate.ofOperator .raw (.str (.ofList rest))))) :=
      columnCondition_of_error hkeeps.handling hcut hkeeps.name
    have hraw : IsExistenceTest (.op .raw (.str (.ofList rest))) :=
      hadds hkeeps.condition _ hkept _ (List.mem_singleton_self _) hkeeps.embed
    rcases hraw with h | h <;> cases h
  · intro hkeeps hnone e he
    obtain ⟨name, p, rfl, hread⟩ := columnCondition_eq_some he
    intro t ht hembed
    cases hread with
    | raw hlenient hcut hname =>
      exact absurd ⟨hlenient, hnone, ⟨_, hcut⟩, hname, hembed⟩ hkeeps
    | cut _ hread => exact hread.isExistenceTest hembed t ht

/-- The terms that a parameter stands for are tests where they are on an embed, unless it is a group
that keeps a condition on one as it is. -/
theorem each_testsEmbeds_iff (hread : paramEntry ctx param = .ok (some (path, e))) :
    e.Each (Filter.OnTerms (TestsEmbeds ctx path)) ↔ ¬ KeepsAliasIn ctx path param := by
  obtain ⟨key, value⟩ := param
  unfold KeepsAliasIn
  rcases paramEntry_eq_some hread with ⟨name, hkey, hcolumn⟩ | ⟨negated, c, hkey, hgroup⟩
  · obtain ⟨rfl, p, rfl, hp⟩ := columnEntry_eq_some hcolumn
    refine iff_of_true (fun t ht hembed => ?_) ?_
    · rw [Context.columnPath_splitEmbed] at hembed
      exact hp.isExistenceTest hembed t ht
    · rintro ⟨negated, c, cs, s, hgroup, -⟩
      rw [hkey] at hgroup
      cases hgroup
  · rw [onTerms_group hgroup]
    simp only [addsOnly_testsEmbeds_iff, hkey]
    constructor
    · rintro hall ⟨_, _, cs, s, -, hin, hs, hkeeps⟩
      exact hall cs hin s hs hkeeps
    · intro hnone cs hin s hs hkeeps
      exact hnone ⟨negated, c, cs, s, rfl, hin, hs, hkeeps⟩

/-- The terms on embeds in the filter of a place are tests exactly if no group that is kept there
keeps a condition on an embed as it is. -/
theorem testsEmbeds_ofContext_iff (h : ofContext ctx = .ok fs) (path : Option String) :
    Filter.Each (Filter.OnTerms (TestsEmbeds ctx path)) (fs.part [] path) ↔
      ∀ param ∈ ctx.params, ∀ e ∈ Filter.kept [] (routed ctx path),
        entryAt? ctx path param = some e → ¬ KeepsAliasIn ctx path param := by
  rw [part_ofContext h, Filter.each_onTerms_pushAll, and_iff_right (by trivial)]
  constructor
  · intro hall param _ e he hentry
    exact (each_testsEmbeds_iff (entryAt?_eq_some_iff.mp hentry)).mp (hall e he)
  · intro hall e he
    obtain ⟨param, hparam, hentry⟩ := List.mem_filterMap.mp (Filter.mem_of_mem_kept he)
    have hnone := hall param hparam e he hentry
    exact (each_testsEmbeds_iff (entryAt?_eq_some_iff.mp hentry)).mpr hnone

/-- A group with a test for related rows keeps no condition on an embed as it is. -/
theorem testsEmbeds_ofContext_null :
    ∃ ctx select fs, (Request.items "/items?select=a(id)&or=(a.is.null,id.eq.1)").read {} =
        .ok (ctx, select) ∧ ofContext ctx = .ok fs ∧
      Filter.Each (Filter.OnTerms (TestsEmbeds ctx none)) (fs.part [] none) := by
  obtain ⟨-, h⟩ := ofContext_alternatives group_alternatives_null
  refine ⟨_, _, _, read_alternatives_null, h, (testsEmbeds_ofContext_iff h none).mpr ?_⟩
  have hconditions : conditions? "(a.is.null,id.eq.1)".toList =
      some ["a.is.null".toList, "id.eq.1".toList] := by
    decide +kernel
  have hcut : ∀ s ∈ ["a.is.null".toList, "id.eq.1".toList],
      splitNegatedGroup s = none ∧ (splitCondition s).isOk = true := by
    decide +kernel
  have hnone : ∀ cs, HasGroup "(a.is.null,id.eq.1)".toList cs →
      ∀ s ∈ cs, ¬ KeepsAlias (alternatives "(a.is.null,id.eq.1)") none s := by
    refine (forall_hasGroup_iff hconditions).mpr ⟨fun s hs hkeeps => ?_, fun s hs _ _ _ hin => ?_⟩
    · obtain ⟨cut, hok⟩ := exists_eq_ok (hcut s hs).2
      obtain ⟨fault, herror⟩ := hkeeps.cut
      rw [hok] at herror
      cases herror
    · rw [(hcut s hs).1] at hin
      cases hin
  rintro param hparam e - - ⟨negated, c, cs, s, hkey, hin, hs, hkeeps⟩
  have hparam' : param ∈ [("select", "a(id)"), ("or", "(a.is.null,id.eq.1)")] := hparam
  rcases List.mem_cons.mp hparam' with rfl | hor
  · have hselect : ParamKey.classify "select" = .reserved := by decide
    rw [hselect] at hkey
    cases hkey
  · cases List.mem_singleton.mp hor
    exact hnone cs hin s hs hkeeps

/-- A group keeps a condition on an embed as it is. -/
theorem testsEmbeds_ofContext_raw :
    ∃ ctx select fs, (Request.items "/items?select=a(id)&or=(a.foo,id.eq.1)").read {} =
        .ok (ctx, select) ∧ ofContext ctx = .ok fs ∧
      ¬ Filter.Each (Filter.OnTerms (TestsEmbeds ctx none)) (fs.part [] none) := by
  have hurl : Url.ofTarget "/items?select=a(id)&or=(a.foo,id.eq.1)" =
      .ok ⟨"/items".toList, some "select=a(id)&or=(a.foo,id.eq.1)".toList⟩ := by
    rfl
  have hparams : Params.ofQuery (some "select=a(id)&or=(a.foo,id.eq.1)".toList) =
      [("select", "a(id)"), ("or", "(a.foo,id.eq.1)")] := by
    rfl
  have hpieces : Value.splitTopLevel ',' "a.foo,id.eq.1".toList =
      .ok ["a.foo".toList, "id.eq.1".toList] := by
    decide +kernel
  have hgroup : group (alternatives "(a.foo,id.eq.1)") none maxGroupDepth .or false
      "(a.foo,id.eq.1)".toList =
        .ok (.or [[.column "a" [.op .raw (.str "foo")]],
          [.column "id" [.op (.compare .eq none) (.int 1)]]]) :=
    (group_of_pieces rfl hpieces).trans rfl
  have hread := Request.read_items_embed hurl hparams rfl
  obtain ⟨-, h⟩ := ofContext_alternatives hgroup
  refine ⟨_, _, _, hread, h, fun heach => ?_⟩
  obtain ⟨⟨-, ⟨htests, -⟩, -⟩, -⟩ := heach
  have hraw : IsExistenceTest (.op .raw (.str "foo")) := htests _ (List.mem_singleton_self _) rfl
  rcases hraw with h | h <;> cases h

/-- Under strict handling the terms on embeds are tests. -/
theorem testsEmbeds_ofContext_strict (h : ofContext ctx = .ok fs) (hs : ctx.handling = .strict)
    (path : Option String) :
    Filter.Each (Filter.OnTerms (TestsEmbeds ctx path)) (fs.part [] path) := by
  rw [part_ofContext h]
  refine Filter.each_onTerms_pushAll.mpr ⟨trivial, fun e he => ?_⟩
  obtain ⟨param, -, hentry⟩ := List.mem_filterMap.mp (Filter.mem_of_mem_kept he)
  refine (each_testsEmbeds_iff (entryAt?_eq_some_iff.mp hentry)).mpr ?_
  rintro ⟨_, _, _, _, -, -, -, hkeeps⟩
  have hlenient := hkeeps.handling
  rw [hs] at hlenient
  cases hlenient

end Filters

end RestQuery
