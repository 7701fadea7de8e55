import Mathlib.Tactic.Common
import RestQuery.Proofs.Filter.Entries
import RestQuery.Proofs.Query.Routed
import RestQuery.Query.Filters

/-!
# What the filters of a query mean

The filter of the root and of each embed is the run of pushes of the conditions that the parameters
stand for there. So it means all of them, up to the groups that the run drops.
-/

namespace RestQuery

namespace Filters

variable {ctx : Context} {fs fs' : Filters} {path : Option String} {param : String × String}
  {params : Params}

/-! ## What a condition depends on -/

/-- Groups are read without regard to the headers and the other parameters. -/
theorem group_update (negotiation : Http.Negotiation) (params : Params) (levels : Nat) :
    group { ctx with negotiation, params } path levels = group ctx path levels := by
  induction levels with
  | zero => rfl
  | succ levels ih =>
    funext c negated s
    unfold group
    rw [ih]
    rfl

theorem paramEntry_update (negotiation : Http.Negotiation) (params : Params) :
    paramEntry { ctx with negotiation, params } = paramEntry ctx := by
  funext param
  obtain ⟨key, value⟩ := param
  have hgroup (path : Option String) (negated : Bool) (c : Connective) :
      groupEntry { ctx with negotiation, params } key value path negated c =
        groupEntry ctx key value path negated c := by
    unfold groupEntry
    rw [group_update]
    rfl
  unfold paramEntry
  simp only [hgroup]
  rfl

theorem addParam_update (negotiation : Http.Negotiation) (params : Params) :
    addParam { ctx with negotiation, params } = addParam ctx := by
  unfold addParam
  rw [paramEntry_update]

/-! ## Conditions by their place -/

/-- The condition on the root or on the embed at `path` that a parameter stands for on its own. -/
def entryAt? (ctx : Context) (path : Option String) (param : String × String) :
    Option FilterEntry :=
  match paramEntry ctx param with
  | .ok (some (place, entry)) => if place = path then some entry else none
  | _ => none

/-- The conditions on the root or on the embed at `path` that the parameters of a request stand for,
each on its own. -/
def routed (ctx : Context) (path : Option String) : List FilterEntry :=
  ctx.params.filterMap (entryAt? ctx path)

theorem entryAt?_eq_some_iff {e : FilterEntry} :
    entryAt? ctx path param = some e ↔ paramEntry ctx param = .ok (some (path, e)) := by
  unfold entryAt?
  split
  · next place entry hentry =>
    rw [hentry]
    grind
  · next hentry =>
    constructor
    · intro h
      cases h
    · intro h
      exact absurd h (hentry path e)

/-- A parameter is pushed onto the filter of its place and leaves the others as they are. -/
theorem part_addParam (h : addParam ctx fs param = .ok fs') (hfs : Keyed.Ascending fs.embedded)
    (path : Option String) :
    Keyed.Ascending fs'.embedded ∧
      fs'.part [] path = Filter.pushAll (fs.part [] path) (entryAt? ctx path param).toList := by
  unfold addParam at h
  obtain ⟨entry, hentry, h⟩ := bind_eq_ok.mp h
  unfold entryAt?
  rw [hentry]
  cases entry with
  | none =>
    cases h
    exact ⟨hfs, rfl⟩
  | some entry =>
    obtain ⟨place, entry⟩ := entry
    cases h
    refine ⟨Routed.ascending_alter hfs, ?_⟩
    rw [addEntry, Routed.part_alter hfs]
    by_cases hplace : path = place
    · subst hplace
      simp [Filter.pushAll]
    · simp [Filter.pushAll, hplace, Ne.symm hplace]

theorem part_foldlM_addParam (h : params.foldlM (addParam ctx) fs = .ok fs')
    (hfs : Keyed.Ascending fs.embedded) (path : Option String) :
    fs'.part [] path =
      Filter.pushAll (fs.part [] path) (params.filterMap (entryAt? ctx path)) := by
  induction params generalizing fs with
  | nil =>
    cases h
    rfl
  | cons param params ih =>
    rw [List.foldlM_cons] at h
    obtain ⟨fs₁, hparam, hrest⟩ := bind_eq_ok.mp h
    -- The paths stay ascending, so the parts stay apart at the next parameter.
    obtain ⟨hfs₁, hpart⟩ := part_addParam hparam hfs path
    rw [ih hrest hfs₁, hpart, List.filterMap_cons]
    cases entryAt? ctx path param <;> rfl

/-- The filter of a place is the run of pushes of the conditions for it. -/
theorem part_ofContext (h : ofContext ctx = .ok fs) (path : Option String) :
    fs.part [] path = Filter.pushAll [] (routed ctx path) := by
  have hpart := part_foldlM_addParam h Keyed.ascending_nil path
  rw [hpart]
  cases path <;> rfl

/-- What all conditions for a place have the filter of the place has. -/
theorem each_ofContext {P : FilterEntry → Prop} (hP : Filter.SurvivesPush P)
    (h : ofContext ctx = .ok fs)
    (hentry : ∀ param ∈ ctx.params, ∀ e, paramEntry ctx param = .ok (some (path, e)) → e.Each P) :
    Filter.Each P (fs.part [] path) := by
  rw [part_ofContext h]
  refine Filter.each_pushAll hP trivial (Filter.each_iff.mpr fun e he => ?_)
  obtain ⟨param, hparam, hread⟩ := List.mem_filterMap.mp he
  exact hentry param hparam e (entryAt?_eq_some_iff.mp hread)

/-! ## Places -/

variable {key value : String} {entry : FilterEntry}

theorem hasEmbed_of_columnEntry (h : columnEntry ctx key value = .ok (some (path, entry))) :
    ∀ p ∈ path, ctx.hasEmbed p = true := by
  have hpath : (ctx.splitEmbed key).1 = path := by
    unfold columnEntry at h
    dsimp only at h
    split at h
    · obtain ⟨found, -, h⟩ := map_eq_ok.mp h
      obtain ⟨p, -, h⟩ := Option.map_eq_some_iff.mp h
      cases h
      rfl
    · obtain ⟨p, -, h⟩ := map_eq_ok.mp h
      cases h
      rfl
  intro p hp
  exact Context.hasEmbed_of_splitEmbed (hpath.trans hp)

theorem hasEmbed_of_groupEntry {place : Option String} {negated : Bool} {c : Connective}
    (h : groupEntry ctx key value place negated c = .ok (some (path, entry))) :
    ∀ p ∈ path, ctx.hasEmbed p = true := by
  unfold groupEntry at h
  split at h
  · obtain ⟨-, -, h⟩ := bind_eq_ok.mp h
    cases h
  · next hplace =>
    obtain ⟨e, -, h⟩ := map_eq_ok.mp h
    cases h
    exact Context.hasEmbed_of_filter hplace

theorem hasEmbed_of_paramEntry (h : paramEntry ctx param = .ok (some (path, entry))) :
    ∀ p ∈ path, ctx.hasEmbed p = true := by
  obtain ⟨key, value⟩ := param
  unfold paramEntry at h
  dsimp only at h
  split at h
  · cases h
  · split at h
    · cases h
    · cases h
    · exact hasEmbed_of_groupEntry h
    · exact hasEmbed_of_columnEntry h

theorem addresses_ofContext (h : ofContext ctx = .ok fs) :
    fs.Addresses fun path => ctx.hasEmbed path = true := by
  refine foldlM_invariant (fun fs fs' param hfs hparam => ?_) (by simp [Routed.Addresses]) h
  unfold addParam at hparam
  obtain ⟨found, hfound, hparam⟩ := bind_eq_ok.mp hparam
  cases found with
  | none =>
    cases hparam
    exact hfs
  | some found =>
    cases hparam
    exact hfs.alter (hasEmbed_of_paramEntry hfound)

/-! ## Meaning -/

/-- The filter of a place means all conditions for it, exactly if every group that was dropped there
follows from the others. A group is dropped where a column called `$and` has its key when its turn
comes. -/
theorem holds_ofContext_iff (h : ofContext ctx = .ok fs) (path : Option String) :
    ((∀ v, Filter.holds v (fs.part [] path) = (routed ctx path).all (·.holds v)) ↔
      ∀ e ∈ Filter.dropped [] (routed ctx path), ∀ v,
        Filter.holds v (fs.part [] path) = true → e.holds v = true) ∧
    ∀ e, e ∈ Filter.dropped [] (routed ctx path) ↔ ∃ before filters after,
      routed ctx path = before ++ .and filters :: after ∧ e = .and filters ∧
        (Filter.pushAll [] before).takesAnd = true := by
  rw [part_ofContext h]
  exact ⟨Filter.holds_pushAll_iff, fun e => Filter.mem_dropped_iff⟩

/-- A group is read piece by piece once its text is cut. -/
theorem group_of_pieces {levels : Nat} {c : Connective} {negated : Bool} {s inner : List Char}
    {pieces : List (List Char)} (hinner : unwrapGroup s = .ok inner)
    (hpieces : Value.splitTopLevel ',' inner = .ok pieces) :
    group ctx path (levels + 1) c negated s = do
      let reads ← pieces.mapM fun piece =>
        condition ctx path (group ctx path levels) s (Text.trim piece)
      return connect c negated (reads.filterMap id) := by
  unfold group
  rw [hinner, ok_bind, hpieces]

/-- A strict query of the table `items`. -/
def itemsQuery (params : Params) : Context where
  method := .get
  target := .table "items"
  negotiation := {}
  params
  embeds := []
  payload := none
  handling := .strict

/-- The condition that one operator and its value stand for. -/
def itemsEntry (column : String) (c : Comparison) (n : Int) : FilterEntry :=
  .column column (Predicate.ofOperator (.compare c none) (.int n))

theorem paramEntry_itemsQuery {column value : String} {p : Predicate}
    (hkey : ParamKey.classify column = .column column)
    (hp : predicate .strict value.toList = .ok p) :
    paramEntry (itemsQuery params) (column, value) = .ok (some (none, .column column p)) := by
  have hcall : (itemsQuery params).isArgument column value = false := rfl
  have hembed (path : String) : (itemsQuery params).hasEmbed path = false := rfl
  have hsplit : (itemsQuery params).splitEmbed column = (none, column) := by
    unfold Context.splitEmbed
    rw [List.filter_eq_nil_iff.mpr fun p _ => by simp [hembed]]
    rfl
  simp only [paramEntry, hcall, hkey, columnEntry, hsplit, hembed, Bool.false_eq_true, if_false]
  rw [show (itemsQuery params).handling = .strict from rfl, hp]
  rfl

/-- Two parameters with conditions on the root are pushed onto its filter. -/
theorem ofContext_itemsQuery {param₁ param₂ : String × String} {e₁ e₂ : FilterEntry}
    (h₁ : ∀ params, paramEntry (itemsQuery params) param₁ = .ok (some (none, e₁)))
    (h₂ : ∀ params, paramEntry (itemsQuery params) param₂ = .ok (some (none, e₂))) :
    routed (itemsQuery [param₁, param₂]) none = [e₁, e₂] ∧
      ofContext (itemsQuery [param₁, param₂]) = .ok { root := Filter.pushAll [] [e₁, e₂] } := by
  constructor
  · unfold routed
    rw [show (itemsQuery [param₁, param₂]).params = [param₁, param₂] from rfl]
    simp [entryAt?, h₁, h₂]
  · unfold ofContext
    rw [show (itemsQuery [param₁, param₂]).params = [param₁, param₂] from rfl]
    simp only [List.foldlM_cons, List.foldlM_nil, addParam, h₁, h₂, ok_bind]
    rfl

/-- Two conditions on one column with one operator both count. -/
theorem holds_ofContext_twice :
    ∃ fs, ofContext (itemsQuery [("a", "gt.1"), ("a", "gt.2")]) = .ok fs ∧
      ∀ v, Filter.holds v (fs.part [] none) =
        (routed (itemsQuery [("a", "gt.1"), ("a", "gt.2")]) none).all (·.holds v) := by
  have hfirst (params : Params) : paramEntry (itemsQuery params) ("a", "gt.1") =
      .ok (some (none, itemsEntry "a" .gt 1)) :=
    paramEntry_itemsQuery (by decide) (by rfl)
  have hsecond (params : Params) : paramEntry (itemsQuery params) ("a", "gt.2") =
      .ok (some (none, itemsEntry "a" .gt 2)) :=
    paramEntry_itemsQuery (by decide) (by rfl)
  obtain ⟨hrouted, h⟩ := ofContext_itemsQuery hfirst hsecond
  refine ⟨_, h, (holds_ofContext_iff h none).1.mpr ?_⟩
  rw [hrouted, show Filter.dropped [] _ = [] from rfl]
  simp

/-- A group is lost where a column called `$and` comes before it. -/
theorem holds_ofContext_lost :
    ∃ fs v, ofContext (itemsQuery [("$and", "eq.1"), ("and", "(a.eq.2)")]) = .ok fs ∧
      Filter.holds v fs.root ≠
        (routed (itemsQuery [("$and", "eq.1"), ("and", "(a.eq.2)")]) none).all (·.holds v) := by
  have hgroup (params : Params) : paramEntry (itemsQuery params) ("and", "(a.eq.2)") =
      .ok (some (none, .and [[itemsEntry "a" .eq 2]])) := by
    have hkey : ParamKey.classify "and" = .group none false .and := by decide
    have hcall : (itemsQuery params).isArgument "and" "(a.eq.2)" = false := rfl
    have hpieces : Value.splitTopLevel ',' "a.eq.2".toList = .ok ["a.eq.2".toList] := by
      decide +kernel
    have hread : group (itemsQuery params) none maxGroupDepth .and false "(a.eq.2)".toList =
        .ok (.and [[itemsEntry "a" .eq 2]]) :=
      (group_of_pieces rfl hpieces).trans rfl
    simp only [paramEntry, hcall, hkey, groupEntry]
    rw [Option.filter_none, hread]
    rfl
  have hcolumn (params : Params) : paramEntry (itemsQuery params) ("$and", "eq.1") =
      .ok (some (none, itemsEntry "$and" .eq 1)) :=
    paramEntry_itemsQuery (by decide) (by rfl)
  obtain ⟨hrouted, h⟩ := ofContext_itemsQuery hcolumn hgroup
  refine ⟨_, fun column _ _ => column = "$and", h, ?_⟩
  rw [hrouted]
  decide

/-- Where no column is called `$and`, the filter of a place means all conditions for it. -/
theorem holds_ofContext (h : ofContext ctx = .ok fs)
    (hand : ¬ Filter.HasColumn "$and" (routed ctx path)) (v : Valuation) :
    Filter.holds v (fs.part [] path) = (routed ctx path).all (·.holds v) := by
  rw [part_ofContext h]
  exact Filter.holds_pushAll_of_not_hasColumn hand

end Filters

end RestQuery
