import RestQuery.Proofs.Filter.WellFormed
import RestQuery.Proofs.Query.Conditions
import RestQuery.Proofs.Query.Filters
import RestQuery.Proofs.Query.Groups

/-!
# The filters of a query are well-formed

Whatever the parameters are, each condition that is read is well-formed, and so are the filters that
the conditions are pushed onto.
-/

namespace RestQuery

namespace Filters

variable {ctx : Context} {fs : Filters} {path place : Option String} {s : List Char}
  {e : FilterEntry} {h : Handling} {p : Predicate} {name dotted : String} {param : String × String}

theorem wellFormed_raw (s : List Char) :
    (Predicate.ofOperator .raw (.str (.ofList s))).WellFormed :=
  .ofOperator ⟨_, rfl⟩

/-- The terms of an operator expression are well-formed, read or kept as it is. -/
theorem wellFormed_predicate (hread : predicate h s = .ok p) : p.WellFormed := by
  unfold predicate at hread
  split at hread
  · rw [(keepRaw_eq_ok hread).2]
    exact wellFormed_raw s
  · next e _ =>
    split at hread
    · next value hvalue =>
      have hshape := Operator.admits_readOperand hvalue
      cases hread
      cases e.negated with
      | true => exact .negate hshape
      | false => exact .ofOperator hshape
    · split at hread
      · cases hread
      · rw [(keepRaw_eq_ok hread).2]
        exact wellFormed_raw s

theorem ReadsExpression.wellFormed (hread : ReadsExpression ctx dotted s p) : p.WellFormed := by
  cases hread with
  | test => exact .ofOperator rfl
  | operator _ hread => exact wellFormed_predicate hread

theorem ReadsColumn.wellFormed (hread : ReadsColumn ctx path s name p) : p.WellFormed := by
  cases hread with
  | raw => exact wellFormed_raw _
  | cut _ hread => exact hread.wellFormed

theorem wellFormed_connect (c : Connective) (negated : Bool) (entries : List FilterEntry) :
    (connect c negated entries).WellFormed := by
  cases c <;> cases negated <;> trivial

/-- The condition of a parameter is well-formed at every depth. -/
theorem wellFormed_paramEntry (hread : paramEntry ctx param = .ok (some (place, e))) :
    e.Each FilterEntry.WellFormed := by
  obtain ⟨key, value⟩ := param
  rcases paramEntry_eq_some hread with ⟨_, -, hcolumn⟩ | ⟨negated, c, -, hgroup⟩
  · obtain ⟨-, p, rfl, hp⟩ := columnEntry_eq_some hcolumn
    exact hp.wellFormed
  · refine each_group wellFormed_connect (fun s e he => ?_) hgroup
    obtain ⟨name, p, rfl, hp⟩ := columnCondition_eq_some he
    exact hp.wellFormed

/-- The filter of each place is well-formed. -/
theorem wellFormed_ofContext (h : ofContext ctx = .ok fs) (path : Option String) :
    Filter.Each FilterEntry.WellFormed (fs.part [] path) :=
  each_ofContext Filter.survivesPush_wellFormed h fun _ _ _ => wellFormed_paramEntry

end Filters

end RestQuery
