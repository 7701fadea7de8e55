import RestQuery.Proofs.Outcome
import RestQuery.Query.Filters

/-!
# What a condition on a column is read as

A condition on a column gets its terms from an operator expression, which is a test for related rows
if it is on an embed. Only a condition in a group that cannot be cut in two is kept as it is, and
only under lenient handling.
-/

namespace RestQuery

namespace Filters

variable {ctx : Context} {path place : Option String} {s : List Char} {e : FilterEntry}
  {h : Handling} {p : Predicate} {name key value : String} {cause : Invalid}

/-- How an operator expression gives terms on what stands at a dotted path: as a test for related
rows if that is an embed, and as an operator with its value otherwise. -/
inductive ReadsExpression (ctx : Context) (dotted : String) (s : List Char) : Predicate → Prop where
  | test {c : Comparison} (hembed : ctx.hasEmbed dotted = true) (htest : embedTest? s = some c) :
      ReadsExpression ctx dotted s (Predicate.ofOperator (.compare c none) .null)
  | operator {p : Predicate} (hembed : ctx.hasEmbed dotted = false)
      (hread : predicate ctx.handling s = .ok p) : ReadsExpression ctx dotted s p

/-- The text before the first point of a condition; all of it if there is none. -/
def leadingName (s : List Char) : List Char := ((Text.splitOnce '.' s).getD (s, [])).1

/-- How a condition in a group gets the terms `p` on the column `name`. -/
inductive ReadsColumn (ctx : Context) (path : Option String) (s : List Char) :
    String → Predicate → Prop where
  /-- It cannot be cut in two, and what follows its first point is kept under lenient handling. -/
  | raw {fault : Expression.Fault} {rest : List Char} (hlenient : ctx.handling = .lenient)
      (hcut : splitCondition s = .error fault) (hname : leadingName s ≠ []) :
      ReadsColumn ctx path s (.ofList (leadingName s))
        (Predicate.ofOperator .raw (.str (.ofList rest)))
  /-- It is cut into a column and an operator expression. -/
  | cut {column expression : List Char} {p : Predicate}
      (hcut : splitCondition s = .ok (column, expression))
      (hread : ReadsExpression ctx (columnPath path (.ofList column)) expression p) :
      ReadsColumn ctx path s (.ofList column) p

theorem keepRaw_eq_ok (hkeep : keepRaw h cause s = .ok p) :
    h = .lenient ∧ p = Predicate.ofOperator .raw (.str (.ofList s)) := by
  unfold keepRaw at hkeep
  cases h with
  | strict => cases hkeep
  | lenient =>
    cases hkeep
    exact ⟨rfl, rfl⟩

theorem embedPredicate_eq_some (hread : embedPredicate h name s = .ok (some p)) :
    ∃ c, embedTest? s = some c ∧ p = Predicate.ofOperator (.compare c none) .null := by
  unfold embedPredicate at hread
  split at hread
  · next c htest =>
    cases hread
    exact ⟨c, htest, rfl⟩
  · split at hread <;> cases hread

theorem embedPredicate_eq_none (hread : embedPredicate h name s = .ok none) :
    h = .lenient ∧ embedTest? s = none := by
  unfold embedPredicate at hread
  split at hread
  · cases hread
  · next htest =>
    cases h with
    | strict => cases hread
    | lenient => exact ⟨rfl, htest⟩

/-- A test for related rows compares with `null`, for equal or unequal. -/
theorem eq_or_neq_of_embedTest? {c : Comparison} (htest : embedTest? s = some c) :
    c = .eq ∨ c = .neq := by
  unfold embedTest? at htest
  grind

/-- The entry of a condition in a group has the terms that are read for one column. -/
theorem columnCondition_eq_some (hread : columnCondition ctx path s = .ok (some e)) :
    ∃ name p, e = .column name p ∧ ReadsColumn ctx path s name p := by
  unfold columnCondition at hread
  split at hread
  · next fault hcut =>
    obtain ⟨e', hraw, he⟩ := map_eq_ok.mp hread
    cases he
    unfold rawCondition at hraw
    dsimp only at hraw
    split at hraw
    · cases hraw
    · next hname =>
      split at hraw
      · cases hraw
      · next p hkeep =>
        cases hraw
        obtain ⟨hlenient, rfl⟩ := keepRaw_eq_ok hkeep
        exact ⟨_, _, rfl, .raw hlenient hcut (by simpa [leadingName] using hname)⟩
  · next column expression hcut =>
    dsimp only at hread
    split at hread
    · next hembed =>
      obtain ⟨found, hfound, he⟩ := map_eq_ok.mp hread
      obtain ⟨p, rfl, rfl⟩ := Option.map_eq_some_iff.mp he
      obtain ⟨c, htest, rfl⟩ := embedPredicate_eq_some hfound
      exact ⟨_, _, rfl, .cut hcut (.test hembed htest)⟩
    · next hembed =>
      obtain ⟨p, hp, he⟩ := map_eq_ok.mp hread
      cases he
      exact ⟨_, _, rfl, .cut hcut (.operator (Bool.eq_false_iff.mpr hembed) hp)⟩

/-- Under lenient handling a condition with a name that cannot be cut in two is kept as it is. -/
theorem columnCondition_of_error {fault : Expression.Fault} (hlenient : ctx.handling = .lenient)
    (hcut : splitCondition s = .error fault) (hname : leadingName s ≠ []) :
    ∃ rest, columnCondition ctx path s = .ok (some (.column (.ofList (leadingName s))
      (Predicate.ofOperator .raw (.str (.ofList rest))))) := by
  have hempty : ((Text.splitOnce '.' s).getD (s, [])).1.isEmpty = false := by
    simpa [leadingName] using hname
  refine ⟨((Text.splitOnce '.' s).getD (s, [])).2, ?_⟩
  unfold columnCondition
  rw [hcut, hlenient]
  unfold rawCondition
  dsimp only
  rw [hempty, if_neg Bool.false_ne_true]
  rfl

/-- A parameter with a column for its key gets the terms of its value, on the column that follows
the path to an embed. -/
theorem columnEntry_eq_some (hread : columnEntry ctx key value = .ok (some (place, e))) :
    place = (ctx.splitEmbed key).1 ∧
      ∃ p, e = .column (ctx.splitEmbed key).2 p ∧ ReadsExpression ctx key value.toList p := by
  unfold columnEntry at hread
  dsimp only at hread
  split at hread
  · next hembed =>
    obtain ⟨found, hfound, he⟩ := map_eq_ok.mp hread
    obtain ⟨p, rfl, he⟩ := Option.map_eq_some_iff.mp he
    obtain ⟨c, htest, rfl⟩ := embedPredicate_eq_some hfound
    cases he
    exact ⟨rfl, _, rfl, .test hembed htest⟩
  · next hembed =>
    obtain ⟨p, hp, he⟩ := map_eq_ok.mp hread
    cases he
    exact ⟨rfl, p, rfl, .operator (Bool.eq_false_iff.mpr hembed) hp⟩

/-- A parameter that gets an entry has a column or a connective for its key. -/
theorem paramEntry_eq_some (hread : paramEntry ctx (key, value) = .ok (some (place, e))) :
    (∃ name, ParamKey.classify key = .column name ∧
      columnEntry ctx key value = .ok (some (place, e))) ∨
    ∃ negated c, ParamKey.classify key = .group place negated c ∧
      group ctx place maxGroupDepth c negated value.toList = .ok e := by
  unfold paramEntry at hread
  dsimp only at hread
  split at hread
  · cases hread
  · split at hread
    · cases hread
    · cases hread
    · next path negated c hkey =>
      unfold groupEntry at hread
      split at hread
      · obtain ⟨-, -, hread⟩ := bind_eq_ok.mp hread
        cases hread
      · obtain ⟨e', hgroup, he⟩ := map_eq_ok.mp hread
        cases he
        exact .inr ⟨negated, c, hkey, hgroup⟩
    · next name hkey => exact .inl ⟨name, hkey, hread⟩

end Filters

end RestQuery
