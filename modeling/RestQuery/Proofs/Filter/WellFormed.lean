import RestQuery.Proofs.Filter.Entries
import RestQuery.Proofs.Filter.Keys
import RestQuery.Proofs.Operator.Operands

/-!
# Well-formed filters

In a well-formed filter the terms on a column can be written as an object, each value has the shape
that its operator wants, and what is negated is one operator or one combination of filters. Pushing
and dropping columns keep filters well-formed.
-/

namespace RestQuery

/-- A term is an operator with a value of its shape, or the negation of one such term. -/
def Term.WellFormed : Term → Prop
  | .op o value => o.shape.Admits value
  | .not terms => ∃ o value, terms = [.op o value] ∧ o.shape.Admits value

/-- The terms on a column can be written as an object. -/
structure Predicate.WellFormed (p : Predicate) : Prop where
  /-- There is a term. -/
  ne_nil : p ≠ []
  /-- No key is used twice. -/
  keys : (p.map Term.key).Nodup
  /-- Each term is well-formed. -/
  terms : ∀ t ∈ p, t.WellFormed

/-- An entry combines filters. -/
def FilterEntry.IsCompound : FilterEntry → Prop
  | .or _ | .and _ => True
  | .column .. | .not _ => False

/-- An entry is well-formed, whatever the entries in it are: what it negates combines filters. -/
def FilterEntry.WellFormed : FilterEntry → Prop
  | .column _ p => p.WellFormed
  | .or _ | .and _ => True
  | .not e => e.IsCompound

namespace Predicate

variable {o : Operator} {value : Json} {p q merged : Predicate} {t : Term}

theorem WellFormed.singleton (h : t.WellFormed) : WellFormed [t] where
  ne_nil := List.cons_ne_nil _ _
  keys := List.nodup_singleton _
  terms := List.forall_mem_singleton.mpr h

theorem WellFormed.ofOperator (h : o.shape.Admits value) : (ofOperator o value).WellFormed :=
  .singleton h

theorem WellFormed.negate (h : o.shape.Admits value) :
    (negate (Predicate.ofOperator o value)).WellFormed :=
  .singleton ⟨o, value, rfl, h⟩

theorem WellFormed.merge (hq : q.WellFormed) (hp : p.WellFormed) (h : merge? q p = some merged) :
    merged.WellFormed := by
  have hkeys := nodup_keys_merge hq.keys hp.keys h
  unfold merge? at h
  split at h
  · cases h
  · cases h
    exact ⟨by simp [hq.ne_nil], hkeys, List.forall_mem_append.mpr ⟨hq.terms, hp.terms⟩⟩

end Predicate

namespace Filter

theorem survivesPush_wellFormed : SurvivesPush FilterEntry.WellFormed where
  merge hq hp h := Predicate.WellFormed.merge hq hp h
  join _ _ := trivial
  wrap _ := trivial

/-- What is left of a compound is a compound. -/
theorem isCompound_of_retain? {keep : String → Bool} {e kept : FilterEntry} (he : e.IsCompound)
    (h : e.retain? keep = some kept) : kept.IsCompound := by
  cases e with
  | column | not => exact absurd he id
  | or filters | and filters =>
    unfold FilterEntry.retain? at h
    split at h
    · cases h
    · cases h
      trivial

theorem retainsInto_wellFormed (keep : String → Bool) :
    RetainsInto keep FilterEntry.WellFormed FilterEntry.WellFormed where
  column h := h
  or _ _ := trivial
  and _ _ := trivial
  not he h := isCompound_of_retain? he h

end Filter

end RestQuery
