import RestQuery.Filter.Basic

/-!
# What filters mean

Whether a filter holds, where it is given for every column, operator and value whether that
condition holds. Nothing is assumed of the operators, so two filters with the same meaning agree
over every database.
-/

namespace RestQuery

/-- Which conditions hold, by column, operator and value. -/
abbrev Valuation := String → Operator → Json → Bool

mutual

/-- Whether a term holds of a column. -/
def Term.holds (v : Valuation) (column : String) : Term → Bool
  | .op operator value => v column operator value
  | .not terms => !Term.holdAll v column terms

/-- Whether all terms hold of a column. -/
def Term.holdAll (v : Valuation) (column : String) : List Term → Bool
  | [] => true
  | t :: rest => t.holds v column && Term.holdAll v column rest

end

/-- Whether a predicate holds of a column. -/
abbrev Predicate.holds (v : Valuation) (column : String) (p : Predicate) : Bool :=
  Term.holdAll v column p

mutual

/-- Whether an entry holds. -/
def FilterEntry.holds (v : Valuation) : FilterEntry → Bool
  | .column name p => Predicate.holds v name p
  | .or filters => Filter.someHolds v filters
  | .and filters => Filter.eachHolds v filters
  | .not entry => !entry.holds v

/-- Whether a filter holds. -/
def Filter.holds (v : Valuation) : List FilterEntry → Bool
  | [] => true
  | entry :: rest => entry.holds v && Filter.holds v rest

/-- Whether one of several filters holds. -/
def Filter.someHolds (v : Valuation) : List (List FilterEntry) → Bool
  | [] => false
  | f :: rest => Filter.holds v f || Filter.someHolds v rest

/-- Whether each of several filters holds. -/
def Filter.eachHolds (v : Valuation) : List (List FilterEntry) → Bool
  | [] => true
  | f :: rest => Filter.holds v f && Filter.eachHolds v rest

end

end RestQuery
