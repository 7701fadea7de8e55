import RestQuery.Filter.Basic

/-!
# The columns of a filter

Which columns a filter tests, at any depth, and what is left of it when some of them are dropped.
Combinators that lose all their filters are dropped with them.
-/

namespace RestQuery

mutual

/-- The columns of an entry, in order. -/
def FilterEntry.columns : FilterEntry → List String
  | .column name _ => [name]
  | .or filters => Filter.columnsAll filters
  | .and filters => Filter.columnsAll filters
  | .not entry => entry.columns

/-- The columns of a filter, in order. -/
def Filter.columns : List FilterEntry → List String
  | [] => []
  | entry :: rest => entry.columns ++ Filter.columns rest

/-- The columns of several filters, in order. -/
def Filter.columnsAll : List (List FilterEntry) → List String
  | [] => []
  | f :: rest => Filter.columns f ++ Filter.columnsAll rest

end

mutual

/-- What is left of an entry when the columns that `keep` refuses are dropped. -/
def FilterEntry.retain? (keep : String → Bool) : FilterEntry → Option FilterEntry
  | .column name p => if keep name then some (.column name p) else none
  | .or filters =>
    match Filter.retainAll keep filters with
    | [] => none
    | kept => some (.or kept)
  | .and filters =>
    match Filter.retainAll keep filters with
    | [] => none
    | kept => some (.and kept)
  | .not entry => (entry.retain? keep).map .not

/-- What is left of a filter when the columns that `keep` refuses are dropped. -/
def Filter.retain (keep : String → Bool) : List FilterEntry → List FilterEntry
  | [] => []
  | entry :: rest =>
    match entry.retain? keep with
    | some kept => kept :: Filter.retain keep rest
    | none => Filter.retain keep rest

/-- What is left of several filters, without those of which nothing is left. -/
def Filter.retainAll (keep : String → Bool) : List (List FilterEntry) → List (List FilterEntry)
  | [] => []
  | f :: rest =>
    match Filter.retain keep f with
    | [] => Filter.retainAll keep rest
    | kept => kept :: Filter.retainAll keep rest

end

end RestQuery
