import RestQuery.Filter.Basic

/-!
# Filters as JSON

A filter is an object with a member for each entry, and so is a predicate with a member for each
term.
-/

namespace RestQuery

mutual

/-- A term as a member of the object of its predicate. -/
def Term.toMember : Term → String × Json
  | .op operator value => (operator.key, value)
  | .not terms => ("$not", .obj (Predicate.toMembers terms))

/-- The members of the object of a predicate. -/
def Predicate.toMembers : List Term → List (String × Json)
  | [] => []
  | t :: rest => t.toMember :: Predicate.toMembers rest

end

/-- A predicate as an object. -/
def Predicate.toJson (p : Predicate) : Json := .obj (Predicate.toMembers p)

mutual

/-- An entry as a member of the object of its filter. -/
def FilterEntry.toMember : FilterEntry → String × Json
  | .column name p => (name, Predicate.toJson p)
  | .or filters => ("$or", .arr (Filter.toObjects filters))
  | .and filters => ("$and", .arr (Filter.toObjects filters))
  | .not entry => ("$not", .obj [entry.toMember])

/-- The members of the object of a filter. -/
def Filter.toMembers : List FilterEntry → List (String × Json)
  | [] => []
  | entry :: rest => entry.toMember :: Filter.toMembers rest

/-- The objects of several filters. -/
def Filter.toObjects : List (List FilterEntry) → List Json
  | [] => []
  | f :: rest => .obj (Filter.toMembers f) :: Filter.toObjects rest

end

/-- A filter as an object. -/
def Filter.toJson (f : Filter) : Json := .obj (Filter.toMembers f)

end RestQuery
