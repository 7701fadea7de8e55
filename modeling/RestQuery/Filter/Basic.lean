import RestQuery.Json.Basic
import RestQuery.Operator.Basic

/-!
# Filters

A filter is a list of entries that must all hold. An entry tests a column with a predicate, or
combines filters with *or*, *and* and *not*. A predicate is a list of terms that must all hold for
the column, each an operator with its value, or the negation of a predicate.

A filter is written as an object, so an entry has a key: its column, or the name of its combinator.
Adding an entry keeps the keys apart. Terms on a column that has an entry already join that entry if
their keys are free there; whatever else would take a used key goes into the *and* of the filter.
-/

namespace RestQuery

/-- One condition on a column. -/
inductive Term where
  /-- An operator with its value. -/
  | op (operator : Operator) (value : Json)
  /-- The negation of conditions that hold together. -/
  | not (terms : List Term)
  deriving Repr, Inhabited, BEq

/-- The conditions on a column, which must all hold. -/
abbrev Predicate := List Term

/-- The key of a term in the object of its predicate. -/
def Term.key : Term → String
  | .op operator _ => operator.key
  | .not _ => "$not"

namespace Predicate

/-- The predicate with one operator. -/
def ofOperator (operator : Operator) (value : Json) : Predicate := [.op operator value]

/-- The negation of a predicate. -/
def negate (p : Predicate) : Predicate := [.not p]

/-- Whether a predicate has a term with the key `key`. -/
def hasKey (p : Predicate) (key : String) : Bool := p.any (·.key = key)

/-- Both predicates as one; none if they share a key. -/
def merge? (p q : Predicate) : Option Predicate :=
  if q.any fun t => hasKey p t.key then none else some (p ++ q)

end Predicate

/-- One entry of a filter. -/
inductive FilterEntry where
  /-- A column with its predicate. The column may be the name of an embed, which then tests whether
  rows are related, and may have such a name before a point. -/
  | column (name : String) (predicate : Predicate)
  /-- At least one of the filters holds. -/
  | or (filters : List (List FilterEntry))
  /-- All of the filters hold. -/
  | and (filters : List (List FilterEntry))
  /-- The entry does not hold. -/
  | not (entry : FilterEntry)
  deriving Repr, Inhabited, BEq

/-- Entries that must all hold. -/
abbrev Filter := List FilterEntry

/-- The key of an entry in the object of its filter. -/
def FilterEntry.key : FilterEntry → String
  | .column name _ => name
  | .or _ => "$or"
  | .and _ => "$and"
  | .not _ => "$not"

namespace Filter

/-- Adds a filter to the first *and* of `f`, or as a new *and* at the end. -/
def pushAnd (f : Filter) (added : Filter) : Filter :=
  match f with
  | [] => [.and [added]]
  | .and filters :: rest => .and (filters ++ [added]) :: rest
  | entry :: rest => entry :: pushAnd rest added

/-- The first entry with the key `key`. -/
def withKey? (f : Filter) (key : String) : Option FilterEntry := f.find? (·.key = key)

/-- Puts `entry` in the place of the first entry with the key `key`. -/
def replace (key : String) (entry : FilterEntry) : Filter → Filter
  | [] => []
  | e :: rest => if e.key = key then entry :: rest else e :: replace key entry rest

/-- Adds an entry, so that the filter holds if it held before and the entry holds. An *and* whose
key is the name of a column of the filter is not added. -/
def push (f : Filter) (entry : FilterEntry) : Filter :=
  match withKey? f entry.key with
  | none => f ++ [entry]
  | some present =>
    match entry, present with
    | .column name p, .column _ q =>
      match Predicate.merge? q p with
      | some merged => replace name (.column name merged) f
      | none => pushAnd f [entry]
    | .column _ _, _ => pushAnd f [entry]
    | .and added, .and filters => replace "$and" (.and (filters ++ added)) f
    | .and _, _ => f
    | _, _ => pushAnd f [entry]

/-- Adds entries one after the other. -/
def pushAll (f : Filter) (entries : List FilterEntry) : Filter := entries.foldl push f

end Filter

end RestQuery
