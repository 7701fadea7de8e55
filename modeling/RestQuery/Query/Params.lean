import RestQuery.Text.Scan
import RestQuery.Url.Form

/-!
# Query parameters

The pairs of a query string in order, and the role that a key gives its parameter. A key may name an
embed before what it asks for, with points on the way.
-/

namespace RestQuery

/-- The parameters of a query string, in order. -/
abbrev Params := List (String × String)

namespace Params

/-- The parameters of a query string. -/
def ofQuery : Option (List Char) → Params
  | some query => Url.decodeForm query
  | none => []

/-- The values of a key, in order. -/
def all (params : Params) (key : String) : List String :=
  (params.filter (·.1 = key)).map (·.2)

/-- The last value of a key. -/
def last? (params : Params) (key : String) : Option String := (all params key).getLast?

end Params

/-- What a clause of a level is about. -/
inductive Clause where
  | order | limit | offset
  deriving DecidableEq, Repr

/-- The word for a clause. -/
def Clause.name : Clause → String
  | .order => "order"
  | .limit => "limit"
  | .offset => "offset"

/-- How the conditions of a group are combined. -/
inductive Connective where
  | or | and
  deriving DecidableEq, Repr

/-- The word for a connective. -/
def Connective.name : Connective → String
  | .or => "or"
  | .and => "and"

/-- What a key asks for. -/
inductive ParamKey where
  /-- A key that belongs to the request as a whole. -/
  | reserved
  /-- A clause of the root or of the embed at a path. -/
  | clause (path : Option String) (c : Clause)
  /-- A group of conditions on the root or on the embed at a path. -/
  | group (path : Option String) (negated : Bool) (connective : Connective)
  /-- A condition on a column, or an argument. -/
  | column (name : String)
  deriving DecidableEq, Repr

namespace ParamKey

/-- The keys that belong to the request as a whole. -/
def reservedKeys : List String := ["select", "columns", "on_conflict"]

/-- The clause that a word names. -/
def clauseOf? (word : List Char) : Option Clause :=
  if word = "order".toList then some .order
  else if word = "limit".toList then some .limit
  else if word = "offset".toList then some .offset
  else none

/-- The connective that a word names. -/
def connectiveOf? (word : List Char) : Option Connective :=
  if word = "or".toList then some .or
  else if word = "and".toList then some .and
  else none

/-- Takes a negation off the end of the path before a connective. -/
def splitNegation : Option (List Char) → Option String × Bool
  | none => (none, false)
  | some path =>
    if path = "not".toList then (none, true)
    else
      match Text.dropStart? "ton.".toList path.reverse with
      | some rest => (some (.ofList rest.reverse), true)
      | none => (some (.ofList path), false)

/-- The role of a key. Its last word decides; whether there is an embed at the path before it is not
asked here. -/
def classify (key : String) : ParamKey :=
  if reservedKeys.contains key then .reserved
  else
    let (path, word) := match Text.splitLast '.' key.toList with
      | some (path, word) => (some path, word)
      | none => (none, key.toList)
    match clauseOf? word with
    | some c => .clause (path.map String.ofList) c
    | none =>
      match connectiveOf? word with
      | some connective =>
        let (path, negated) := splitNegation path
        .group path negated connective
      | none => .column key

end ParamKey

end RestQuery
