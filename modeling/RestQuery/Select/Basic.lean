import RestQuery.Filter.Basic
import RestQuery.Keyed
import RestQuery.Order.Basic

/-!
# Select lists

What a request asks for: columns, fields computed from columns, and embeds, which are lists of the
same kind over related tables. The embeds of a list declare joins, kept apart from the list and in
the order of their names. An embed also carries the clauses that apply to its rows.
-/

namespace RestQuery

/-- Whether rows without related rows are kept. -/
inductive JoinType where
  /-- They are kept. -/
  | left
  /-- They are dropped. -/
  | inner
  deriving DecidableEq, Repr, Inhabited

/-- The word for a join type. -/
def JoinType.name : JoinType → String
  | .left => "left"
  | .inner => "inner"

/-- The declaration of a related table. -/
structure Join where
  /-- The table. -/
  table : String
  /-- The type of the join. -/
  type : JoinType := .left
  /-- Which of several relationships is meant. -/
  hint : Option String := none
  deriving DecidableEq, Repr, Inhabited

/-- Joins by name, in ascending order of the names. -/
abbrev Joins := Keyed Join

/-- A function over groups of rows. -/
inductive Aggregate where
  | sum | avg | min | max | count
  deriving DecidableEq, Repr, Inhabited

/-- The name of an aggregate. -/
def Aggregate.name : Aggregate → String
  | .sum => "sum"
  | .avg => "avg"
  | .min => "min"
  | .max => "max"
  | .count => "count"

/-- The aggregate with a name. -/
def Aggregate.ofName? (name : String) : Option Aggregate :=
  [.sum, .avg, .min, .max, .count].find? fun (a : Aggregate) => a.name = name

/-- One step into a JSON document. -/
inductive PathKey where
  /-- The member with a name. -/
  | key (name : String)
  /-- The item with a number, counted from the end if it is negative. -/
  | index (n : Int)
  deriving DecidableEq, Repr, Inhabited

/-- A column that is renamed, cast, aggregated or entered by a JSON path. -/
structure Field where
  /-- The name in the output. -/
  name : String
  /-- The column; none for the count of rows. -/
  column : Option String
  /-- The steps into the document that the column holds. -/
  path : List PathKey := []
  /-- Whether the last step gives text. -/
  pathAsText : Bool := false
  /-- The cast before the aggregate. -/
  preCast : Option String := none
  /-- The aggregate. -/
  aggregate : Option Aggregate := none
  /-- The cast after the aggregate, or the only cast where there is none. -/
  cast : Option String := none
  deriving DecidableEq, Repr, Inhabited

/-- The count of rows, under its own name. -/
def Field.rowCount : Field :=
  { name := Aggregate.count.name, column := none, aggregate := some .count }

/-- The name that a field has if none is written: that of its aggregate, else the last step of its
path if that is a name, else its column. -/
def Field.defaultName (f : Field) : String :=
  match f.aggregate with
  | some a => a.name
  | none =>
    match f.path.getLast? with
    | some (.key k) => k
    | _ => f.column.getD ""

/-- What applies to the rows of one level of a query. -/
structure Clauses where
  /-- Which rows are kept. -/
  filter : Filter := []
  /-- How they are sorted. -/
  order : List OrderTerm := []
  /-- How many are kept at most. -/
  limit : Option Nat := none
  /-- How many are passed over. -/
  offset : Option Nat := none
  /-- The columns by which they are grouped. -/
  group : List String := []
  deriving Repr, Inhabited, BEq

/-- One entry of a select list. -/
inductive SelectEntry where
  /-- All columns. -/
  | wildcard
  /-- A column as it is. -/
  | column (name : String)
  /-- A computed field. -/
  | field (f : Field)
  /-- A list over a related table, whose rows may be spread into the row they belong to. -/
  | embed (name : String) (spread : Bool) (clauses : Clauses) (entries : List SelectEntry)
      (joins : Joins)
  deriving Repr, Inhabited, BEq

/-- The entry for a field: a column if the field is nothing but its column. -/
def Field.toEntry (f : Field) : SelectEntry :=
  if f.path.isEmpty && f.cast.isNone && f.aggregate.isNone && f.column = some f.name then
    .column f.name
  else .field f

/-- A select list and the joins that its embeds declare. -/
structure Select where
  /-- The entries, in the order in which they are written. -/
  entries : List SelectEntry := []
  /-- The joins. -/
  joins : Joins := []
  deriving Repr, Inhabited, BEq

namespace SelectEntry

/-- The name of an entry in the output; the wildcard has none. -/
def name? : SelectEntry → Option String
  | .wildcard => none
  | .column name => some name
  | .field f => some f.name
  | .embed name _ _ _ _ => some name

/-- Whether an entry is an aggregate. -/
def isAggregate : SelectEntry → Bool
  | .field f => f.aggregate.isSome
  | _ => false

/-- The column that an entry other than an aggregate or an embed is taken from. -/
def sourceColumn? : SelectEntry → Option String
  | .column name => some name
  | .field f => if f.aggregate.isNone then f.column else none
  | _ => none

end SelectEntry

end RestQuery
