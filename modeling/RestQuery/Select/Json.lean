import RestQuery.Filter.Json
import RestQuery.Select.Basic

/-!
# Select lists as JSON

The wildcard and a plain column are texts; any other entry is an object with one member, whose name
is that of the entry. Clauses that say nothing are left out.
-/

namespace RestQuery

/-- A member that is left out where there is no value. -/
def optionalMember {α : Type} (key : String) (toJson : α → Json) : Option α → List (String × Json)
  | some x => [(key, toJson x)]
  | none => []

/-- A member for a list, left out where the list is empty. -/
def listMember {α : Type} (key : String) (toJson : α → Json) (xs : List α) : List (String × Json) :=
  if xs.isEmpty then [] else [(key, .arr (xs.map toJson))]

/-- A member for a mark, left out where the mark is not set. -/
def flagMember (key : String) (b : Bool) : List (String × Json) :=
  if b then [(key, .bool true)] else []

/-- A join as an object. -/
def Join.toJson (j : Join) : Json :=
  .obj ([("table", .str j.table), ("type", .str j.type.name)] ++ optionalMember "hint" .str j.hint)

/-- Joins as an object. -/
def Joins.toJson (joins : Joins) : Json := .obj (joins.map fun p => (p.1, p.2.toJson))

/-- A member for joins, left out where there are none. -/
def Joins.toMember (joins : Joins) : List (String × Json) :=
  if joins.isEmpty then [] else [("join", Joins.toJson joins)]

/-- A step of a path as JSON. -/
def PathKey.toJson : PathKey → Json
  | .key name => .str name
  | .index n => .int n

/-- A field as an object, without its name. -/
def Field.toJson (f : Field) : Json :=
  .obj (optionalMember "column" .str f.column ++ listMember "path" PathKey.toJson f.path
    ++ flagMember "pathAsText" f.pathAsText ++ optionalMember "preCast" .str f.preCast
    ++ optionalMember "aggregate" (fun a => .str a.name) f.aggregate
    ++ optionalMember "cast" .str f.cast)

/-- A member for a filter, left out where the filter is empty. -/
def Filter.toMember (f : Filter) : List (String × Json) :=
  if f.isEmpty then [] else [("where", Filter.toJson f)]

mutual

/-- An entry of a select list as JSON. -/
def SelectEntry.toJson : SelectEntry → Json
  | .wildcard => .str "*"
  | .column name => .str name
  | .field f => .obj [(f.name, f.toJson)]
  | .embed name spread clauses entries joins =>
    .obj [(name, .obj (("select", .arr (SelectEntry.toJsonAll entries))
      :: Filter.toMember clauses.filter
      ++ listMember "order" OrderTerm.toJson clauses.order
      ++ optionalMember "limit" Json.nat clauses.limit
      ++ optionalMember "offset" Json.nat clauses.offset
      ++ listMember "group" .str clauses.group
      ++ flagMember "spread" spread
      ++ Joins.toMember joins))]

/-- The entries of a select list as JSON. -/
def SelectEntry.toJsonAll : List SelectEntry → List Json
  | [] => []
  | e :: rest => e.toJson :: SelectEntry.toJsonAll rest

end

end RestQuery
