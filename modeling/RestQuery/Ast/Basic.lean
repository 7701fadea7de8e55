import RestQuery.Query.Calls
import RestQuery.Query.Target
import RestQuery.Select.Json

/-!
# Query trees

The tree that a request stands for, independent of any database.
-/

namespace RestQuery

/-- A query tree. -/
structure Ast where
  /-- The operation. -/
  operation : Operation
  /-- The table or function. -/
  target : Target
  /-- The schema. -/
  schema : Option String
  /-- The select list, if the request has one. -/
  select : Option (List SelectEntry)
  /-- The joins that the embeds of the select list declare. -/
  joins : Joins
  /-- What applies to the rows of the table, or of the answer of the function. -/
  clauses : Clauses
  /-- The values that are written. -/
  values : Option Json
  /-- The arguments of a call. -/
  args : Option Json
  /-- What an upsert does about rows that are there already. -/
  onConflict : Option Conflict
  /-- What the request asks for beside its rows. -/
  metadata : Metadata
  deriving Repr

namespace Ast

/-- The member that names the target. -/
def targetMember : Target → String × Json
  | .table name => ("from", .str name)
  | .function name => ("function", .str name)

/-- The members of the object of a query tree. -/
def toMembers (a : Ast) : List (String × Json) :=
  ("type", .str a.operation.name) :: targetMember a.target
    :: optionalMember "schema" .str a.schema
    ++ optionalMember "select" (fun es => .arr (SelectEntry.toJsonAll es)) a.select
    ++ Joins.toMember a.joins
    ++ Filter.toMember a.clauses.filter
    ++ listMember "group" .str a.clauses.group
    ++ listMember "order" OrderTerm.toJson a.clauses.order
    ++ optionalMember "limit" Json.nat a.clauses.limit
    ++ optionalMember "offset" Json.nat a.clauses.offset
    ++ optionalMember "values" id a.values
    ++ optionalMember "args" id a.args
    ++ optionalMember "onConflict" Conflict.toJson a.onConflict
    ++ [("$meta", a.metadata.toJson)]

/-- A query tree as an object, as it is written. -/
def toJson (a : Ast) : Json := .obj a.toMembers

end Ast

end RestQuery
