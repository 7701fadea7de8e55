import RestQuery.Json.Basic

/-!
# Order terms

A term of a sort order names a column, a direction, and where `null` goes if that is said.
-/

namespace RestQuery

/-- The direction of a sort. -/
inductive Direction where
  | asc | desc
  deriving DecidableEq, Repr, Inhabited

/-- The word for a direction. -/
def Direction.name : Direction → String
  | .asc => "asc"
  | .desc => "desc"

/-- One term of a sort order. -/
structure OrderTerm where
  /-- The column, with the name of an embed and a point before it if it belongs to one. -/
  column : String
  /-- The direction. -/
  direction : Direction := .asc
  /-- Whether `null` comes first or last; as the database has it if nothing is said. -/
  nullsFirst : Option Bool := none
  deriving DecidableEq, Repr, Inhabited

/-- An order term as an object. -/
def OrderTerm.toJson (t : OrderTerm) : Json :=
  .obj ([("column", .str t.column), ("direction", .str t.direction.name)]
    ++ match t.nullsFirst with
      | some b => [("nullsFirst", .bool b)]
      | none => [])

end RestQuery
