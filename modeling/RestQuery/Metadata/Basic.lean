import RestQuery.Handling
import RestQuery.Select.Json

/-!
# Metadata

What a request asks for beside its rows: counts, the form of the answer, how a function is called.
-/

namespace RestQuery

/-- How rows are counted. -/
inductive CountMode where
  | exact | planned | estimated
  deriving DecidableEq, Repr

/-- The word for a way to count. -/
def CountMode.name : CountMode → String
  | .exact => "exact"
  | .planned => "planned"
  | .estimated => "estimated"

/-- Whether the answer is a list or a single row. -/
inductive Cardinality where
  | many | one
  deriving DecidableEq, Repr

/-- The word for a cardinality. -/
def Cardinality.name : Cardinality → String
  | .many => "many"
  | .one => "one"

/-- What stands in for a column that the payload does not give. -/
inductive Missing where
  | default | null
  deriving DecidableEq, Repr

/-- The word for a stand-in. -/
def Missing.name : Missing → String
  | .default => "default"
  | .null => "null"

/-- What a request that writes gives back. -/
inductive ReturnShape where
  | minimal | headersOnly | representation
  deriving DecidableEq, Repr

/-- The word for what is given back. -/
def ReturnShape.name : ReturnShape → String
  | .minimal => "minimal"
  | .headersOnly => "headers-only"
  | .representation => "representation"

/-- The form of a plan. -/
inductive PlanFormat where
  | text | json
  deriving DecidableEq, Repr, Inhabited

/-- The word for the form of a plan. -/
def PlanFormat.name : PlanFormat → String
  | .text => "text"
  | .json => "json"

/-- The plan of a query in place of its rows. -/
structure Plan where
  /-- The form. -/
  format : PlanFormat := .text
  /-- The media type that the plan is for. -/
  media : Option String := none
  /-- Whether the query is run. -/
  analyze : Bool := false
  /-- Whether more is shown. -/
  verbose : Bool := false
  /-- Whether settings are shown. -/
  settings : Bool := false
  /-- Whether buffers are shown. -/
  buffers : Bool := false
  /-- Whether the log is shown. -/
  wal : Bool := false
  deriving DecidableEq, Repr, Inhabited

/-- Where the arguments of a call come from. -/
inductive CallMethod where
  /-- From the query string. -/
  | get
  /-- From the body. -/
  | post
  deriving DecidableEq, Repr

/-- The word for where the arguments come from. -/
def CallMethod.name : CallMethod → String
  | .get => "get"
  | .post => "post"

/-- How the arguments of a call are passed. -/
inductive Convention where
  | named | positional | singleObject
  deriving DecidableEq, Repr

/-- The word for how arguments are passed. -/
def Convention.name : Convention → String
  | .named => "named"
  | .positional => "positional"
  | .singleObject => "singleObject"

/-- How a function is called. -/
structure CallStyle where
  /-- Where the arguments come from. -/
  method : CallMethod
  /-- How they are passed. -/
  convention : Convention
  deriving DecidableEq, Repr

/-- What a request asks for beside its rows. -/
structure Metadata where
  /-- How rows are counted. -/
  count : Option CountMode := none
  /-- Whether the answer is a list or a single row. -/
  cardinality : Option Cardinality := none
  /-- How invalid parts of the request were treated. -/
  handling : Handling := .lenient
  /-- What stands in for missing columns. -/
  missing : Option Missing := none
  /-- What is given back. -/
  returnShape : Option ReturnShape := none
  /-- Whether the changes are taken back at the end. -/
  rollback : Bool := false
  /-- How many rows may be changed at most. -/
  maxAffected : Option Nat := none
  /-- The time zone. -/
  timezone : Option String := none
  /-- The columns that are taken from the payload. -/
  columns : Option (List String) := none
  /-- The plan that is asked for. -/
  plan : Option Plan := none
  /-- A media type that is none of the known ones. -/
  accept : Option String := none
  /-- Whether the answer has no body. -/
  head : Bool := false
  /-- How a function is called. -/
  call : Option CallStyle := none
  deriving DecidableEq, Repr, Inhabited

/-- A plan as an object. -/
def Plan.toJson (p : Plan) : Json :=
  .obj ([("format", .str p.format.name)] ++ optionalMember "for" .str p.media
    ++ [("analyze", .bool p.analyze), ("verbose", .bool p.verbose), ("settings", .bool p.settings),
      ("buffers", .bool p.buffers), ("wal", .bool p.wal)])

/-- A style of calling as an object. -/
def CallStyle.toJson (c : CallStyle) : Json :=
  .obj [("method", .str c.method.name), ("convention", .str c.convention.name)]

/-- Metadata as an object. -/
def Metadata.toJson (m : Metadata) : Json :=
  .obj (optionalMember "count" (fun c => .str c.name) m.count
    ++ optionalMember "cardinality" (fun c => .str c.name) m.cardinality
    ++ [("handling", .str m.handling.name)]
    ++ optionalMember "missing" (fun x => .str x.name) m.missing
    ++ optionalMember "return" (fun r => .str r.name) m.returnShape
    ++ flagMember "rollback" m.rollback
    ++ optionalMember "maxAffected" Json.nat m.maxAffected
    ++ optionalMember "timezone" .str m.timezone
    ++ optionalMember "columns" Json.strings m.columns
    ++ optionalMember "explain" Plan.toJson m.plan
    ++ optionalMember "accept" .str m.accept
    ++ flagMember "head" m.head
    ++ optionalMember "call" CallStyle.toJson m.call)

end RestQuery
