import RestQuery.Ast.Assembly
import RestQuery.Http.Headers
import RestQuery.Metadata.Preferences

/-!
# Requests

A request is read part by part, and what its parts say is resolved into a query tree. Of several
faults the first in the order of reading is reported: the target, the path, the headers, the select
list, the body, and then the parts of the query in the order in which they are put together.
-/

namespace RestQuery

/-- A request. -/
structure Request where
  /-- The method. -/
  method : Http.Method
  /-- The target: a path with a query string, or a whole URL. -/
  target : String
  /-- The headers. -/
  headers : Http.Headers := []
  /-- The body. -/
  body : Http.Body := none

namespace Request

/-- A request with the headers made of names and values. -/
def make (method : Http.Method) (target : String) (headers : List (String × String))
    (body : Http.Body) : Except Error Request := do
  let headers ← Http.Headers.ofPairs headers
  return { method, target, headers, body }

/-- The request with the path and query of its target alone. -/
def withOriginForm (r : Request) : Request :=
  { r with target := .ofList (Url.originForm r.target.toList) }

/-- Reads the select list that the parameters give, if they give one. -/
def readSelect (config : Config) (params : Params) : Except Error (Option Select) :=
  match Params.last? params "select" with
  | none => .ok none
  | some s =>
    match Select.parse config.maxEmbedDepth s.toList with
    | .ok select => .ok (some select)
    | .error failure => .error (.select failure)

/-- The value that a payload gives an operation; a call has arguments instead. -/
def valuesOf (operation : Operation) (payload : Option Payload) : Option Json :=
  if operation = .rpc then none else payload.map (·.value)

/-- The call of an operation that is one. -/
def callOf (ctx : Context) (operation : Operation) : Except Error (Option Call) :=
  if operation = .rpc then some <$> Call.ofContext ctx else .ok none

/-- The parts of the query that a context stands for, with its select list. -/
def parts (ctx : Context) (select : Option Select) : Except Error Parts := do
  let operation ← Operation.ofContext ctx
  let filters ← Filters.ofContext ctx
  let windows ← Windows.ofContext ctx
  let metadata ← Metadata.ofContext ctx operation
  let call ← callOf ctx operation
  let conflict := if operation = .upsert then some (Conflict.ofContext ctx) else none
  return {
    operation, target := ctx.target, schema := ctx.negotiation.schema, select, filters, windows
    metadata, call, conflict, values := valuesOf operation ctx.payload }

/-- Reads the parts of a request: what is known of it, with its select list. -/
def read (config : Config) (r : Request) : Except Error (Context × Option Select) := do
  let url ← Url.ofTarget r.target
  let params := Params.ofQuery url.query
  let contentType ← r.headers.first? "content-type"
  let target ← Target.ofPath config url.path
  let negotiation ← Http.Negotiation.ofHeaders config r.method r.headers
  let select ← readSelect config params
  let payload ← Http.Body.read config.maxBodyBytes contentType r.body
  let handling ← Handling.ofNegotiation config negotiation
  let embeds := (select.map (·.embedPaths)).getD []
  return ({ method := r.method, target, negotiation, params, embeds, payload, handling }, select)

/-- The query tree that a request stands for under a configuration. -/
def toAst (config : Config) (r : Request) : Except Error Ast := do
  let (ctx, select) ← r.read config
  let p ← parts ctx select
  p.assemble

end Request

end RestQuery
