import RestQuery.Metadata.Basic
import RestQuery.Query.Context

/-!
# Operations, calls and conflicts

The operation follows from the method and the target. A function is called with arguments from the
query string if the request only reads, and from the body otherwise. An upsert says which columns
make rows the same and what happens to such rows.
-/

namespace RestQuery

/-! ## Operations -/

namespace Operation

/-- The ways to treat duplicates that a request may ask for. -/
def resolutions : List String := ["merge-duplicates", "ignore-duplicates"]

/-- The operation of a request that adds rows. -/
def ofPost (ctx : Context) : Except Error Operation :=
  match ctx.negotiation.preference? "resolution" with
  | none => .ok .insert
  | some resolution =>
    if resolutions.contains resolution then .ok .upsert
    else do
      ctx.handling.report (.resolution resolutions resolution)
      return .insert

/-- The operation of a request. -/
def ofContext (ctx : Context) : Except Error Operation :=
  match ctx.target with
  | .function name =>
    match ctx.method with
    | .get | .head | .post => .ok .rpc
    | method => .error (.malformed (.method method.name ("function " ++ inQuotes name)))
  | .table name =>
    match ctx.method with
    | .get | .head => .ok .query
    | .post => ofPost ctx
    | .patch => .ok .update
    | .put => .ok .put
    | .delete => .ok .delete
    | .other method => .error (.malformed (.method method ("table " ++ inQuotes name)))

end Operation

/-! ## Calls -/

/-- How a function is called. -/
structure Call where
  /-- The arguments. -/
  args : Json
  /-- The style of the call. -/
  style : CallStyle
  deriving Repr

namespace Call

/-- The call with the arguments of the query string. -/
def ofQuery (ctx : Context) : Call :=
  ⟨Json.ofPairs (ctx.params.filter fun p => ctx.isArgument p.1 p.2), ⟨.get, .named⟩⟩

/-- Whether the payload is passed as a whole. -/
def passesWhole (ctx : Context) : Except Error Bool :=
  match ctx.negotiation.preference? "params" with
  | none => .ok false
  | some value =>
    if value = "single-object" then .ok true
    else do
      ctx.handling.report (.params value)
      return false

/-- The arguments that a payload holds, and how they are passed. -/
def ofPayload (h : Handling) (whole : Bool) : Option Payload → Except Error (Json × Convention)
  | none => .ok (.obj [], .named)
  | some payload =>
    if whole then .ok (payload.value, .singleObject)
    else
      match payload with
      | .json (.obj members) => .ok (.obj members, .named)
      | .json (.arr items) => .ok (.arr items, .positional)
      | payload => do
        h.report .callPayload
        return (payload.value, .singleObject)

/-- The call with the arguments of the body. -/
def ofBody (ctx : Context) : Except Error Call := do
  let whole ← passesWhole ctx
  let (args, convention) ← ofPayload ctx.handling whole ctx.payload
  return ⟨args, ⟨.post, convention⟩⟩

/-- The call that a request makes. -/
def ofContext (ctx : Context) : Except Error Call :=
  if ctx.isRead then .ok (ofQuery ctx) else ofBody ctx

end Call

/-! ## Conflicts -/

/-- What an upsert does about rows that are there already. -/
structure Conflict where
  /-- The columns by which rows are the same. -/
  columns : List String := []
  /-- Whether such rows are left as they are. -/
  ignoreDuplicates : Bool := false
  deriving DecidableEq, Repr

/-- A conflict as an object. -/
def Conflict.toJson (c : Conflict) : Json :=
  .obj [("columns", .strings c.columns), ("ignoreDuplicates", .bool c.ignoreDuplicates)]

/-- What the request says about rows that are there already. -/
def Conflict.ofContext (ctx : Context) : Conflict where
  columns := match Params.last? ctx.params "on_conflict" with
    | some columns =>
      (((Text.splitAll ',' columns.toList).map Text.trim).filter fun c => !c.isEmpty).map
        String.ofList
    | none => []
  ignoreDuplicates := ctx.negotiation.preference? "resolution" = some "ignore-duplicates"

end RestQuery
