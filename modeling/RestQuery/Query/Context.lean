import RestQuery.Handling
import RestQuery.Http.Body
import RestQuery.Http.Negotiation
import RestQuery.Query.Params
import RestQuery.Query.Target

/-!
# The context of a query

Everything that is known of a request once its parts are read. The parts of the query are all found
from a context, independently of each other.
-/

namespace RestQuery

/-- What is known of a request. -/
structure Context where
  /-- The method. -/
  method : Http.Method
  /-- The table or function. -/
  target : Target
  /-- What the headers ask for. -/
  negotiation : Http.Negotiation
  /-- The parameters of the query string. -/
  params : Params
  /-- The paths to all embeds of the select list. -/
  embeds : List String
  /-- The payload. -/
  payload : Option Payload
  /-- How invalid parts are treated. -/
  handling : Handling

namespace Context

/-- Whether the request only reads. -/
def isRead (ctx : Context) : Bool := ctx.method.isRead

/-- Whether the request calls a function with the parameters of its query string. -/
def isQueryCall (ctx : Context) : Bool := ctx.target.isFunction && ctx.isRead

/-- Whether a parameter is an argument of a call: the key could be a column, and the value is no
operator expression. -/
def isArgument (ctx : Context) (key value : String) : Bool :=
  ctx.isQueryCall
    && (match ParamKey.classify key with
      | .column _ => true
      | _ => false)
    && !Expression.accepts value.toList

/-- Whether there is an embed at a path. -/
def hasEmbed (ctx : Context) (path : String) : Bool := ctx.embeds.contains path

/-- The longest path to an embed that a key begins with, and what follows the point after it. -/
def splitEmbed (ctx : Context) (key : String) : Option String × String :=
  match ((Text.cuts '.' key.toList).filter fun p => ctx.hasEmbed (.ofList p.1)).getLast? with
  | some (path, rest) => (some (.ofList path), .ofList rest)
  | none => (none, key)

end Context

/-- A part of a query for the root and for embeds by their paths. -/
structure Routed (α : Type) where
  /-- The part for the root. -/
  root : α
  /-- The parts for embeds. -/
  embedded : Keyed α := []
  deriving Repr

/-- Changes the part for the root, or for the embed at a path; an embed without one has `empty`. -/
def Routed.alter {α : Type} (empty : α) (path : Option String) (change : α → α) (r : Routed α) :
    Routed α :=
  match path with
  | none => { r with root := change r.root }
  | some path => { r with embedded := Keyed.alter path (fun x => change (x.getD empty)) r.embedded }

end RestQuery
