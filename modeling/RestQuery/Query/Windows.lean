import RestQuery.Order.Parser
import RestQuery.Query.Context

/-!
# The windows of a query

The order, limit and offset of the root and of each embed. Orders add up; of two limits or offsets
the last counts.
-/

namespace RestQuery

/-- Which rows of a level are given, and in which order. -/
structure Window where
  /-- The order. -/
  order : List OrderTerm := []
  /-- How many rows are given at most. -/
  limit : Option Nat := none
  /-- How many rows are passed over. -/
  offset : Option Nat := none
  deriving DecidableEq, Repr, Inhabited

/-- The windows of a query. -/
abbrev Windows := Routed Window

namespace Windows

/-- The count that a value stands for. -/
def readCount (key value : String) : Except Error Nat :=
  match Text.Numeral.toCount? (Text.trim value.toList) with
  | some n => .ok n
  | none => .error (.invalid (.count key value))

/-- What a clause makes of a window. -/
def change (h : Handling) (c : Clause) (key value : String) : Except Error (Window → Window) :=
  match c with
  | .order => do
    match ← h.check (OrderTerm.parseAll value.toList) with
    | some terms => return fun w => { w with order := w.order ++ terms }
    | none => return id
  | .limit => do
    match ← h.check (readCount key value) with
    | some n => return fun w => { w with limit := some n }
    | none => return id
  | .offset => do
    match ← h.check (readCount key value) with
    | some n => return fun w => { w with offset := some n }
    | none => return id

/-- Adds the clause that a parameter stands for, if it is one. -/
def addParam (ctx : Context) (ws : Windows) (param : String × String) : Except Error Windows :=
  let (key, value) := param
  match ParamKey.classify key with
  | .clause path c =>
    match path.filter fun p => !ctx.hasEmbed p with
    | some missing => do
      ctx.handling.report (.clauseNotEmbedded key missing)
      return ws
    | none => do
      let f ← change ctx.handling c key value
      return ws.alter {} path f
  | _ => .ok ws

/-- The windows that the parameters of a request stand for. -/
def ofContext (ctx : Context) : Except Error Windows :=
  ctx.params.foldlM (addParam ctx) { root := {} }

end Windows

end RestQuery
