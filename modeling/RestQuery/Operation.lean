/-!
# Operations

What a request does with its table or function.
-/

namespace RestQuery

/-- The kind of an operation. -/
inductive Operation where
  /-- Reads rows. -/
  | query
  /-- Adds rows. -/
  | insert
  /-- Changes rows. -/
  | update
  /-- Removes rows. -/
  | delete
  /-- Adds rows, or changes those that are there. -/
  | upsert
  /-- Puts a single row in place. -/
  | put
  /-- Calls a function. -/
  | rpc
  deriving DecidableEq, Repr, Inhabited

namespace Operation

/-- All operations. -/
def all : List Operation := [.query, .insert, .update, .delete, .upsert, .put, .rpc]

/-- The name of an operation. -/
def name : Operation → String
  | .query => "query"
  | .insert => "insert"
  | .update => "update"
  | .delete => "delete"
  | .upsert => "upsert"
  | .put => "put"
  | .rpc => "rpc"

/-- Whether the payload gives the values of the operation. -/
def isWrite (o : Operation) : Bool := o = .insert || o = .update || o = .upsert || o = .put

/-- Whether the operation takes a list of columns. -/
def isInsertLike (o : Operation) : Bool := o = .insert || o = .upsert

end Operation

end RestQuery
