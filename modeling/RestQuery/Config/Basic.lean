import RestQuery.Handling

/-!
# Configurations

What an interface fixes for all its requests: where its paths begin, which segment marks a function,
which schemas there are, and the limits.
-/

namespace RestQuery

/-- A configuration. -/
structure Config where
  /-- What stands before the path of a request. -/
  basePath : String := ""
  /-- The segment that marks a function. -/
  rpcSegment : String := "rpc"
  /-- The schemas that a request may name; the first is the default. All may be named if there are
  none. -/
  schemas : List String := []
  /-- The handling of a request that asks for none. -/
  handling : Handling := .lenient
  /-- How deep embeds may nest. -/
  maxEmbedDepth : Nat := 16
  /-- How many bytes a body may have. -/
  maxBodyBytes : Nat := 10 * 1024 * 1024
  deriving DecidableEq, Repr, Inhabited

namespace Config

/-- The schema of a request that names none. -/
def defaultSchema? (c : Config) : Option String := c.schemas.head?

/-- Refuses a configuration under which nothing could be embedded or no function be called. -/
def validate (c : Config) : Except Error Config :=
  if c.maxEmbedDepth = 0 then .error (.config .noDepth)
  else if c.rpcSegment.isEmpty || c.rpcSegment.toList.contains '/' then
    .error (.config (.rpcSegment c.rpcSegment))
  else .ok c

end Config

end RestQuery
