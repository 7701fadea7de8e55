import RestQuery.Config.Basic
import RestQuery.Url.Basic

/-!
# Targets

The path of a request names a table, or a function after the segment that marks functions.
-/

namespace RestQuery

/-- What a request is about. -/
inductive Target where
  /-- A table. -/
  | table (name : String)
  /-- A function. -/
  | function (name : String)
  deriving DecidableEq, Repr

namespace Target

/-- The name of the table or function. -/
def name : Target → String
  | .table name => name
  | .function name => name

/-- Whether a target is a function. -/
def isFunction : Target → Bool
  | .table _ => false
  | .function _ => true

/-- A text without the slashes at its end. -/
def trimSlashes (s : List Char) : List Char := (s.reverse.dropWhile (· = '/')).reverse

/-- The path after the base path, which must end where a segment ends. -/
def stripBase (base path : List Char) : Except Error (List Char) :=
  let base := trimSlashes base
  if base.isEmpty then .ok path
  else
    match Text.dropStart? base path with
    | some [] => .ok []
    | some ('/' :: rest) => .ok ('/' :: rest)
    | _ => .error (.malformed (.outsideBase (.ofList path) (.ofList base)))

/-- The text of a segment. -/
def decodeSegment (s : List Char) : Except Error String :=
  match Text.Utf8.decode (Url.percentDecodeText s) with
  | .ok cs => .ok (.ofList cs)
  | .error fault => .error (.malformed (.segmentNotUtf8 fault))

/-- The segments of a path; slashes may be repeated. -/
def segments (path : List Char) : Except Error (List String) :=
  ((Text.splitAll '/' path).filter fun s => !s.isEmpty).mapM decodeSegment

/-- The target that segments of the path `path` name. -/
def ofSegments (rpcSegment : String) (path : List Char) : List String → Except Error Target
  | [] => .error (.malformed .noResource)
  | [only] =>
    if only = rpcSegment then .error (.malformed (.noFunction only)) else .ok (.table only)
  | [first, second] =>
    if first = rpcSegment then .ok (.function second)
    else .error (.malformed (.longPath (.ofList path)))
  | _ => .error (.malformed (.longPath (.ofList path)))

/-- The target that a path names. -/
def ofPath (config : Config) (path : List Char) : Except Error Target := do
  let rest ← stripBase config.basePath.toList path
  ofSegments config.rpcSegment path (← segments rest)

end Target

/-- The URL of a request target. -/
def Url.ofTarget (target : String) : Except Error Url :=
  match Url.resolve target.toList with
  | .ok url => .ok url
  | .error fault => .error (.malformed (.target target fault))

end RestQuery
