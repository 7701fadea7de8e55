import RestQuery.File
import RestQuery.Operation
import RestQuery.Operator.Expression
import RestQuery.Operator.Operand
import RestQuery.Select.Parser
import RestQuery.Text.Utf8
import RestQuery.Url.Basic
import RestQuery.Value.Delimited

/-!
# Errors

Why a request gives no query. An error is a cause; its kind, the stage that found it, its status and
its wording follow from the cause. A malformed request always fails. A request that is only invalid
fails under strict handling, and under lenient handling what is invalid is passed over.
-/

namespace RestQuery

/-- Where an error was found. -/
inductive Stage where
  | route | headers | select | body | queryParams | operation | filter | transform | metadata | rpc
  | upsert | assembler
  deriving DecidableEq, Repr

namespace Stage

/-- All stages. -/
def all : List Stage :=
  [.route, .headers, .select, .body, .queryParams, .operation, .filter, .transform, .metadata, .rpc,
   .upsert, .assembler]

/-- The name of a stage in a message. -/
def name : Stage → String
  | .route => "route"
  | .headers => "headers"
  | .select => "select"
  | .body => "body"
  | .queryParams => "query params"
  | .operation => "operation"
  | .filter => "filter"
  | .transform => "transform"
  | .metadata => "meta"
  | .rpc => "rpc"
  | .upsert => "upsert"
  | .assembler => "assembler"

/-- The name of a stage as an identifier. -/
def identifier : Stage → String
  | .queryParams => "queryParams"
  | s => s.name

end Stage

/-- A text between apostrophes. -/
def inQuotes (s : String) : String := "'" ++ s ++ "'"

/-! ## Malformed requests -/

/-- Causes that make a request fail whatever the handling. -/
inductive Malformed where
  /-- The target is no URL. -/
  | target (target : String) (fault : Url.Fault)
  /-- The path holds the segment of functions alone. -/
  | noFunction (segment : String)
  /-- The path holds no segment. -/
  | noResource
  /-- The path holds too many segments. -/
  | longPath (path : String)
  /-- The path does not begin with the base path. -/
  | outsideBase (path base : String)
  /-- A segment of the path is not UTF-8. -/
  | segmentNotUtf8 (fault : Text.Utf8.Fault)
  /-- The name of a header is no token. -/
  | headerName (name : String)
  /-- The value of a header holds a control character. -/
  | headerValue (name : String)
  /-- The value of a header holds a character beyond ASCII. -/
  | headerNotAscii (name : String)
  /-- The media type of the body is not known. -/
  | contentType (media : String)
  /-- The body is not JSON. -/
  | json
  /-- The method has no operation on the target. -/
  | method (method target : String)
  /-- An operand that looks like a list does not fit its operator. -/
  | operand (fault : Operator.OperandFault)
  /-- Groups nest too deep. -/
  | deepGroup (levels : Nat)
  /-- A group does not stand in brackets. -/
  | openGroup (group : String)
  /-- A group cannot be cut into conditions. -/
  | group (group : String) (fault : Value.Fault)
  /-- A condition of a group is empty. -/
  | emptyCondition (group : String)
  /-- A condition of a group begins with a point. -/
  | noColumn (condition : String)
  /-- A sort order cannot be cut into terms. -/
  | order (order : String) (fault : Value.Fault)
  /-- A bracket in a term of a sort order is not closed. -/
  | openOrder (term : String)
  deriving DecidableEq, Repr

/-- The stage that finds a cause. -/
def Malformed.stage : Malformed → Stage
  | .target .. | .noFunction .. | .noResource | .longPath .. | .outsideBase ..
  | .segmentNotUtf8 .. => .route
  | .headerName .. | .headerValue .. | .headerNotAscii .. => .headers
  | .contentType .. | .json => .body
  | .method .. => .operation
  | .operand .. | .deepGroup .. | .openGroup .. | .group .. | .emptyCondition ..
  | .noColumn .. => .filter
  | .order .. | .openOrder .. => .transform

/-- The wording of a cause. -/
def Malformed.message : Malformed → String
  | .target text fault => "invalid request target " ++ inQuotes text ++ ": " ++ fault.message
  | .noFunction segment => inQuotes segment ++ " path names no function"
  | .noResource => "path names no table or function"
  | .longPath path => "unsupported path " ++ inQuotes path
  | .outsideBase path base => "path " ++ inQuotes path ++ " is outside " ++ inQuotes base
  | .segmentNotUtf8 fault => "path segment is not UTF-8: " ++ fault.message
  | .headerName name => "invalid header name " ++ inQuotes name ++ ": invalid HTTP header name"
  | .headerValue name => "invalid value for " ++ inQuotes name ++ ": failed to parse header value"
  | .headerNotAscii name => inQuotes name ++ " header is not visible ASCII"
  | .contentType media => "unsupported content type " ++ inQuotes media
  | .json => "invalid JSON payload"
  | .method name resource => "method " ++ name ++ " is not supported on " ++ resource
  | .operand fault => fault.message
  | .deepGroup levels => s!"logical groups nested deeper than {levels}"
  | .openGroup text => "logical group must be wrapped in parentheses: " ++ inQuotes text
  | .group text fault => "malformed logical group " ++ inQuotes text ++ ": " ++ fault.message
  | .emptyCondition text => "empty condition in " ++ inQuotes text
  | .noColumn condition => "condition " ++ inQuotes condition ++ " names no column"
  | .order text fault => "malformed order " ++ inQuotes text ++ ": " ++ fault.message
  | .openOrder term => "unclosed '(' in order " ++ inQuotes term

/-! ## Invalid requests -/

/-- Causes that make a request fail under strict handling. -/
inductive Invalid where
  /-- The schema is not one of those that are allowed. -/
  | schema (schema : String) (allowed : List String)
  /-- The way to treat duplicates is not known. -/
  | resolution (known : List String) (value : String)
  /-- A filter belongs to an embed that the select list does not have. -/
  | filterNotEmbedded (key path : String)
  /-- The value of a filter is no operator expression. -/
  | expression (fault : Expression.Fault)
  /-- An operand does not fit its operator. -/
  | operand (fault : Operator.OperandFault)
  /-- An embed is tested otherwise than for related rows. -/
  | embedTest (name value : String)
  /-- A condition of a group is no column with an operator expression. -/
  | condition (condition : String) (fault : Expression.Fault)
  /-- A clause belongs to an embed that the select list does not have. -/
  | clauseNotEmbedded (key path : String)
  /-- A limit or an offset is no count. -/
  | count (key value : String)
  /-- A term of a sort order has something after its column. -/
  | orderTail (tail term : String)
  /-- A term of a sort order has no column. -/
  | orderColumn (term : String)
  /-- A word in a term of a sort order is not known or not in its place. -/
  | orderWord (word term : String)
  /-- The handling is not known. -/
  | handling (value : String)
  /-- Columns are given for an operation that takes none. -/
  | columns (operation : Operation)
  /-- The value of a preference is not known. -/
  | preference (key expected value : String)
  /-- A preference is not known. -/
  | unknownPreference (key : String)
  /-- The form of a plan is not known from its media type. -/
  | planMedia (ending : String)
  /-- The form of a plan is not known. -/
  | planFormat (value : String)
  /-- An option of a plan is not known. -/
  | planOption (option : String)
  /-- The way to pass a payload to a function is not known. -/
  | params (value : String)
  /-- The payload of a call has no members or items to pass. -/
  | callPayload
  /-- There is no embed at a path. -/
  | noEmbed (path : String)
  /-- Two entries of a select list have one name. -/
  | duplicateName (name : String)
  /-- A column belongs to an embed that its level does not have. -/
  | dangling (column : String)
  deriving DecidableEq, Repr

/-- The stage that finds a cause. -/
def Invalid.stage : Invalid → Stage
  | .schema .. => .headers
  | .resolution .. => .operation
  | .filterNotEmbedded .. | .expression .. | .operand .. | .embedTest .. | .condition .. => .filter
  | .clauseNotEmbedded .. | .count .. | .orderTail .. | .orderColumn ..
  | .orderWord .. => .transform
  | .handling .. | .columns .. | .preference .. | .unknownPreference .. | .planMedia ..
  | .planFormat .. | .planOption .. => .metadata
  | .params .. | .callPayload => .rpc
  | .noEmbed .. | .duplicateName .. | .dangling .. => .assembler

/-- The start of the message of a cause that is found by `stage`. -/
def Invalid.heading (stage : Stage) : String := "Validation error in " ++ stage.name ++ ": "

/-- The wording of a cause. -/
def Invalid.message : Invalid → String
  | .schema name allowed =>
    "schema " ++ inQuotes name ++ " is not one of: " ++ ", ".intercalate allowed
  | .resolution known value =>
    "resolution must be one of " ++ ", ".intercalate known ++ ", got " ++ inQuotes value
  | .filterNotEmbedded key path | .clauseNotEmbedded key path =>
    inQuotes key ++ " refers to " ++ inQuotes path ++ ", which is not embedded in select"
  | .expression fault => fault.message
  | .operand fault => Invalid.heading .filter ++ fault.message
  | .embedTest name value =>
    inQuotes name ++ " is an embedded resource; only is.null and not.is.null apply to it, got "
      ++ inQuotes value
  | .condition text fault =>
    "cannot read condition " ++ inQuotes text ++ ": " ++ fault.message
  | .count key value => inQuotes key ++ " must be a non-negative integer, got " ++ inQuotes value
  | .orderTail tail term => "unexpected " ++ inQuotes tail ++ " in order " ++ inQuotes term
  | .orderColumn term => "order term " ++ inQuotes term ++ " names no column"
  | .orderWord word term =>
    "unknown or misplaced order modifier " ++ inQuotes word ++ " in " ++ inQuotes term
  | .handling value => "handling must be strict or lenient, got " ++ inQuotes value
  | .columns operation =>
    "'columns' only applies to inserts and upserts, not " ++ operation.name
  | .preference key expected value =>
    "Prefer " ++ inQuotes key ++ " accepts " ++ expected ++ ", got " ++ inQuotes value
  | .unknownPreference key => "unknown Prefer key " ++ inQuotes key
  | .planMedia ending => "unknown plan media type suffix " ++ inQuotes ending
  | .planFormat value => "plan format must be text or json, got " ++ inQuotes value
  | .planOption option => "unknown explain option " ++ inQuotes option
  | .params value => "Prefer 'params' accepts single-object, got " ++ inQuotes value
  | .callPayload =>
    "call payload must be a JSON object or array; use Prefer: params=single-object to pass it whole"
  | .noEmbed path => "no embedded resource at " ++ inQuotes path
  | .duplicateName name => "duplicate alias " ++ inQuotes name ++ " in select"
  | .dangling column => inQuotes column ++ " does not refer to an embedded resource"

/-! ## Bodies and configurations -/

/-- Causes that keep a body from being read. -/
inductive BodyFault where
  /-- The body breaks off, with a reason in words. -/
  | broken (reason : String)
  /-- The body is longer than allowed. -/
  | tooLong (limit : Nat)
  /-- The body is not UTF-8. -/
  | notUtf8 (fault : Text.Utf8.Fault)
  deriving DecidableEq, Repr

/-- The wording of a cause. -/
def BodyFault.message : BodyFault → String
  | .broken reason => "failed to read body: " ++ reason
  | .tooLong limit => s!"payload exceeds {limit} bytes"
  | .notUtf8 fault => "payload is not UTF-8: " ++ fault.message

/-- Causes that keep a configuration from being used. -/
inductive ConfigFault where
  /-- The file is not a configuration. -/
  | unreadable
  /-- No embed would be allowed. -/
  | noDepth
  /-- The segment of functions is empty or more than one segment. -/
  | rpcSegment (value : String)
  /-- The file cannot be read. -/
  | file (fault : FileFault)
  deriving DecidableEq, Repr

/-! ## Errors -/

/-- Why a request gives no query. -/
inductive Error where
  /-- The select list cannot be read. -/
  | select (failure : Select.Failure)
  /-- The request is malformed. -/
  | malformed (cause : Malformed)
  /-- The request is invalid. -/
  | invalid (cause : Invalid)
  /-- The body cannot be read. -/
  | body (cause : BodyFault)
  /-- The configuration cannot be used. -/
  | config (cause : ConfigFault)
  deriving DecidableEq, Repr

namespace Error

/-- What an error means for the request. -/
inductive Kind where
  | parse | validation | body | config
  deriving DecidableEq, Repr

/-- The name of a kind. -/
def Kind.name : Kind → String
  | .parse => "parse"
  | .validation => "validation"
  | .body => "body"
  | .config => "config"

/-- The kind of an error. -/
def kind : Error → Kind
  | .select _ | .malformed _ => .parse
  | .invalid _ => .validation
  | .body _ => .body
  | .config _ => .config

/-- The stage that found an error; a configuration belongs to none. -/
def stage? : Error → Option Stage
  | .select _ => some .select
  | .malformed cause => some cause.stage
  | .invalid cause => some cause.stage
  | .body _ => some .body
  | .config _ => none

/-- The place of an error in a select list, in characters from its start. -/
def position? : Error → Option Nat
  | .select failure => some failure.position
  | _ => none

/-- Whether a text holds another. -/
def holds (part : List Char) : List Char → Bool
  | [] => part.isEmpty
  | c :: s => part.isPrefixOf (c :: s) || holds part s

/-- The status of the response. A body is too large if its message says that it exceeds a limit. -/
def status : Error → Nat
  | .select _ | .malformed _ | .invalid _ => 400
  | .body cause => if holds "exceeds".toList cause.message.toList then 413 else 400
  | .config _ => 500

/-- The wording of an error. -/
def message : Error → String
  | .select ⟨position, fault⟩ => s!"Parse error in select at position {position}: {fault.message}"
  | .malformed cause => "Parse error in " ++ cause.stage.name ++ ": " ++ cause.message
  | .invalid cause => Invalid.heading cause.stage ++ cause.message
  | .body cause => "Body error: " ++ cause.message
  | .config .unreadable => "Configuration error: Failed to parse"
  | .config .noDepth => "Configuration error: max_embed_depth must be at least 1"
  | .config (.rpcSegment value) =>
    "Configuration error: rpc_prefix must be a single path segment, got " ++ inQuotes value
  | .config (.file fault) => "IO error: " ++ fault.message

end Error

end RestQuery
