import RestQuery.Filter.Basic
import RestQuery.Query.Context

/-!
# The filters of a query

Every parameter that is neither reserved nor a clause nor an argument is a condition, on a column or
on a group of them, and belongs to the root or to the embed that its key names. The name of an embed
alone stands for a test whether rows are related.

Under lenient handling a value that cannot be read is kept as it is, under the operator `$raw`.
-/

namespace RestQuery

/-- The filters of a query. -/
abbrev Filters := Routed Filter

namespace Filters

/-- How deep groups may nest. -/
def maxGroupDepth : Nat := 32

/-! ## Conditions on a column -/

/-- The predicate that keeps a value as it is, where `cause` may be passed over. -/
def keepRaw (h : Handling) (cause : Invalid) (s : List Char) : Except Error Predicate :=
  match h.report cause with
  | .error e => .error e
  | .ok () => .ok (Predicate.ofOperator .raw (.str (.ofList s)))

/-- Whether a text begins as a list does. -/
def beginsList (s : List Char) : Bool := s.head? = some '(' || s.head? = some '{'

/-- The predicate that an operator expression stands for. An operand that does not fit is malformed
if it begins as a list does, and invalid otherwise. -/
def predicate (h : Handling) (s : List Char) : Except Error Predicate :=
  match Expression.parse s with
  | .error fault => keepRaw h (.expression fault) s
  | .ok e =>
    match e.operator.readOperand e.config e.operand with
    | .ok value =>
      let p := Predicate.ofOperator e.operator value
      .ok (if e.negated then Predicate.negate p else p)
    | .error fault =>
      if beginsList e.operand then .error (.malformed (.operand fault))
      else keepRaw h (.operand fault) s

/-- Whether a text is `null`, in any case. -/
def isNullWord (s : List Char) : Bool := Text.lowerAscii s = "null".toList

/-- The comparison with `null` that an expression on an embed stands for: equal where no rows are
related, unequal where there are some. -/
def embedTest? (s : List Char) : Option Comparison :=
  match Expression.parse s with
  | .error _ => none
  | .ok e =>
    if isNullWord e.operand then
      match e.operator with
      | .is | .compare .eq none => some (if e.negated then .neq else .eq)
      | .compare .neq none => some (if e.negated then .eq else .neq)
      | _ => none
    else none

/-- The predicate on the embed called `name`, if the expression is a test for related rows. -/
def embedPredicate (h : Handling) (name : String) (s : List Char) :
    Except Error (Option Predicate) :=
  match embedTest? s with
  | some c => .ok (some (Predicate.ofOperator (.compare c none) .null))
  | none =>
    match h.report (.embedTest name (.ofList s)) with
    | .error e => .error e
    | .ok () => .ok none

/-! ## Groups -/

/-- The reader of a group inside another: what connects it, whether it is negated, and its text. -/
abbrev GroupReader := Connective → Bool → List Char → Except Error FilterEntry

/-- The fault of a condition that none of its cuts reads: the last one of a modifier among those of
the cuts, or else that of the whole text. -/
def conditionFault (s : List Char) (faults : List Expression.Fault) : Expression.Fault :=
  (faults.reverse.find? fun f => match f with
    | .modifier _ => true
    | .unknownOperator _ => false).getD (.unknownOperator s)

/-- Cuts a condition into a column and an operator expression. The column is the shortest that
leaves one, so it may hold points. -/
def splitCondition (s : List Char) : Except Expression.Fault (List Char × List Char) :=
  let cuts := (Text.cuts '.' s).filter fun p => !p.1.isEmpty
  match cuts.find? fun p => Expression.accepts p.2 with
  | some p => .ok p
  | none => .error (conditionFault s (cuts.filterMap fun p => match Expression.parse p.2 with
      | .error fault => some fault
      | .ok _ => none))

/-- The connective and the text of a group that stands as a condition. -/
def splitGroup (s : List Char) : Option (Connective × List Char) :=
  match s with
  | 'o' :: 'r' :: '(' :: rest => some (.or, '(' :: rest)
  | 'a' :: 'n' :: 'd' :: '(' :: rest => some (.and, '(' :: rest)
  | _ => none

/-- The negation, the connective and the text of a group that stands as a condition. -/
def splitNegatedGroup (s : List Char) : Option (Bool × Connective × List Char) :=
  match (Text.dropStart? "not.".toList s).bind splitGroup with
  | some (c, group) => some (true, c, group)
  | none => (splitGroup s).map fun (c, group) => (false, c, group)

/-- The path of a column of the root or of the embed at `path`. -/
def columnPath (path : Option String) (column : String) : String :=
  match path with
  | some path => path ++ "." ++ column
  | none => column

/-- The entry of a condition that cannot be cut in two: what follows its first point is kept as it
is, if that may be passed over. -/
def rawCondition (h : Handling) (s : List Char) (fault : Expression.Fault) :
    Except Error FilterEntry :=
  let (column, rest) := (Text.splitOnce '.' s).getD (s, [])
  if column.isEmpty then .error (.malformed (.noColumn (.ofList s)))
  else
    match keepRaw h (.condition (.ofList s) fault) rest with
    | .error e => .error e
    | .ok p => .ok (.column (.ofList column) p)

/-- The entry of a condition on a column of the root or of the embed at `path`; none if it is a test
on an embed that is passed over. -/
def columnCondition (ctx : Context) (path : Option String) (s : List Char) :
    Except Error (Option FilterEntry) :=
  match splitCondition s with
  | .error fault => some <$> rawCondition ctx.handling s fault
  | .ok (column, expression) =>
    let name := String.ofList column
    if ctx.hasEmbed (columnPath path name) then
      (·.map (FilterEntry.column name)) <$> embedPredicate ctx.handling name expression
    else
      (fun p => some (.column name p)) <$> predicate ctx.handling expression

/-- The entry of a condition in the group `group`; a group in it is read by `nested`. -/
def condition (ctx : Context) (path : Option String) (nested : GroupReader) (group : List Char)
    (s : List Char) : Except Error (Option FilterEntry) :=
  if s.isEmpty then .error (.malformed (.emptyCondition (.ofList group)))
  else
    match splitNegatedGroup s with
    | some (negated, c, inner) => some <$> nested c negated inner
    | none => columnCondition ctx path s

/-- The text in the round brackets around a group. -/
def unwrapGroup (s : List Char) : Except Error (List Char) :=
  match Text.trim s with
  | '(' :: inner =>
    match inner.reverse with
    | ')' :: contents => .ok contents.reverse
    | _ => .error (.malformed (.openGroup (.ofList s)))
  | _ => .error (.malformed (.openGroup (.ofList s)))

/-- The entry of a group of conditions. -/
def connect (c : Connective) (negated : Bool) (entries : List FilterEntry) : FilterEntry :=
  let filters := entries.map fun e => [e]
  let entry := match c with
    | .or => FilterEntry.or filters
    | .and => FilterEntry.and filters
  if negated then .not entry else entry

/-- Reads a group on the root or on the embed at `path`, in which groups nest less than `levels`
deep. -/
def group (ctx : Context) (path : Option String) : Nat → GroupReader
  | 0, _, _, _ => .error (.malformed (.deepGroup maxGroupDepth))
  | levels + 1, c, negated, s => do
    let inner ← unwrapGroup s
    match Value.splitTopLevel ',' inner with
    | .error fault => .error (.malformed (.group (.ofList s) fault))
    | .ok pieces =>
      let entries ← pieces.mapM fun piece =>
        condition ctx path (group ctx path levels) s (Text.trim piece)
      return connect c negated (entries.filterMap id)

/-! ## Parameters -/

/-- Adds an entry to the filter of the root or of the embed at `path`. -/
def addEntry (path : Option String) (entry : FilterEntry) (fs : Filters) : Filters :=
  fs.alter [] path fun f => Filter.push f entry

/-- A condition on the root or on the embed at a path. -/
abbrev RoutedEntry := Option String × FilterEntry

/-- The condition that a parameter with a column for its key stands for; none if it is a test on an
embed that is passed over. -/
def columnEntry (ctx : Context) (key value : String) : Except Error (Option RoutedEntry) :=
  let (path, column) := ctx.splitEmbed key
  if ctx.hasEmbed key then
    (·.map fun p => (path, .column column p)) <$> embedPredicate ctx.handling key value.toList
  else
    (fun p => some (path, .column column p)) <$> predicate ctx.handling value.toList

/-- The condition that a parameter with a connective for its key stands for; none if it is on an
embed that is not there and is passed over. -/
def groupEntry (ctx : Context) (key value : String) (path : Option String) (negated : Bool)
    (c : Connective) : Except Error (Option RoutedEntry) :=
  match path.filter fun p => !ctx.hasEmbed p with
  | some missing => do
    ctx.handling.report (.filterNotEmbedded key missing)
    return none
  | none => (fun e => some (path, e)) <$> group ctx path maxGroupDepth c negated value.toList

/-- The condition that a parameter stands for, if it stands for one. -/
def paramEntry (ctx : Context) (param : String × String) : Except Error (Option RoutedEntry) :=
  let (key, value) := param
  if ctx.isArgument key value then .ok none
  else
    match ParamKey.classify key with
    | .reserved | .clause .. => .ok none
    | .group path negated c => groupEntry ctx key value path negated c
    | .column _ => columnEntry ctx key value

/-- Adds the condition that a parameter stands for, if it stands for one. -/
def addParam (ctx : Context) (fs : Filters) (param : String × String) : Except Error Filters := do
  match ← paramEntry ctx param with
  | some (path, entry) => return addEntry path entry fs
  | none => return fs

/-- The filters that the parameters of a request stand for. -/
def ofContext (ctx : Context) : Except Error Filters :=
  ctx.params.foldlM (addParam ctx) { root := [] }

end Filters

end RestQuery
