import RestQuery.Ast.Basic
import RestQuery.Filter.Columns
import RestQuery.Metadata.Basic
import RestQuery.Query.Filters
import RestQuery.Query.Windows
import RestQuery.Select.Paths

/-!
# Putting a query tree together

The parts of a query, each found on its own, are joined into one tree. On the way names are made
distinct at each level, every part for an embed is put into that embed, columns that name an embed
which their level does not have are refused, and each level gets its joins and its groups.
-/

namespace RestQuery

/-! ## Distinct names -/

namespace SelectEntry

/-- Reports the entries of a level whose name another has before them. -/
def checkNames (h : Handling) : List String → List SelectEntry → Except Error Unit
  | _, [] => .ok ()
  | seen, e :: rest =>
    match e.name? with
    | none => checkNames h seen rest
    | some name =>
      if seen.contains name then do
        h.report (.duplicateName name)
        checkNames h seen rest
      else checkNames h (name :: seen) rest

mutual

/-- Makes the names in an embed distinct. -/
def dedupe (h : Handling) : SelectEntry → Except Error SelectEntry
  | .embed name spread clauses entries joins => do
    checkNames h [] entries
    let entries ← dedupeAll h [] entries
    return .embed name spread clauses entries joins
  | e => .ok e

/-- Drops the entries whose name is among those seen before them, and makes the names in the others
distinct. -/
def dedupeAll (h : Handling) : List String → List SelectEntry → Except Error (List SelectEntry)
  | _, [] => .ok []
  | seen, e :: rest =>
    match e.name? with
    | none => do
      let rest ← dedupeAll h seen rest
      return e :: rest
    | some name =>
      if seen.contains name then dedupeAll h seen rest
      else do
        let e ← dedupe h e
        let rest ← dedupeAll h (name :: seen) rest
        return e :: rest

end

/-- Makes the names of a list distinct at each level: of two entries of one name the first stays. -/
def distinctNames (h : Handling) (entries : List SelectEntry) :
    Except Error (List SelectEntry) := do
  checkNames h [] entries
  dedupeAll h [] entries

/-! ## Parts of embeds -/

/-- Changes the clauses of the embed at a path, which must be there. -/
def changeAt (path : String) (change : Clauses → Clauses) (entries : List SelectEntry) :
    Except Error (List SelectEntry) :=
  match modifyPath? (mapClauses change) path entries with
  | some entries => .ok entries
  | none => .error (.invalid (.noEmbed path))

/-- Puts a filter into the embed at a path. -/
def putFilter (entries : List SelectEntry) (part : String × Filter) :
    Except Error (List SelectEntry) :=
  changeAt part.1 (fun c => { c with filter := Filter.pushAll c.filter part.2 }) entries

/-- The clauses with those of a window. -/
def addWindow (w : Window) (c : Clauses) : Clauses :=
  { c with
    order := c.order ++ w.order
    limit := w.limit.or c.limit
    offset := w.offset.or c.offset }

/-- Puts a window into the embed at a path. -/
def putWindow (entries : List SelectEntry) (part : String × Window) :
    Except Error (List SelectEntry) :=
  changeAt part.1 (addWindow part.2) entries

end SelectEntry

/-! ## References -/

/-- Whether a column has no point, or a name with a join before its first point. -/
def refersTo (joins : Joins) (column : String) : Bool :=
  match Text.splitOnce '.' column.toList with
  | some (name, _) => Keyed.contains joins (.ofList name)
  | none => true

/-- The columns of a level that belong to no embed of the level. -/
def Clauses.dangling (joins : Joins) (c : Clauses) : List String :=
  (Filter.columns c.filter ++ c.order.map (·.column)).filter fun column => !refersTo joins column

/-- Reports the columns of a level that belong to no embed of the level, and drops them. -/
def Clauses.checkReferences (h : Handling) (joins : Joins) (c : Clauses) :
    Except Error Clauses := do
  let dangling := c.dangling joins
  dangling.forM fun column => h.report (.dangling column)
  if dangling.isEmpty then return c
  else
    return { c with
      filter := Filter.retain (refersTo joins) c.filter
      order := c.order.filter fun t => refersTo joins t.column }

/-! ## Joins and groups -/

namespace SelectEntry

/-- Declares a left join for each embed of a list that declares none. -/
def levelJoins (entries : List SelectEntry) (joins : Joins) : Joins :=
  entries.foldl (fun joins e => match e with
    | .embed name .. => Keyed.add name { table := name } joins
    | _ => joins) joins

mutual

/-- An embed with a join for each embed in it. -/
def fillJoins : SelectEntry → SelectEntry
  | .embed name spread clauses entries joins =>
    .embed name spread clauses (fillJoinsAll entries) (levelJoins entries joins)
  | e => e

/-- Entries whose embeds have a join for each embed in them. -/
def fillJoinsAll : List SelectEntry → List SelectEntry
  | [] => []
  | e :: rest => e.fillJoins :: fillJoinsAll rest

end

/-- The columns by which the rows of a level are grouped: none if it has no aggregate, and else
those of its other entries, each once. -/
def groupColumns (entries : List SelectEntry) : List String :=
  if entries.any isAggregate then
    (entries.filterMap sourceColumn?).foldl
      (fun group column => if group.contains column then group else group ++ [column]) []
  else []

mutual

/-- Checks the columns of an embed and of those in it, and derives their groups. -/
def finish (h : Handling) : SelectEntry → Except Error SelectEntry
  | .embed name spread clauses entries joins => do
    let clauses ← clauses.checkReferences h joins
    let group := if clauses.group.isEmpty then groupColumns entries else clauses.group
    let entries ← finishAll h entries
    return .embed name spread { clauses with group } entries joins
  | e => .ok e

/-- Checks the columns of the embeds of a list, and derives their groups. -/
def finishAll (h : Handling) : List SelectEntry → Except Error (List SelectEntry)
  | [] => .ok []
  | e :: rest => do
    let e ← finish h e
    let rest ← finishAll h rest
    return e :: rest

end

end SelectEntry

/-! ## The whole -/

/-- The parts of a query. -/
structure Parts where
  /-- The operation. -/
  operation : Operation
  /-- The table or function. -/
  target : Target
  /-- The schema. -/
  schema : Option String
  /-- The select list, if the request has one. -/
  select : Option Select
  /-- The filters. -/
  filters : Filters
  /-- The windows. -/
  windows : Windows
  /-- What the request asks for beside its rows. -/
  metadata : Metadata
  /-- The call of a function. -/
  call : Option Call
  /-- What an upsert does about rows that are there already. -/
  conflict : Option Conflict
  /-- The value of the payload. -/
  values : Option Json

namespace Parts

/-- The entries of the select list with the parts for its embeds in their places. -/
def entries (p : Parts) : Except Error (List SelectEntry) := do
  let h := p.metadata.handling
  let es ← SelectEntry.distinctNames h ((p.select.map (·.entries)).getD [])
  let es ← p.filters.embedded.foldlM SelectEntry.putFilter es
  p.windows.embedded.foldlM SelectEntry.putWindow es

/-- The query tree that parts make up. -/
def assemble (p : Parts) : Except Error Ast := do
  let h := p.metadata.handling
  let declared := (p.select.map (·.joins)).getD []
  let es ← p.entries
  let w := p.windows.root
  let root : Clauses :=
    { filter := p.filters.root, order := w.order, limit := w.limit, offset := w.offset }
  let root ← root.checkReferences h declared
  let joins := SelectEntry.levelJoins es declared
  let es := SelectEntry.fillJoinsAll es
  let group := SelectEntry.groupColumns es
  let es ← SelectEntry.finishAll h es
  return {
    operation := p.operation
    target := p.target
    schema := p.schema
    select := p.select.map fun _ => es
    joins
    clauses := { root with group }
    values := if p.operation.isWrite then p.values else none
    args := p.call.map (·.args)
    onConflict := p.conflict
    metadata := { p.metadata with call := p.call.map (·.style) } }

end Parts

end RestQuery
