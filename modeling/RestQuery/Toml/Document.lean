import RestQuery.Toml.Value

/-!
# TOML documents

A document is a sequence of lines: keys with their values, and headers that say to which table the
lines after them belong. Every key is given once, and every table is defined in one place: by its
header, by the parts of the keys in it, or as a value in one line.
-/

namespace RestQuery.Toml

/-- A table in the making. -/
inductive Node where
  /-- A value that is complete. -/
  | value (v : Toml)
  /-- A table. It is open for a header as long as only headers of tables in it were read, and open
  for keys as long as only keys with its name before a point were read. -/
  | table (byHeader : Bool) (byKey : Bool) (members : List (String × Node))
  /-- A list of tables, the last of which is in the making. -/
  | tables (complete : List (List (String × Node))) (members : List (String × Node))
  deriving Inhabited

/-- The members of a table in the making. -/
abbrev Members := List (String × Node)

/-- The member with a name. -/
def Members.find? (ms : Members) (name : String) : Option Node :=
  (List.find? (·.1 = name) ms).map (·.2)

/-- Adds a key with its value, where the parts before the last name tables that only such keys
define. -/
def putKey (value : Toml) : List String → Members → Option Members
  | [], _ => none
  | [name], ms =>
    match ms.find? name with
    | some _ => none
    | none => some (ms ++ [(name, .value value)])
  | name :: rest, ms =>
    match ms.find? name with
    | none => do
      let inner ← putKey value rest []
      return ms ++ [(name, .table false true inner)]
    | some (.table byHeader byKey inner) =>
      if byHeader || (!byKey && rest.length = 1) then none
      else do
        let inner ← putKey value rest inner
        return putMember name (.table byHeader byKey inner) ms
    | some (.tables complete inner) =>
      if rest.length = 1 then none
      else do
        let inner ← putKey value rest inner
        return putMember name (.tables complete inner) ms
    | some (.value _) => none

/-- Applies `change` to the members of the table at a path, each part of which is a table or the
last of a list of tables; those that are missing are made. -/
def changeAt (change : Members → Option Members) : List String → Members → Option Members
  | [], ms => change ms
  | name :: rest, ms =>
    match ms.find? name with
    | none => do
      let inner ← changeAt change rest []
      return ms ++ [(name, .table false false inner)]
    | some (.table byHeader byKey inner) => do
      let inner ← changeAt change rest inner
      return putMember name (.table byHeader byKey inner) ms
    | some (.tables complete inner) => do
      let inner ← changeAt change rest inner
      return putMember name (.tables complete inner) ms
    | some (.value _) => none

/-- Opens the table called `name` for its header. -/
def openTable (name : String) (ms : Members) : Option Members :=
  match ms.find? name with
  | none => some (ms ++ [(name, .table true false [])])
  | some (.table false false inner) => some (putMember name (.table true false inner) ms)
  | some _ => none

/-- Opens the next table of the list called `name`. -/
def openItem (name : String) (ms : Members) : Option Members :=
  match ms.find? name with
  | none => some (ms ++ [(name, .tables [] [])])
  | some (.tables complete inner) => some (putMember name (.tables (complete ++ [inner]) []) ms)
  | some _ => none

mutual

/-- The value of a node. -/
def Node.toValue : Node → Toml
  | .value v => v
  | .table _ _ members => .table (valuesOf members)
  | .tables complete members => .arr (tablesOf complete ++ [.table (valuesOf members)])

/-- The values of the members of a table. -/
def valuesOf : List (String × Node) → List (String × Toml)
  | [] => []
  | (name, node) :: rest => (name, node.toValue) :: valuesOf rest

/-- The values of the tables of a list. -/
def tablesOf : List (List (String × Node)) → List Toml
  | [] => []
  | members :: rest => .table (valuesOf members) :: tablesOf rest

end

/-- The table that pairs of keys and values make up. -/
def tableOfPairs (pairs : List (List String × Toml)) : Option Toml := do
  let ms ← pairs.foldlM (fun ms p => putKey p.2 p.1 ms) ([] : Members)
  return .table (valuesOf ms)

/-- The table in one line after its first brace, each value read by `value`. -/
def inlineTable? (value : List Char → Option (Toml × List Char)) (s : List Char) :
    Option (Toml × List Char) :=
  match skipSpaces s with
  | '\x7d' :: left => some (.table [], left)
  | s => do
    let (pairs, left) ← pairs? value s
    return (← tableOfPairs pairs, left)

/-- The value at the front of a text, in which lists and tables nest at most `depth` deep. -/
def value? (depth : Nat) (s : List Char) : Option (Toml × List Char) :=
  match depth, s with
  | 0, '[' :: _ | 0, '\x7b' :: _ => none
  | depth + 1, '[' :: rest => (items? (value? depth) rest).map fun p => (.arr p.1, p.2)
  | depth + 1, '\x7b' :: rest => inlineTable? (value? depth) rest
  | _, s => scalar? s

/-! ## Lines -/

/-- A document so far: its tables, and the path to the table that the next line belongs to. -/
structure State where
  /-- The members of the root. -/
  root : Members := []
  /-- The path to the table that keys belong to. -/
  path : List String := []

/-- Adds a line with a key, and gives what follows it on the line. -/
def addPair (st : State) (s : List Char) : Option (State × List Char) := do
  let ((key, v), rest) ← pair? (value? maxDepth) s
  let root ← changeAt (putKey v key) st.path st.root
  return ({ st with root }, rest)

/-- Adds the header of a table, after its first bracket. -/
def addHeader (st : State) (s : List Char) : Option (State × List Char) := do
  let (path, rest) ← key? s
  let rest ← expect? ']' rest
  let root ← changeAt (openTable (path.getLast?.getD "")) path.dropLast st.root
  return (⟨root, path⟩, rest)

/-- Adds the header of a table in a list of tables, after its two brackets. -/
def addItemHeader (st : State) (s : List Char) : Option (State × List Char) := do
  let (path, rest) ← key? s
  let rest ← expect? ']' (← expect? ']' rest)
  let root ← changeAt (openItem (path.getLast?.getD "")) path.dropLast st.root
  return (⟨root, path⟩, rest)

/-- Adds a line, and gives what follows it on the line. -/
def addLine (st : State) (s : List Char) : Option (State × List Char) :=
  match skipSpaces s with
  | [] => some (st, [])
  | '#' :: rest => some (st, '#' :: rest)
  | '\n' :: rest => some (st, '\n' :: rest)
  | '[' :: '[' :: rest => addItemHeader st rest
  | '[' :: rest => addHeader st rest
  | s => addPair st s

/-- Adds at most `fuel` lines. -/
def addLines : Nat → State → List Char → Option State
  | 0, st, _ => some st
  | fuel + 1, st, s =>
    if s.isEmpty then some st
    else
      match addLine st s with
      | none => none
      | some (st, rest) =>
        match restOfLine? rest with
        | none => none
        | some rest => addLines fuel st rest

/-- The members of a document. -/
def read? (s : List Char) : Option (List (String × Toml)) :=
  let s := if s.head? = some '\uFEFF' then s.drop 1 else s
  let s := unifyLineEnds s
  (addLines (s.length + 1) {} s).map fun st => valuesOf st.root

end RestQuery.Toml
