import RestQuery.Select.Printer
import RestQuery.Text.Blank
import RestQuery.Text.Scan
import RestQuery.Value.Delimited

/-!
# Reading select lists

    list     := node ("," node)*
    node     := "*" | "..." field | name ":" field | field
    field    := name modifier* "(" list? ")"                an embed
              | "count()" cast?                             the count of rows
              | name path? cast? ("." aggregate "()" cast?)?
    modifier := "!" name                                    inner, left or a hint
    path     := ("->" key)* ("->>" key)?

Every reader takes the text that is left and gives back what it leaves. The first fault ends the
reading, and says what was left where it was found. Embeds nest only so deep; since each level of
them is read with one level fewer to go, the readers need no other bound.
-/

namespace RestQuery.Select

/-- Why a select list cannot be read. -/
inductive Fault where
  /-- A character stands after the list. -/
  | unexpected (c : Char)
  /-- What is spread is no embed. -/
  | spreadOfField
  /-- An embed has two join types. -/
  | joinTypeTwice
  /-- An embed has two hints. -/
  | hintTwice
  /-- Modifiers are not followed by a list. -/
  | noList
  /-- Embeds nest deeper than allowed. -/
  | tooDeep (levels : Nat)
  /-- The list of an embed does not end. -/
  | openList
  /-- A path goes on after the step that gives text. -/
  | textNotLast
  /-- An arrow is not followed by a key. -/
  | noKey
  /-- A cast names no type. -/
  | noType
  /-- The name of an aggregate is not followed by brackets. -/
  | noCall
  /-- There is no aggregate of that name. -/
  | unknownAggregate (name : String)
  /-- A name is missing. -/
  | noName
  /-- A name between quotes is empty. -/
  | emptyName
  /-- The quotes around a name are not closed. -/
  | openName
  deriving DecidableEq, Repr

/-- The wording of a fault. -/
def Fault.message : Fault → String
  | .unexpected c => s!"unexpected '{c}'"
  | .spreadOfField => "'...' can only spread an embedded resource"
  | .joinTypeTwice => "join type given twice"
  | .hintTwice => "only one disambiguation hint is allowed"
  | .noList => "expected '(' after embedded resource"
  | .tooDeep levels => s!"embedding is nested deeper than {levels} levels"
  | .openList => "expected ',' or ')'"
  | .textNotLast => "'->>' must be the last JSON accessor"
  | .noKey => "expected a JSON key or array index"
  | .noType => "expected a type name after '::'"
  | .noCall => "expected '()' after aggregate function"
  | .unknownAggregate name => s!"unknown aggregate function '{name}'"
  | .noName => "expected a field name"
  | .emptyName => "empty quoted identifier"
  | .openName => "unterminated quoted identifier"

/-- A fault, and what was left of the text where it was found. -/
structure Stop where
  /-- What was left. -/
  rest : List Char
  /-- What is wrong there. -/
  fault : Fault
  deriving DecidableEq, Repr

/-- What a reader gives: a value, with the text that is left, or a fault. -/
abbrev Reading := Except Stop

/-- The reading that stops at `rest`. -/
def stop {α : Type} (rest : List Char) (fault : Fault) : Reading α := .error ⟨rest, fault⟩

/-- A reader of the list of an embed. -/
abbrev ListReader := List Char → Reading (Select × List Char)

/-- Drops the blanks that may stand between tokens. -/
def skipBlanks (s : List Char) : List Char :=
  s.dropWhile fun c => c = ' ' || c = '\t' || c = '\r' || c = '\n'

/-! ## Names, casts and paths -/

/-- Reads a name, with or without quotes. -/
def readName (s : List Char) : Reading (String × List Char) :=
  if s.head? = some '"' then
    match Value.quoted? s with
    | none => stop s .openName
    | some ([], _) => stop s .emptyName
    | some (name, rest) => .ok (.ofList name, rest)
  else
    let name := s.takeWhile isNameChar
    if name.isEmpty then stop s .noName else .ok (.ofList name, s.dropWhile isNameChar)

/-- Whether a character may stand in the name of a type. -/
def isTypeChar (c : Char) : Bool := Text.isAlphanumeric c || c = '_'

/-- Reads a cast if its mark stands there. -/
def readCast (s : List Char) : Reading (Option String × List Char) :=
  match s with
  | ':' :: ':' :: rest =>
    let type := rest.takeWhile isTypeChar
    if type.isEmpty then stop rest .noType
    else
      match rest.dropWhile isTypeChar with
      | '[' :: ']' :: left => .ok (some (.ofList (type ++ ['[', ']'])), left)
      | left => .ok (some (.ofList type), left)
  | s => .ok (none, s)

/-- The digits at the front of a text with the minus sign before them, and what follows. -/
def splitIndex (s : List Char) : List Char × List Char :=
  match s with
  | '-' :: rest => ('-' :: rest.takeWhile Char.isDigit, rest.dropWhile Char.isDigit)
  | s => (s.takeWhile Char.isDigit, s.dropWhile Char.isDigit)

/-- The index at the front of a text, if it fits sixty-four bits. -/
def readIndex? (s : List Char) : Option (Int × List Char) :=
  let (numeral, rest) := splitIndex s
  match Text.Numeral.toInt? numeral with
  | some n => if Text.Numeral.fitsSigned n then some (n, rest) else none
  | none => none

/-- Reads a step of a path after its arrow. -/
def readKey (s : List Char) : Reading (PathKey × List Char) :=
  match readIndex? s with
  | some (n, rest) => .ok (.index n, rest)
  | none =>
    match readName s with
    | .ok (name, rest) => .ok (.key name, rest)
    | .error _ => stop s .noKey

/-- Reads the steps of a path, at most `fuel` of them, and whether the last gives text. -/
def readPathWithin : Nat → List Char → Reading ((List PathKey × Bool) × List Char)
  | 0, s => .ok (([], false), s)
  | fuel + 1, s =>
    match s with
    | '-' :: '>' :: '>' :: rest => do
      let (key, rest) ← readKey rest
      match rest with
      | '-' :: '>' :: _ => stop rest .textNotLast
      | _ => .ok (([key], true), rest)
    | '-' :: '>' :: rest => do
      let (key, rest) ← readKey rest
      let ((path, asText), rest) ← readPathWithin fuel rest
      .ok ((key :: path, asText), rest)
    | s => .ok (([], false), s)

/-- Reads the steps of a path. -/
def readPath (s : List Char) : Reading ((List PathKey × Bool) × List Char) :=
  readPathWithin s.length s

/-- Reads an aggregate if a point stands there. -/
def readAggregate (s : List Char) : Reading (Option Aggregate × List Char) :=
  match s with
  | '.' :: rest => do
    let (name, rest) ← readName rest
    match rest with
    | '(' :: ')' :: left =>
      match Aggregate.ofName? name with
      | some a => .ok (some a, left)
      | none => stop s (.unknownAggregate name)
    | rest => stop rest .noCall
  | s => .ok (none, s)

/-! ## Nodes -/

/-- An entry of a list, with the join that it declares if it is an embed. -/
structure Node where
  /-- The entry. -/
  entry : SelectEntry
  /-- The name and the declaration of the join. -/
  join : Option (String × Join) := none

/-- Reads what follows the name of a column. -/
def readField (column : String) (name : Option String) (s : List Char) :
    Reading (Node × List Char) := do
  let ((path, pathAsText), s) ← readPath s
  let (first, s) ← readCast s
  let (aggregate, s) ← readAggregate s
  let f : Field := { name := "", column := some column, path, pathAsText, aggregate }
  let (f, s) ← match aggregate with
    | some _ => do
      let (second, s) ← readCast s
      pure ({ f with preCast := first, cast := second }, s)
    | none => pure ({ f with cast := first }, s)
  return (⟨Field.toEntry { f with name := name.getD f.defaultName }, none⟩, s)

/-- Reads the modifiers of an embed, at most `fuel` of them, into the join. The type that was given
is kept apart, since it may be given once only. -/
def readModifiersWithin :
    Nat → Join → Option JoinType → List Char → Reading ((Join × Option JoinType) × List Char)
  | 0, join, type, s => .ok ((join, type), s)
  | fuel + 1, join, type, s =>
    match s with
    | '!' :: rest => do
      let (word, rest) ← readName rest
      if word = "inner" || word = "left" then
        if type.isSome then stop s .joinTypeTwice
        else readModifiersWithin fuel join (some (if word = "inner" then .inner else .left)) rest
      else if join.hint.isSome then stop s .hintTwice
      else readModifiersWithin fuel { join with hint := some word } type rest
    | s => .ok ((join, type), s)

/-- Reads the join of an embed of `table` with its modifiers. -/
def readJoin (table : String) (s : List Char) : Reading (Join × List Char) := do
  let ((join, type), s) ← readModifiersWithin s.length { table } none s
  return ({ join with type := type.getD .left }, s)

/-- Reads what follows the name of a related table. The list in its brackets is read by `nested`,
which is missing where no deeper embed is allowed. -/
def readEmbed (maxDepth : Nat) (nested : Option ListReader) (table : String)
    (name : Option String) (s : List Char) : Reading (Node × List Char) := do
  let (join, s) ← readJoin table s
  match s with
  | '(' :: inner =>
    match nested with
    | none => stop s (.tooDeep maxDepth)
    | some nested => do
      let (select, s) ← nested inner
      match skipBlanks s with
      | ')' :: left =>
        let name := name.getD table
        .ok (⟨.embed name false {} select.entries select.joins, some (name, join)⟩, left)
      | s => stop s .openList
  | s => stop s .noList

/-- Reads a node after the name that it is given, if it is given one. -/
def readNamed (maxDepth : Nat) (nested : Option ListReader)
    (name : Option String) (s : List Char) : Reading (Node × List Char) := do
  let (source, rest) ← readName s
  match source, rest with
  | "count", '(' :: ')' :: rest => do
    let (cast, rest) ← readCast rest
    let f := { Field.rowCount with cast }
    return (⟨.field { f with name := name.getD f.name }, none⟩, rest)
  | _, _ =>
    match rest with
    | '!' :: _ | '(' :: _ => readEmbed maxDepth nested source name rest
    | _ => readField source name rest

/-- Reads a node other than the wildcard, with the name that it is given before a colon. -/
def readAliased (maxDepth : Nat) (nested : Option ListReader) (s : List Char) :
    Reading (Node × List Char) := do
  let (name, rest) ← readName s
  match rest with
  | ':' :: ':' :: _ => readNamed maxDepth nested none s
  | ':' :: rest => readNamed maxDepth nested (some name) (skipBlanks rest)
  | _ => readNamed maxDepth nested none s

/-- Reads a node that is spread. -/
def readSpread (maxDepth : Nat) (nested : Option ListReader) (s rest : List Char) :
    Reading (Node × List Char) := do
  let (node, left) ← readAliased maxDepth nested rest
  match node.entry with
  | .embed name _ clauses entries joins =>
    return ({ node with entry := .embed name true clauses entries joins }, left)
  | _ => stop s .spreadOfField

/-- Reads a node with the blanks around it. -/
def readNode (maxDepth : Nat) (nested : Option ListReader) (s : List Char) :
    Reading (Node × List Char) := do
  let s := skipBlanks s
  let (node, rest) ← match s with
    | '.' :: '.' :: '.' :: rest => readSpread maxDepth nested s rest
    | '*' :: rest => pure (⟨.wildcard, none⟩, rest)
    | s => readAliased maxDepth nested s
  return (node, skipBlanks rest)

/-! ## Lists -/

/-- Adds the join that a node declares, unless there is one of its name. -/
def Node.declare (joins : Joins) (node : Node) : Joins :=
  match node.join with
  | some (name, join) => Keyed.add name join joins
  | none => joins

/-- The list made of nodes. Of the joins of one name the first is kept. -/
def ofNodes (nodes : List Node) : Select where
  entries := nodes.map (·.entry)
  joins := nodes.foldl Node.declare []

/-- Reads a list, which is empty where the text or the list around it ends at once. -/
def readListWith (maxDepth : Nat) (nested : Option ListReader) (s : List Char) :
    Reading (Select × List Char) :=
  match skipBlanks s with
  | [] => .ok ({}, [])
  | ')' :: rest => .ok ({}, ')' :: rest)
  | s => do
    let (nodes, rest) ← Text.sepBy (readNode maxDepth nested) ',' s
    return (ofNodes nodes, rest)

/-- Reads a list whose embeds nest at most `levels` deep, of `maxDepth` allowed in all. -/
def readList (maxDepth : Nat) : Nat → ListReader
  | 0 => readListWith maxDepth none
  | levels + 1 => readListWith maxDepth (some (readList maxDepth levels))

/-- Why and where a select list cannot be read. -/
structure Failure where
  /-- The number of characters before the place. -/
  position : Nat
  /-- What is wrong there. -/
  fault : Fault
  deriving DecidableEq, Repr

/-- Reads a whole select list whose embeds nest at most `maxDepth` deep. -/
def parse (maxDepth : Nat) (s : List Char) : Except Failure Select :=
  match readList maxDepth maxDepth s with
  | .error e => .error ⟨s.length - e.rest.length, e.fault⟩
  | .ok (select, rest) =>
    match Text.trimStart rest with
    | [] => .ok select
    | c :: left => .error ⟨s.length - (c :: left).length, .unexpected c⟩

end RestQuery.Select
