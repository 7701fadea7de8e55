import RestQuery.Select.Basic
import RestQuery.Text.Scan

/-!
# Paths to embeds

An embed is addressed by the names on the way to it, with points between them.
-/

namespace RestQuery

/-- The name of an embed after the path to the list it stands in. -/
def joinPath (parent : String) (name : String) : String :=
  if parent.isEmpty then name else parent ++ "." ++ name

mutual

/-- The paths to an entry that is an embed and to the embeds in it. -/
def SelectEntry.paths (parent : String) : SelectEntry → List String
  | .embed name _ _ entries _ =>
    SelectEntry.pathsAll (joinPath parent name) entries ++ [joinPath parent name]
  | _ => []

/-- The paths to the embeds of a list. -/
def SelectEntry.pathsAll (parent : String) : List SelectEntry → List String
  | [] => []
  | e :: rest => e.paths parent ++ SelectEntry.pathsAll parent rest

end

/-- The paths to all embeds of a select list, ascending and each once. -/
def Select.embedPaths (s : Select) : List String :=
  (SelectEntry.pathsAll "" s.entries).foldr insertAscending []

namespace SelectEntry

/-- Whether an entry is the embed called `name`. -/
def isEmbed (name : List Char) : SelectEntry → Bool
  | .embed n _ _ _ _ => n.toList = name
  | _ => false

/-- Applies `change` to the clauses of an embed. -/
def mapClauses (change : Clauses → Clauses) : SelectEntry → SelectEntry
  | .embed name spread clauses entries joins => .embed name spread (change clauses) entries joins
  | e => e

mutual

/-- Applies `change` to the embed at a path through the names `names` from an entry of the list that
holds it; none if there is no such embed in the entry. -/
def modifyAt? (change : SelectEntry → SelectEntry) (names : List (List Char)) :
    SelectEntry → Option SelectEntry
  | .embed name spread clauses entries joins =>
    match names with
    | [] => some (change (.embed name spread clauses entries joins))
    | next :: rest =>
      (modifyIn? change next rest entries).map fun es => .embed name spread clauses es joins
  | _ => none

/-- Applies `change` to the embed at the path that begins with `name` and goes on with `names`,
where the first embed of a name is meant; none if there is no such embed. -/
def modifyIn? (change : SelectEntry → SelectEntry) (name : List Char) (names : List (List Char)) :
    List SelectEntry → Option (List SelectEntry)
  | [] => none
  | e :: rest =>
    if e.isEmbed name then (modifyAt? change names e).map (· :: rest)
    else (modifyIn? change name names rest).map (e :: ·)

end

/-- The entries with `change` applied to the embed at `path`; none if there is no embed there. -/
def modifyPath? (change : SelectEntry → SelectEntry) (path : String) (entries : List SelectEntry) :
    Option (List SelectEntry) :=
  match Text.splitAll '.' path.toList with
  | [] => none
  | name :: names => modifyIn? change name names entries

mutual

/-- The embed at a path through `names` from an embed. -/
def findAt? (names : List (List Char)) : SelectEntry → Option SelectEntry
  | .embed name spread clauses entries joins =>
    match names with
    | [] => some (.embed name spread clauses entries joins)
    | next :: rest => findIn? next rest entries
  | _ => none

/-- The embed at the path that begins with `name` and goes on with `names`. -/
def findIn? (name : List Char) (names : List (List Char)) : List SelectEntry → Option SelectEntry
  | [] => none
  | e :: rest => if e.isEmbed name then findAt? names e else findIn? name names rest

end

/-- The embed at `path`. -/
def findPath? (path : String) (entries : List SelectEntry) : Option SelectEntry :=
  match Text.splitAll '.' path.toList with
  | [] => none
  | name :: names => findIn? name names entries

end SelectEntry

end RestQuery
