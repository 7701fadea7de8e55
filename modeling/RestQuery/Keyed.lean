/-!
# Values under ascending names

Lists of named values in ascending order of the names, each name once. The order of names is that of
their code points.
-/

namespace RestQuery

/-- Named values, in ascending order of the names. -/
abbrev Keyed (α : Type) := List (String × α)

namespace Keyed

variable {α : Type}

/-- The value under a name. -/
def find? (m : Keyed α) (name : String) : Option α := (List.find? (·.1 = name) m).map (·.2)

/-- Whether there is a value under a name. -/
def contains (m : Keyed α) (name : String) : Bool := m.any (·.1 = name)

/-- Changes the value under a name, or puts `change none` under it at its place. -/
def alter (name : String) (change : Option α → α) : Keyed α → Keyed α
  | [] => [(name, change none)]
  | (n, x) :: rest =>
    if name = n then (n, change (some x)) :: rest
    else if name < n then (name, change none) :: (n, x) :: rest
    else (n, x) :: alter name change rest

/-- Puts a value under a name, unless there is one already. -/
def add (name : String) (value : α) (m : Keyed α) : Keyed α := alter name (·.getD value) m

end Keyed

/-- Puts a text at its place in an ascending list, unless it is there. -/
def insertAscending (s : String) : List String → List String
  | [] => [s]
  | t :: rest =>
    if s = t then t :: rest else if s < t then s :: t :: rest else t :: insertAscending s rest

end RestQuery
