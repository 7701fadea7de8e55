import RestQuery.Json.Basic

/-!
# Members of objects

Objects made of pairs whose names may be repeated: the values of a name are gathered into a list, or
the last of them counts.
-/

namespace RestQuery

/-! ## Gathering -/

/-- The values of each name, with the names in the order of their first occurrence. -/
def gatherPairs (pairs : List (String × String)) : List (String × List String) :=
  pairs.foldl (fun found p => put p.1 p.2 found) []
where
  /-- Appends a value to those of a name. -/
  put (name value : String) : List (String × List String) → List (String × List String)
    | [] => [(name, [value])]
    | (n, vs) :: rest =>
      if n = name then (n, vs ++ [value]) :: rest else (n, vs) :: put name value rest

/-- An object with a member for each name: a text if the name has one value, and else a list. -/
def Json.ofPairs (pairs : List (String × String)) : Json :=
  .obj ((gatherPairs pairs).map fun p => match p.2 with
    | [value] => (p.1, .str value)
    | values => (p.1, Json.strings values))

/-! ## Distinct names -/

namespace Json

mutual

/-- A value in whose objects each name stands once, at its first place with its last value. -/
def distinct : Json → Json
  | .arr items => .arr (distinctItems items)
  | .obj members => .obj (distinctMembers members [])
  | j => j

/-- The items of a list, each with distinct names. -/
def distinctItems : List Json → List Json
  | [] => []
  | x :: rest => x.distinct :: distinctItems rest

/-- Puts members into `found`, each with distinct names in its value. -/
def distinctMembers : List (String × Json) → List (String × Json) → List (String × Json)
  | [], found => found
  | (k, x) :: rest, found => distinctMembers rest (putMember k x.distinct found)

end

end Json

end RestQuery
