import RestQuery.Binary64.Basic

/-!
# JSON values

The members of an object keep the order in which they were written. A number is an integer of
sixty-four bits, with or without a sign, or a finite binary floating-point number: the two are never
equal, so `1` and `1.0` differ.
-/

namespace RestQuery

/-- A JSON number. -/
inductive Json.Number where
  /-- An integer. -/
  | int (n : Int)
  /-- A floating-point number. -/
  | float (x : Binary64)
  deriving DecidableEq, Repr, Inhabited

/-- A JSON value. -/
inductive Json where
  /-- The value `null`. -/
  | null
  /-- A truth value. -/
  | bool (b : Bool)
  /-- A number. -/
  | number (n : Json.Number)
  /-- A text. -/
  | str (s : String)
  /-- A list of values. -/
  | arr (items : List Json)
  /-- Named values in the order in which they are written. -/
  | obj (members : List (String × Json))
  deriving Repr, Inhabited, BEq

namespace Json

/-- The integer `n`. -/
def int (n : Int) : Json := .number (.int n)

/-- A natural number. -/
def nat (n : Nat) : Json := .int n

/-- A text, or `null` where there is none. -/
def strOrNull : Option String → Json
  | none => .null
  | some s => .str s

/-- A list of texts. -/
def strings (ss : List String) : Json := .arr (ss.map .str)

/-- The value of the first member called `key`. -/
def field? (key : String) : Json → Option Json
  | .obj members => (members.find? (·.1 = key)).map (·.2)
  | _ => none

/-- Whether a value is `null`, a truth value, a number or a text. -/
def isScalar : Json → Bool
  | .arr _ | .obj _ => false
  | _ => true

end Json

/-- Writes `value` under `key`: in the place of a member of that name, else at the end. -/
def putMember {α : Type} (key : String) (value : α) : List (String × α) → List (String × α)
  | [] => [(key, value)]
  | (k, v) :: rest => if k = key then (k, value) :: rest else (k, v) :: putMember key value rest

end RestQuery
