import RestQuery.Error

/-!
# Strict and lenient handling

Under lenient handling what is invalid is passed over, and nothing else: an error of any other kind
fails the request under both handlings. All decisions between the two are made by `check`.
-/

namespace RestQuery

/-- How invalid parts of a request are treated. -/
inductive Handling where
  /-- They fail the request. -/
  | strict
  /-- They are passed over. -/
  | lenient
  deriving DecidableEq, Repr, Inhabited

namespace Handling

/-- The name of a handling. -/
def name : Handling → String
  | .strict => "strict"
  | .lenient => "lenient"

/-- The handling with a name. -/
def ofName? (name : String) : Option Handling :=
  if name = "strict" then some .strict else if name = "lenient" then some .lenient else none

/-- A result under a handling: nothing in place of an invalid part that is passed over. -/
def check {α : Type} : Handling → Except Error α → Except Error (Option α)
  | _, .ok x => .ok (some x)
  | .lenient, .error (.invalid _) => .ok none
  | _, .error e => .error e

/-- What a cause means under a handling. -/
def report (h : Handling) (cause : Invalid) : Except Error Unit :=
  match h.check (.error (.invalid cause) : Except Error Unit) with
  | .ok _ => .ok ()
  | .error e => .error e

end Handling

end RestQuery
