import RestQuery.Json.Basic
import RestQuery.Text.Numeral
import RestQuery.Text.Scan

/-!
# Bare values

A value without quotes is `null`, a truth value or a number if it is spelled as these are, and a
text otherwise. Only canonical numbers count: `007`, `+5`, `-0` and `1e5` stay texts.
-/

namespace RestQuery.Value

/-- The integer that a text is the canonical numeral of. -/
def canonicalInt? (s : List Char) : Option Int :=
  match Text.Numeral.toInt? s with
  | some n => if Text.Numeral.fitsSigned n && Text.Numeral.ofInt n = s then some n else none
  | none => none

/-- The sign, the whole part and the fraction of a text of the form `-12.50`, whose whole part has
no superfluous zero. -/
def decimalParts? (s : List Char) : Option (Bool × List Char × List Char) :=
  let (negative, digits) := match s with
    | '-' :: rest => (true, rest)
    | s => (false, s)
  match Text.splitOnce '.' digits with
  | none => none
  | some (whole, fraction) =>
    if !whole.isEmpty && !fraction.isEmpty && whole.all Char.isDigit && fraction.all Char.isDigit
        && (whole = ['0'] || whole.head? != some '0') then some (negative, whole, fraction)
    else none

/-- The number nearest to a decimal; none if the text is no decimal or is too large. -/
def decimal? (s : List Char) : Option Binary64 :=
  match decimalParts? s with
  | none => none
  | some (negative, whole, fraction) =>
    Binary64.ofQuotient? negative (Text.Numeral.value (whole ++ fraction))
      (Nat.pow 10 fraction.length)

/-- The value that a text without quotes stands for. -/
def coerceScalar (s : List Char) : Json :=
  if s = "null".toList then .null
  else if s = "true".toList then .bool true
  else if s = "false".toList then .bool false
  else
    match canonicalInt? s with
    | some n => .int n
    | none =>
      match decimal? s with
      | some x => .number (.float x)
      | none => .str (.ofList s)

/-- A search pattern, in which the star of the query string is the percent sign. -/
def likePattern (s : List Char) : List Char := s.map fun c => if c = '*' then '%' else c

end RestQuery.Value
