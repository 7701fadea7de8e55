import RestQuery.Binary64.Shortest
import RestQuery.Json.Basic

/-!
# Writing JSON

Two forms: compact, without any space, and indented by two spaces. In a text only the quote, the
backslash and the control characters below U+0020 are escaped.
-/

namespace RestQuery.Json

/-- Floating-point numbers are written positionally from 0.00001 and below 10000000000000000. -/
def numberLayout : Binary64.Layout := ⟨-5, 16⟩

/-- The text of a number. -/
def Number.render : Number → List Char
  | .int n => Text.Numeral.ofInt n
  | .float x => x.render numberLayout

/-- The lower-case hexadecimal digit of a number below sixteen. -/
def hexDigit (n : Nat) : Char := Nat.digitChar n

/-- A character as it stands between quotes. -/
def escapeChar (c : Char) : List Char :=
  if c = '"' then ['\\', '"']
  else if c = '\\' then ['\\', '\\']
  else if c = '\x08' then ['\\', 'b']
  else if c = '\x0c' then ['\\', 'f']
  else if c = '\n' then ['\\', 'n']
  else if c = '\r' then ['\\', 'r']
  else if c = '\t' then ['\\', 't']
  else if c.toNat < 0x20 then
    ['\\', 'u', '0', '0', hexDigit (c.toNat / 16), hexDigit (c.toNat % 16)]
  else [c]

/-- A text between quotes. -/
def quote (s : String) : List Char := '"' :: s.toList.flatMap escapeChar ++ ['"']

/-! ## The compact form -/

mutual

/-- A value without any space. -/
def compactChars : Json → List Char
  | .null => "null".toList
  | .bool true => "true".toList
  | .bool false => "false".toList
  | .number n => n.render
  | .str s => quote s
  | .arr items => '[' :: compactItems items ++ [']']
  | .obj members => '{' :: compactMembers members ++ ['}']

/-- Items with commas between them. -/
def compactItems : List Json → List Char
  | [] => []
  | [x] => compactChars x
  | x :: y :: rest => compactChars x ++ ',' :: compactItems (y :: rest)

/-- Members with commas between them. -/
def compactMembers : List (String × Json) → List Char
  | [] => []
  | [(k, x)] => quote k ++ ':' :: compactChars x
  | (k, x) :: m :: rest => quote k ++ ':' :: compactChars x ++ ',' :: compactMembers (m :: rest)

end

/-- The compact text of a value. -/
def compact (j : Json) : String := .ofList j.compactChars

/-! ## The indented form -/

/-- The start of a line at a nesting level. -/
def indent (level : Nat) : List Char := '\n' :: List.replicate (2 * level) ' '

mutual

/-- A value over several lines, whose first line stands at nesting level `level`. -/
def prettyChars (level : Nat) : Json → List Char
  | .arr [] => "[]".toList
  | .arr (x :: rest) =>
    '[' :: indent (level + 1) ++ prettyChars (level + 1) x ++ prettyItems (level + 1) rest
      ++ indent level ++ [']']
  | .obj [] => ['{', '}']
  | .obj ((k, x) :: rest) =>
    '{' :: indent (level + 1) ++ quote k ++ ": ".toList ++ prettyChars (level + 1) x
      ++ prettyMembers (level + 1) rest ++ indent level ++ ['}']
  | .null => "null".toList
  | .bool true => "true".toList
  | .bool false => "false".toList
  | .number n => n.render
  | .str s => quote s

/-- The items after the first, each on a line of its own. -/
def prettyItems (level : Nat) : List Json → List Char
  | [] => []
  | x :: rest => ',' :: indent level ++ prettyChars level x ++ prettyItems level rest

/-- The members after the first, each on a line of its own. -/
def prettyMembers (level : Nat) : List (String × Json) → List Char
  | [] => []
  | (k, x) :: rest =>
    ',' :: indent level ++ quote k ++ ": ".toList ++ prettyChars level x ++ prettyMembers level rest

end

/-- The text of a value over several lines, indented by two spaces a level. -/
def pretty (j : Json) : String := .ofList (j.prettyChars 0)

end RestQuery.Json
