import RestQuery.Text.Scan
import RestQuery.Text.Utf8

/-!
# Delimited text

Values of a query string may hold quoted texts and groups in round, curly or square brackets. A text
is *balanced* if it is made of plain characters, quoted texts and groups, each group closed by the
bracket of its own kind. Reading stops at the first place that does not continue a balanced text,
and a fault tells what stands there. Groups that nest too deep end the reading at once, whatever
they hold.
-/

namespace RestQuery.Value

/-- Groups nest less deep than this. -/
def maxNesting : Nat := 64

/-- Why a text cannot be cut into pieces. -/
inductive Fault where
  /-- Groups nest too deep. -/
  | tooDeep
  /-- The text ends where more was expected. -/
  | ended
  /-- A quote is never closed. -/
  | openQuote
  /-- A bracket is never closed, or not by its own kind. -/
  | unclosed (bracket : Char)
  /-- A character stands where none of its kind may, `position` bytes from the start. -/
  | unbalanced (c : Char) (position : Nat)
  deriving DecidableEq, Repr

/-- The wording of a fault. -/
def Fault.message : Fault → String
  | .tooDeep => s!"delimiters nested deeper than {maxNesting}"
  | .ended => "unexpected end of value"
  | .openQuote => "unterminated quoted value"
  | .unclosed bracket => s!"missing closing for '{bracket}'"
  | .unbalanced c position => s!"unbalanced '{c}' at position {position}"

/-- The bracket that closes a group which `c` opens. -/
def closer? (c : Char) : Option Char :=
  if c = '(' then some ')' else if c = '{' then some '}' else if c = '[' then some ']' else none

/-- Whether a character is a quote or a bracket. -/
def isDelimiter (c : Char) : Bool := "\"()\x7b\x7d[]".toList.contains c

/-- What is at fault when the reading of `full` stopped at `rest`. -/
def Fault.ofRest (full rest : List Char) : Fault :=
  match rest with
  | [] => .ended
  | c :: _ =>
    if c = '"' then .openQuote
    else if (closer? c).isSome then .unclosed c
    else .unbalanced c (Text.Utf8.byteLength full - Text.Utf8.byteLength rest)

/-! ## Quoted texts -/

/-- The contents of a quoted text whose opening quote is already read, and what follows the closing
quote. A backslash stands before a character that is meant as it is. -/
def quotedTail? : List Char → Option (List Char × List Char)
  | [] => none
  | '"' :: rest => some ([], rest)
  | ['\\'] => none
  | '\\' :: c :: rest => (quotedTail? rest).map fun p => (c :: p.1, p.2)
  | c :: rest => (quotedTail? rest).map fun p => (c :: p.1, p.2)

/-- The contents of the quoted text at the front of `s`, and what follows it. -/
def quoted? : List Char → Option (List Char × List Char)
  | '"' :: rest => quotedTail? rest
  | _ => none

/-- The contents of a text that is one quoted text, and else the text itself; with it, whether it
was quoted. -/
def unquote (s : List Char) : List Char × Bool :=
  match quoted? s with
  | some (t, []) => (t, true)
  | _ => (s, false)

/-- A text between quotes, with a backslash before each quote and each backslash. -/
def quote (s : List Char) : List Char :=
  '"' :: s.flatMap (fun c => if c = '"' || c = '\\' then ['\\', c] else [c]) ++ ['"']

/-! ## Groups -/

/-- One piece of a text: a quoted text, else a group, else a run of characters that are `plain`.
What follows it, or nothing if no piece stands there. -/
def piece? (group? : List Char → Except Fault (Option (List Char))) (plain : Char → Bool)
    (s : List Char) : Except Fault (Option (List Char)) :=
  match quoted? s with
  | some (_, rest) => .ok (some rest)
  | none =>
    match group? s with
    | .error e => .error e
    | .ok (some rest) => .ok (some rest)
    | .ok none =>
      match s with
      | [] => .ok none
      | c :: _ => if plain c then .ok (some (s.dropWhile plain)) else .ok none

/-- The group at the front of a text, where groups nest less than `levels` deep; what follows it,
or nothing if no whole group stands there. -/
def group? : Nat → List Char → Except Fault (Option (List Char))
  | 0, _ => .error .tooDeep
  | _ + 1, [] => .ok none
  | levels + 1, c :: inner =>
    match closer? c with
    | none => .ok none
    | some close =>
      match Text.skipMany (piece? (group? levels) fun c => !isDelimiter c) inner with
      | .error e => .error e
      | .ok [] => .ok none
      | .ok (d :: rest) => if d = close then .ok (some rest) else .ok none

/-- Reads up to a separator, or to a place that does not continue a balanced text. The piece that
was read, and what is left. -/
def segment (levels : Nat) (sep : Char) (s : List Char) : Except Fault (List Char × List Char) :=
  match Text.skipMany (piece? (group? levels) fun c => c != sep && !isDelimiter c) s with
  | .error e => .error e
  | .ok rest => .ok (Text.consumed s rest, rest)

/-- Cuts a text at the separators outside quotes and groups. -/
def splitTopLevel (sep : Char) (s : List Char) : Except Fault (List (List Char)) :=
  match Text.sepBy (segment maxNesting sep) sep s with
  | .error e => .error e
  | .ok (pieces, []) => .ok pieces
  | .ok (_, rest) => .error (.ofRest s rest)

end RestQuery.Value
