import RestQuery.Error
import RestQuery.Order.Basic
import RestQuery.Text.Blank

/-!
# Reading sort orders

Terms with commas between them. A term is a column, or the name of an embed with a column in round
brackets, and then words with a point before each: a direction, and after it where `null` goes.
-/

namespace RestQuery.OrderTerm

/-- Whether a character may stand in the name of a column or an embed here. -/
def isNameChar (c : Char) : Bool := c != '.' && c != '(' && c != ')'

/-- The column at the front of a term, and what follows it. A column in closed brackets stands after
the name of its embed and a point. -/
def splitColumn (s : List Char) : List Char × List Char :=
  let name := s.takeWhile isNameChar
  let rest := s.dropWhile isNameChar
  match rest with
  | '(' :: inner =>
    match inner.dropWhile isNameChar with
    | ')' :: left => (name ++ '.' :: inner.takeWhile isNameChar, left)
    | _ => (name, rest)
  | _ => (name, rest)

/-- The words of a term, each of which stands after a point; none if something else follows the
column. -/
def splitWords? : List Char → Option (List (List Char))
  | [] => some []
  | '.' :: rest => some ((Text.splitAll '.' rest).filter fun w => !w.isEmpty)
  | _ => none

/-- The meaning of the words of a term so far. -/
structure Words where
  /-- The direction, if it was given. -/
  direction : Option Direction := none
  /-- Where `null` goes, if it was given. -/
  nullsFirst : Option Bool := none
  deriving DecidableEq, Repr

/-- Adds a word; none if it is not known, or not in its place. -/
def Words.add? (ws : Words) (word : List Char) : Option Words :=
  if word = "asc".toList || word = "desc".toList then
    if ws.direction.isNone && ws.nullsFirst.isNone then
      some { ws with direction := some (if word = "asc".toList then .asc else .desc) }
    else none
  else if word = "nullsfirst".toList || word = "nullslast".toList then
    if ws.nullsFirst.isNone then
      some { ws with nullsFirst := some (word = "nullsfirst".toList) }
    else none
  else none

/-- Adds the words of a term in order. -/
def Words.addAll (term : List Char) (ws : Words) : List (List Char) → Except Error Words
  | [] => .ok ws
  | word :: rest =>
    match ws.add? word with
    | some ws => ws.addAll term rest
    | none => .error (.invalid (.orderWord (.ofList word) (.ofList term)))

/-- Whether a column has a name on each side of its first and last point. -/
def isColumn (column : List Char) : Bool :=
  !column.isEmpty && column.head? != some '.' && column.getLast? != some '.'

/-- Reads a term without blanks at its ends. -/
def parse (s : List Char) : Except Error OrderTerm :=
  let (column, rest) := splitColumn s
  if rest.head? = some '(' then .error (.malformed (.openOrder (.ofList s)))
  else
    match splitWords? rest with
    | none => .error (.invalid (.orderTail (.ofList rest) (.ofList s)))
    | some words =>
      if !isColumn column then .error (.invalid (.orderColumn (.ofList s)))
      else
        match ({} : Words).addAll s words with
        | .error e => .error e
        | .ok ws => .ok ⟨.ofList column, ws.direction.getD .asc, ws.nullsFirst⟩

/-- Reads terms one after the other. -/
def parseEach : List (List Char) → Except Error (List OrderTerm)
  | [] => .ok []
  | s :: rest =>
    match parse (Text.trim s) with
    | .error e => .error e
    | .ok t =>
      match parseEach rest with
      | .error e => .error e
      | .ok ts => .ok (t :: ts)

/-- Reads a sort order, which has no terms if it is blank. -/
def parseAll (s : List Char) : Except Error (List OrderTerm) :=
  if (Text.trim s).isEmpty then .ok []
  else
    match Value.splitTopLevel ',' s with
    | .error fault => .error (.malformed (.order (.ofList s) fault))
    | .ok pieces => parseEach pieces

end RestQuery.OrderTerm
