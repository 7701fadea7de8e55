import RestQuery.Text.Blank
import RestQuery.Value.Delimited
import RestQuery.Value.Scalar

/-!
# Lists of values

A list stands in round or curly brackets with commas between its items: `(1,"a,b",c)`, `{a,b}`. An
item between quotes is a text whatever it looks like.
-/

namespace RestQuery.Value

/-- One item of a list. -/
structure Item where
  /-- The item without its quotes. -/
  text : List Char
  /-- Whether it stood between quotes. -/
  quoted : Bool
  deriving DecidableEq, Repr

/-- The value of an item. -/
def Item.toJson (i : Item) : Json :=
  if i.quoted then .str (.ofList i.text) else coerceScalar i.text

/-- The text of an item as a value. -/
def Item.toText (i : Item) : Json := .str (.ofList i.text)

/-- An item as it is written, with the blanks around it. -/
def Item.ofPiece (piece : List Char) : Item :=
  let (text, quoted) := unquote (Text.trim piece)
  ⟨text, quoted⟩

/-- The items that pieces between commas stand for: none at all if there is one piece and it is
blank. -/
def itemsOfPieces (pieces : List (List Char)) : List Item :=
  match pieces with
  | [only] => if (Text.trim only).isEmpty then [] else [.ofPiece only]
  | pieces => pieces.map .ofPiece

/-- The closing bracket of a list that begins with `c`. -/
def listCloser? (c : Char) : Option Char :=
  if c = '(' then some ')' else if c = '{' then some '}' else none

/-- The items of a list. There are none if the text does not both begin and end as a list does, and
a fault if it does but cannot be cut into items. -/
def list? (s : List Char) : Option (Except Fault (List Item)) :=
  let s := Text.trim s
  match s with
  | [] => none
  | opener :: inner =>
    match listCloser? opener with
    | none => none
    | some close =>
      if inner.getLast? != some close then none
      else
        match Text.sepBy (segment (maxNesting - 1) ',') ',' inner with
        | .error e => some (.error e)
        | .ok (_, []) => some (.error .ended)
        | .ok (pieces, c :: rest) =>
          if c != close then some (.error (.ofRest s (c :: rest)))
          else if rest.isEmpty then some (.ok (itemsOfPieces pieces))
          else some (.error (.ofRest s rest))

end RestQuery.Value
