/-!
# Scanning a text

Readers take a text and give back what is left of it. Two loops are enough for all grammars of this
library: repeating a piece while it matches, and items with a separator between them. Both end
because each round leaves less text than it found, which is checked in every round and needs no
promise from the reader that is repeated.
-/

namespace RestQuery.Text

variable {ε α : Type}

/-- The part of `s` before `rest`, where `rest` is what a reader left of `s`. -/
def consumed (s rest : List Char) : List Char := s.take (s.length - rest.length)

/-- Repeats `piece` as long as it matches and takes something; what is left. -/
def skipMany (piece : List Char → Except ε (Option (List Char))) (s : List Char) :
    Except ε (List Char) :=
  match piece s with
  | .error e => .error e
  | .ok none => .ok s
  | .ok (some rest) => if rest.length < s.length then skipMany piece rest else .ok s
termination_by s.length

/-- One or more items with `sep` between them; the items, and what is left after the last. -/
def sepBy (item : List Char → Except ε (α × List Char)) (sep : Char) (s : List Char) :
    Except ε (List α × List Char) :=
  match item s with
  | .error e => .error e
  | .ok (x, []) => .ok ([x], [])
  | .ok (x, c :: rest) =>
    if c = sep then
      if rest.length < s.length then
        match sepBy item sep rest with
        | .error e => .error e
        | .ok (xs, left) => .ok (x :: xs, left)
      else .ok ([x], c :: rest)
    else .ok ([x], c :: rest)
termination_by s.length

/-- Cuts a text at the first `sep`; none if there is no `sep`. -/
def splitOnce (sep : Char) : List Char → Option (List Char × List Char)
  | [] => none
  | c :: s => if c = sep then some ([], s) else (splitOnce sep s).map fun p => (c :: p.1, p.2)

/-- Cuts a text at the last `sep`; none if there is no `sep`. -/
def splitLast (sep : Char) : List Char → Option (List Char × List Char)
  | [] => none
  | c :: s =>
    match splitLast sep s with
    | some p => some (c :: p.1, p.2)
    | none => if c = sep then some ([], s) else none

/-- The pieces of a text between the occurrences of `sep`. -/
def splitAll (sep : Char) : List Char → List (List Char)
  | [] => [[]]
  | c :: s =>
    if c = sep then [] :: splitAll sep s
    else
      match splitAll sep s with
      | [] => [[c]]
      | piece :: pieces => (c :: piece) :: pieces

/-- All ways to cut a text in two at a `sep`, from the first to the last. -/
def cuts (sep : Char) : List Char → List (List Char × List Char)
  | [] => []
  | c :: s =>
    let later := (cuts sep s).map fun p => (c :: p.1, p.2)
    if c = sep then ([], s) :: later else later

/-- What follows `start` in a text that begins with it. -/
def dropStart? : List Char → List Char → Option (List Char)
  | [], s => some s
  | _ :: _, [] => none
  | a :: start, c :: s => if a = c then dropStart? start s else none

/-- A text with the ASCII letters in lower case. -/
def lowerAscii (s : List Char) : List Char := s.map Char.toLower

end RestQuery.Text
