import RestQuery.Domain.FormTable

/-!
# Forms of characters

Domain names are compared in one form, in which capital letters are small, and wide, narrow, raised
and circled characters and ligatures are the plain ones that they stand for. Some characters vanish,
and many may not stand in a domain name at all.
-/

namespace RestQuery.Domain

/-- What becomes of a character in a domain name. -/
inductive Form where
  /-- It stands for itself. -/
  | itself
  /-- It is passed over. -/
  | nothing
  /-- It stands for a text. -/
  | text (s : List Char)
  /-- It may not stand in a domain name. -/
  | forbidden
  deriving DecidableEq, Repr

/-- The text that a word of code points joined by `+` names. -/
def textOfWord (word : List Char) : List Char :=
  (Text.splitAll '+' word).map fun digits => Char.ofNat (Text.codePoint digits)

/-- The rows of characters whose forms are listed. -/
def listedForms : List (Nat × Array (List Char)) :=
  listed.map fun row => (row.1, ((Text.words row.2).map textOfWord).toArray)

/-- The form of a code point whose form is listed. -/
def listedForm? (n : Nat) : Option (List Char) :=
  listedForms.findSome? fun row => if row.1 ≤ n then row.2[n - row.1]? else none

/-- The form of a code point in a row whose forms are a row as well. -/
def shiftedForm? (n : Nat) : Option (List Char) :=
  (shifted.find? fun row => row.1 ≤ n && n ≤ row.2.1).map fun row =>
    [Char.ofNat (row.2.2 + (n - row.1))]

/-- The form of a code point in a row in which every other character has its successor as its
form. -/
def alternatingForm? (n : Nat) : Option (List Char) :=
  match alternating.find? fun row => row.1 ≤ n && n ≤ row.2 with
  | some row => if (n - row.1) % 2 = 0 then some [Char.ofNat (n + 1)] else none
  | none => none

/-- What becomes of a character. -/
def Form.ofChar (c : Char) : Form :=
  let n := c.toNat
  match (shiftedForm? n <|> alternatingForm? n) <|> listedForm? n with
  | some s => .text s
  | none =>
    if Text.inRanges passedOver n then .nothing
    else if Text.inRanges refused n then .forbidden
    else .itself

/-- A text with its characters in their forms; none if it holds a character that may not stand in a
domain name. -/
def putInForm : List Char → Option (List Char)
  | [] => some []
  | c :: s =>
    match Form.ofChar c with
    | .itself => (putInForm s).map (c :: ·)
    | .nothing => putInForm s
    | .text t => (putInForm s).map (t ++ ·)
    | .forbidden => none

end RestQuery.Domain
