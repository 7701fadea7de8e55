import RestQuery.Text.Table

/-!
# Parts of domain names in ASCII

A part of a domain name can be written in ASCII alone: first its characters of ASCII, then a dash,
then where the others are inserted. The insertions are differences of positions and code points in
order, written as numbers with digits of base thirty-six whose place values adapt to the sizes seen
so far.
-/

namespace RestQuery.Domain.Punycode

/-- The value of a digit: letters first, then the digits of numbers. -/
def digitValue? (c : Char) : Option Nat :=
  if c.isDigit then some (c.toNat - 48 + 26)
  else if c.isAlpha then some (c.toLower.toNat - 97)
  else none

/-- Divides a difference until it is small; it, and thirty-six for each division. -/
def reduce (delta places : Nat) : Nat × Nat :=
  if 455 < delta then reduce (delta / 35) (places + 36) else (delta, places)
termination_by delta
decreasing_by exact Nat.div_lt_self (by omega) (by omega)

/-- The bias for the number that follows a difference, in a text of a length. -/
def adapt (delta length : Nat) (isFirst : Bool) : Nat :=
  let delta := if isFirst then delta / 700 else delta / 2
  let (delta, places) := reduce (delta + delta / length) 0
  places + 36 * delta / (delta + 38)

/-- The least value of a digit after which the number goes on. -/
def threshold (place bias : Nat) : Nat :=
  if place ≤ bias then 1 else if bias + 26 ≤ place then 26 else place - bias

/-- What is known between two digits. -/
structure State where
  /-- The text so far. -/
  text : List Char
  /-- The code point of the last insertion. -/
  point : Nat
  /-- The bias of the number that is read. -/
  bias : Nat
  /-- The position at which the number began to count. -/
  start : Nat
  /-- The position so far. -/
  position : Nat
  /-- The value of the place of the next digit. -/
  weight : Nat
  /-- Thirty-six for each digit of the number up to the next one. -/
  place : Nat
  deriving DecidableEq, Repr

/-- A state at the beginning of a number. -/
def State.ready (text : List Char) (point bias position : Nat) : State :=
  ⟨text, point, bias, position, position, 1, 36⟩

/-- Whether a code point is that of a character. -/
def isCharacter (n : Nat) : Bool := n < 0xD800 || (0xDFFF < n && n < 0x110000)

/-- Whether a number fits thirty-two bits. -/
def fits (n : Nat) : Bool := n < Nat.pow 2 32

/-- Inserts the character that a number stands for. -/
def State.insert? (s : State) : Option State :=
  let length := s.text.length + 1
  let point := s.point + s.position / length
  let position := s.position % length
  if isCharacter point then
    some (.ready (s.text.insertIdx position (Char.ofNat point)) point
      (adapt (s.position - s.start) length (s.start = 0)) (position + 1))
  else none

/-- Reads a digit. Numbers of more than thirty-two bits are refused. -/
def State.read? (s : State) (c : Char) : Option State :=
  match digitValue? c with
  | none => none
  | some digit =>
    let least := threshold s.place s.bias
    let s := { s with position := s.position + digit * s.weight }
    if !fits s.position then none
    else if digit < least then s.insert?
    else if !fits (s.weight * (36 - least)) then none
    else some { s with weight := s.weight * (36 - least), place := s.place + 36 }

/-- The characters of ASCII before the last dash, and the digits after it. A dash at the start does
not count. -/
def splitCode (code : List Char) : List Char × List Char :=
  match Text.splitLast '-' code with
  | some ([], _) | none => ([], code)
  | some parts => parts

/-- The text that is written in ASCII. -/
def decode (code : List Char) : Option (List Char) :=
  let (plain, digits) := splitCode code
  match digits.foldlM State.read? (State.ready plain 128 72 0) with
  | some s => if s.place = 36 then some s.text else none
  | none => none

end RestQuery.Domain.Punycode
