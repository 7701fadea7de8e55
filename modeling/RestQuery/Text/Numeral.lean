/-!
# Decimal numerals

Reading and writing integers in base ten. A numeral is *canonical* if it is what writing gives: no
plus sign, no leading zero, no minus before a zero.
-/

namespace RestQuery.Text.Numeral

/-- The value of a digit. -/
def digitValue (c : Char) : Nat := c.toNat - '0'.toNat

/-- The value of a sequence of digits. -/
def value (digits : List Char) : Nat := digits.foldl (fun n c => n * 10 + digitValue c) 0

/-- The digits of a number, without leading zeros. -/
def ofNat (n : Nat) : List Char := Nat.toDigits 10 n

/-- The numeral of an integer. -/
def ofInt : Int → List Char
  | .ofNat n => ofNat n
  | .negSucc n => '-' :: ofNat (n + 1)

/-- The value of a text made of one or more digits. -/
def toNat? (s : List Char) : Option Nat :=
  if s.isEmpty || !s.all Char.isDigit then none else some (value s)

/-- The value of a text made of an optional sign and one or more digits. -/
def toInt? : List Char → Option Int
  | '-' :: s => (toNat? s).map fun n => -(n : Int)
  | '+' :: s => (toNat? s).map fun n => (n : Int)
  | s => (toNat? s).map fun n => (n : Int)

/-- Whether an integer fits sixty-four bits with a sign. -/
def fitsSigned (n : Int) : Bool := -(Int.pow 2 63) ≤ n && n < Int.pow 2 63

/-- Whether a number fits sixty-four bits without a sign. -/
def fitsUnsigned (n : Nat) : Bool := n < Nat.pow 2 64

/-- A natural number of sixty-four bits, which a plus sign may precede. -/
def toCount? (s : List Char) : Option Nat :=
  let digits := match s with
    | '+' :: rest => rest
    | s => s
  match toNat? digits with
  | some n => if fitsUnsigned n then some n else none
  | none => none

end RestQuery.Text.Numeral
