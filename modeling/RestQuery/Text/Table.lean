import RestQuery.Text.Scan

/-!
# Tables of characters

A property of characters is a list of inclusive ranges of code points. A large table is written as
words with a space between them, in lines. A word is a code point in hexadecimal digits, or two of
them with a dash for all from the first to the second; `A-B:T` shifts such a range to one that
begins at `T`.
-/

namespace RestQuery.Text

/-- Whether a code point lies in one of the ranges. -/
def inRanges (ranges : List (Nat × Nat)) (n : Nat) : Bool :=
  ranges.any fun r => r.1 ≤ n && n ≤ r.2

/-- The value of a hexadecimal digit, whose letters are capital. -/
def hexDigitValue (c : Char) : Nat := if c.isDigit then c.toNat - 48 else c.toNat - 55

/-- The code point that hexadecimal digits name. -/
def codePoint (digits : List Char) : Nat := digits.foldl (fun n c => n * 16 + hexDigitValue c) 0

/-- The words of a line. -/
def words (line : String) : List (List Char) := splitAll ' ' line.toList

/-- The range that a word names. -/
def range (word : List Char) : Nat × Nat :=
  match splitOnce '-' word with
  | some (first, last) => (codePoint first, codePoint last)
  | none => (codePoint word, codePoint word)

/-- The ranges that the words of lines name. -/
def ranges (lines : List String) : List (Nat × Nat) :=
  lines.flatMap fun line => (words line).map range

/-- The two sides of a word with a colon. -/
def sides (word : List Char) : List Char × List Char := (splitOnce ':' word).getD (word, [])

/-- The ranges and the starts to which they are shifted, as the words of lines name them. -/
def shifts (lines : List String) : List (Nat × Nat × Nat) :=
  lines.flatMap fun line => (words line).map fun word =>
    let (source, target) := sides word
    ((range source).1, (range source).2, codePoint target)

end RestQuery.Text
