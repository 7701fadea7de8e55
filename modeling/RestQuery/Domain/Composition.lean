import RestQuery.Domain.CompositionTable

/-!
# Composition

A letter with marks can be one character or several, and marks in different places of a letter can
stand in any order. In the composed form each letter is joined with the marks that it can be joined
with, and the other marks stand in the order of their classes. Syllables of Hangul are joined by
arithmetic, everything else by a table.
-/

namespace RestQuery.Domain

/-- The classes of marks with the ranges of their marks. -/
def classRanges : List (Nat × List (Nat × Nat)) :=
  markClasses.map fun row => (row.1, Text.ranges row.2)

/-- The class of a mark, and zero for any other character. -/
def markClass (c : Char) : Nat :=
  match classRanges.find? fun row => Text.inRanges row.2 c.toNat with
  | some row => row.1
  | none => 0

/-- The marks of composed characters, with the characters before the mark and the composed ones. -/
def compositePairs : List (Nat × List (Nat × Nat)) :=
  composites.map fun row => (row.1, row.2.flatMap fun line => (Text.words line).map fun word =>
    (Text.codePoint (Text.sides word).1, Text.codePoint (Text.sides word).2))

/-! ## Syllables of Hangul

A syllable has one of 19 first consonants, one of 21 vowels and at most one of 27 last
consonants. -/

/-- The syllable that a first consonant and a vowel, or a syllable and a last consonant, make up. -/
def joinHangul? (a b : Nat) : Option Nat :=
  if 0x1100 ≤ a && a < 0x1113 && 0x1161 ≤ b && b < 0x1176 then
    some (0xAC00 + ((a - 0x1100) * 21 + (b - 0x1161)) * 28)
  else if 0xAC00 ≤ a && a < 0xD7A4 && (a - 0xAC00) % 28 = 0 && 0x11A8 ≤ b && b < 0x11C3 then
    some (a + (b - 0x11A7))
  else none

/-- The two characters that make up a syllable. -/
def cutHangul? (n : Nat) : Option (Nat × Nat) :=
  if 0xAC00 ≤ n && n < 0xD7A4 then
    let last := (n - 0xAC00) % 28
    if last = 0 then some (0x1100 + (n - 0xAC00) / 588, 0x1161 + (n - 0xAC00) / 28 % 21)
    else some (n - last, 0x11A7 + last)
  else none

/-! ## Joining and cutting -/

/-- The character that two characters make up. -/
def join? (a b : Char) : Option Char :=
  match joinHangul? a.toNat b.toNat with
  | some n => some (Char.ofNat n)
  | none =>
    match compositePairs.find? fun row => row.1 = b.toNat with
    | some row => (row.2.find? fun pair => pair.1 = a.toNat).map fun pair => Char.ofNat pair.2
    | none => none

/-- The two characters that make up a character. -/
def cut? (c : Char) : Option (Char × Char) :=
  match cutHangul? c.toNat with
  | some (a, b) => some (Char.ofNat a, Char.ofNat b)
  | none =>
    compositePairs.findSome? fun row =>
      (row.2.find? fun pair => pair.2 = c.toNat).map fun pair =>
        (Char.ofNat pair.1, Char.ofNat row.1)

/-- A character cut into the parts of its parts, down to a depth. -/
def cutDown : Nat → Char → List Char
  | 0, c => [c]
  | depth + 1, c =>
    match cut? c with
    | some (a, b) => cutDown depth a ++ [b]
    | none => [c]

/-- Puts a character before a text whose marks are in order, past marks of lower classes. -/
def place (c : Char) : List Char → List Char
  | [] => [c]
  | d :: s =>
    if 0 < markClass d && markClass d < markClass c then d :: place c s else c :: d :: s

/-- A text cut into letters and marks, with the marks in order. No character is made up of more than
three. -/
def decompose (s : List Char) : List Char := (s.flatMap (cutDown 3)).foldr place []

/-- Whether marks, the last one first, keep a character from the letter before them. -/
def isBlocked (marks : List Char) (c : Char) : Bool :=
  match marks with
  | [] => false
  | mark :: _ => markClass c ≤ markClass mark

/-- Joins a letter and the marks after it, the last one first, with what follows. -/
def joinAll (letter : Option Char) (marks : List Char) : List Char → List Char
  | [] => letter.toList ++ marks.reverse
  | c :: s =>
    match letter.bind fun a => if isBlocked marks c then none else join? a c with
    | some joined => joinAll (some joined) marks s
    | none =>
      if markClass c = 0 then letter.toList ++ marks.reverse ++ joinAll (some c) [] s
      else joinAll letter (c :: marks) s

/-- A text in the composed form. -/
def compose (s : List Char) : List Char := joinAll none [] (decompose s)

end RestQuery.Domain
