import RestQuery.Text.Utf8

/-!
# Percent encoding

A byte that may not stand in a part of a URL is written as a percent sign and two upper-case
hexadecimal digits. Reading takes such triples back and leaves a percent sign alone that is followed
by anything else.
-/

namespace RestQuery.Url

/-- The digit of a number below sixteen. -/
def hexDigit (n : Nat) : Char := if n < 10 then Char.ofNat (48 + n) else Char.ofNat (55 + n)

/-- The value of a hexadecimal digit. -/
def hexValue? (b : UInt8) : Option Nat :=
  let n := b.toNat
  if 48 ≤ n && n ≤ 57 then some (n - 48)
  else if 65 ≤ n && n ≤ 70 then some (n - 55)
  else if 97 ≤ n && n ≤ 102 then some (n - 87)
  else none

/-- A byte as a triple. -/
def encodeByte (b : UInt8) : List Char := ['%', hexDigit (b.toNat / 16), hexDigit (b.toNat % 16)]

/-- A text in which the characters beyond ASCII and those in `isUnsafe` are written as triples. -/
def percentEncode (isUnsafe : Char → Bool) (s : List Char) : List Char :=
  s.flatMap fun c =>
    if 0x7F < c.toNat || isUnsafe c then (Text.Utf8.encodeChar c).flatMap encodeByte else [c]

/-- The bytes that a sequence of bytes with triples stands for. -/
def percentDecode : List UInt8 → List UInt8
  | 37 :: a :: b :: rest =>
    match hexValue? a, hexValue? b with
    | some x, some y => UInt8.ofNat (x * 16 + y) :: percentDecode rest
    | _, _ => 37 :: percentDecode (a :: b :: rest)
  | b :: rest => b :: percentDecode rest
  | [] => []

/-- The bytes that a text with triples stands for. -/
def percentDecodeText (s : List Char) : List UInt8 := percentDecode (Text.Utf8.encode s)

/-- Whether a character is a control character of ASCII. -/
def isControl (c : Char) : Bool := c.toNat < 0x20 || c.toNat = 0x7F

/-- Whether a character of ASCII is written as a triple in a path. -/
def isUnsafeInPath (c : Char) : Bool := isControl c || " \"#<>?`\x7b\x7d".toList.contains c

/-- Whether a character of ASCII is written as a triple in a query. The apostrophe is one in a URL
whose scheme is `special`. -/
def isUnsafeInQuery (special : Bool) (c : Char) : Bool :=
  isControl c || " \"#<>".toList.contains c || (special && c = '\'')

end RestQuery.Url
