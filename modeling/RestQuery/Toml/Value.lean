import RestQuery.Binary64.Basic
import RestQuery.Json.Reader
import RestQuery.Text.Numeral
import RestQuery.Text.Scan

/-!
# TOML values

Reading the values of a configuration file: texts of four kinds, numbers, truth values, dates and
times, lists and tables in one line. Every reader gives the value with what is left of the text, or
nothing if no value stands there.
-/

namespace RestQuery

/-- A TOML value. Of a number with a fraction, a date or a time nothing but the kind is kept. -/
inductive Toml where
  /-- A text. -/
  | str (s : String)
  /-- An integer. -/
  | int (n : Int)
  /-- A number with a fraction or an exponent, or one of the words for such numbers. -/
  | float
  /-- A truth value. -/
  | bool (b : Bool)
  /-- A date, a time or both. -/
  | moment
  /-- A list. -/
  | arr (items : List Toml)
  /-- A table. -/
  | table (members : List (String × Toml))
  deriving Repr, Inhabited

namespace Toml

/-- Drops spaces and tabulators. -/
def skipSpaces (s : List Char) : List Char := s.dropWhile fun c => c = ' ' || c = '\t'

/-- Whether a character may stand in a comment or in a text, line ends and escapes apart. -/
def isPlain (c : Char) : Bool := c = '\t' || (0x20 ≤ c.toNat && c.toNat != 0x7F)

/-- Drops a comment, if one stands there. -/
def skipComment (s : List Char) : List Char :=
  if s.head? = some '#' then s.dropWhile isPlain else s

/-- A text in which every line ends with a line feed alone. A carriage return that stands elsewhere
is kept; it is allowed nowhere. -/
def unifyLineEnds : List Char → List Char
  | '\r' :: '\n' :: rest => '\n' :: unifyLineEnds rest
  | c :: rest => c :: unifyLineEnds rest
  | [] => []

/-- What follows the end of a line, if one stands there. -/
def lineEnd? : List Char → Option (List Char)
  | '\n' :: rest => some rest
  | _ => none

/-- What is left after spaces and a comment and the end of the line or the text. -/
def restOfLine? (s : List Char) : Option (List Char) :=
  match skipComment (skipSpaces s) with
  | [] => some []
  | s => lineEnd? s

/-- Drops spaces, comments and line ends, of which there are at most `fuel`. -/
def skipLinesWithin : Nat → List Char → List Char
  | 0, s => s
  | fuel + 1, s =>
    let s := skipComment (skipSpaces s)
    match lineEnd? s with
    | some rest => skipLinesWithin fuel rest
    | none => s

/-- Drops spaces, comments and line ends. -/
def skipLines (s : List Char) : List Char := skipLinesWithin s.length s

/-! ## Texts -/

/-- The value of hexadecimal digits. -/
def hexNumber? (s : List Char) : Option Nat :=
  s.foldl (fun acc c => do return (← acc) * 16 + (← Json.hexValue? c)) (some 0)

/-- The character with a code point. -/
def charOf? (n : Nat) : Option Char := if n.isValidChar then some (Char.ofNat n) else none

/-- The character that an escape stands for, after its backslash. -/
def escape? : List Char → Option (Char × List Char)
  | 'u' :: a :: b :: c :: d :: rest => do return (← charOf? (← hexNumber? [a, b, c, d]), rest)
  | 'U' :: a :: b :: c :: d :: e :: f :: g :: h :: rest => do
    return (← charOf? (← hexNumber? [a, b, c, d, e, f, g, h]), rest)
  | 'b' :: rest => some ('\x08', rest)
  | 't' :: rest => some ('\t', rest)
  | 'n' :: rest => some ('\n', rest)
  | 'f' :: rest => some ('\x0c', rest)
  | 'r' :: rest => some ('\r', rest)
  | '"' :: rest => some ('"', rest)
  | '\\' :: rest => some ('\\', rest)
  | _ => none

/-- The rest of a text in double quotes, of at most `fuel` characters. -/
def basicWithin : Nat → List Char → Option (List Char × List Char)
  | 0, _ => none
  | fuel + 1, s =>
    match s with
    | [] => none
    | '"' :: rest => some ([], rest)
    | '\\' :: rest => do
      let (c, rest) ← escape? rest
      let (t, left) ← basicWithin fuel rest
      return (c :: t, left)
    | c :: rest =>
      if isPlain c then do
        let (t, left) ← basicWithin fuel rest
        return (c :: t, left)
      else none

/-- The rest of a text in single quotes. -/
def literal? : List Char → Option (List Char × List Char)
  | [] => none
  | c :: rest =>
    if c = '\'' then some ([], rest)
    else if isPlain c then (literal? rest).map fun p => (c :: p.1, p.2)
    else none

/-- The end of a text in three quotes, which up to two more may precede. -/
def closing? (quote : Char) (s : List Char) : Option (List Char × List Char) :=
  let n := (s.takeWhile (· = quote)).length
  if n < 3 then none
  else
    let kept := min (n - 3) 2
    some (List.replicate kept quote, s.drop (kept + 3))

/-- What follows a backslash at the end of a line: the next character that is no blank. -/
def continuation? (s : List Char) : Option (List Char) :=
  (lineEnd? (skipSpaces s)).map fun rest =>
    rest.dropWhile fun c => c = ' ' || c = '\t' || c = '\n'

/-- The rest of a text in three double quotes, of at most `fuel` characters. -/
def longBasicWithin : Nat → List Char → Option (List Char × List Char)
  | 0, _ => none
  | fuel + 1, s =>
    match closing? '"' s with
    | some p => some p
    | none =>
      match s with
      | [] => none
      | '\\' :: rest =>
        match continuation? rest with
        | some rest => longBasicWithin fuel rest
        | none => do
          let (c, rest) ← escape? rest
          let (t, left) ← longBasicWithin fuel rest
          return (c :: t, left)
      | c :: rest =>
        match lineEnd? s with
        | some rest => (longBasicWithin fuel rest).map fun p => ('\n' :: p.1, p.2)
        | none =>
          if isPlain c then (longBasicWithin fuel rest).map fun p => (c :: p.1, p.2) else none

/-- The rest of a text in three single quotes, of at most `fuel` characters. -/
def longLiteralWithin : Nat → List Char → Option (List Char × List Char)
  | 0, _ => none
  | fuel + 1, s =>
    match closing? '\'' s with
    | some p => some p
    | none =>
      match s with
      | [] => none
      | c :: rest =>
        match lineEnd? s with
        | some rest => (longLiteralWithin fuel rest).map fun p => ('\n' :: p.1, p.2)
        | none =>
          if isPlain c then (longLiteralWithin fuel rest).map fun p => (c :: p.1, p.2) else none

/-- A text without the line end at its start. -/
def dropLineEnd (s : List Char) : List Char := (lineEnd? s).getD s

/-- The text of any kind at the front of `s`. -/
def text? (s : List Char) : Option (String × List Char) :=
  let contents := match s with
    | '"' :: '"' :: '"' :: rest => longBasicWithin (s.length + 1) (dropLineEnd rest)
    | '\'' :: '\'' :: '\'' :: rest => longLiteralWithin (s.length + 1) (dropLineEnd rest)
    | '"' :: rest => basicWithin (s.length + 1) rest
    | '\'' :: rest => literal? rest
    | _ => none
  contents.map fun p => (.ofList p.1, p.2)

/-! ## Keys -/

/-- Whether a character may stand in a key without quotes. -/
def isKeyChar (c : Char) : Bool := c.isAlphanum || c = '_' || c = '-'

/-- One part of a key. -/
def simpleKey? (s : List Char) : Option (String × List Char) :=
  match s with
  | '"' :: rest => (basicWithin (s.length + 1) rest).map fun p => (.ofList p.1, p.2)
  | '\'' :: rest => (literal? rest).map fun p => (.ofList p.1, p.2)
  | s =>
    let key := s.takeWhile isKeyChar
    if key.isEmpty then none else some (.ofList key, s.dropWhile isKeyChar)

/-- A key of at most `fuel` parts with points between them. -/
def keyWithin : Nat → List Char → Option (List String × List Char)
  | 0, _ => none
  | fuel + 1, s => do
    let (part, rest) ← simpleKey? (skipSpaces s)
    match skipSpaces rest with
    | '.' :: more => do
      let (parts, left) ← keyWithin fuel more
      return (part :: parts, left)
    | left => return ([part], left)

/-- Keys have at most so many parts, and lists and tables in one line nest at most so deep. -/
def maxDepth : Nat := 79

/-- A key with points between its parts. -/
def key? (s : List Char) : Option (List String × List Char) :=
  (keyWithin (s.length + 1) s).filter fun p => p.1.length ≤ maxDepth

/-! ## Numbers -/

/-- Digits of a class, with an underscore allowed between two of them. -/
def digitsOf? (isDigit : Char → Bool) (s : List Char) : Option (List Char × List Char) :=
  let taken := s.takeWhile fun c => isDigit c || c = '_'
  let runs := Text.splitAll '_' taken
  if runs.all fun r => !r.isEmpty then some (runs.flatten, s.drop taken.length) else none

/-- The sign at the front of a text: whether it is a minus. -/
def sign (s : List Char) : Bool × List Char :=
  match s with
  | '-' :: rest => (true, rest)
  | '+' :: rest => (false, rest)
  | s => (false, s)

/-- The digits of a number that does not begin with a superfluous zero. -/
def wholeDigits? (s : List Char) : Option (List Char × List Char) :=
  match s with
  | '0' :: rest => some (['0'], rest)
  | s => digitsOf? Char.isDigit s

/-- The value of digits in a base, if it fits sixty-four bits with a sign. -/
def based? (base : Nat) (isDigit : Char → Bool) (s : List Char) : Option (Toml × List Char) := do
  let (ds, rest) ← digitsOf? isDigit s
  let n ← ds.foldl (fun acc c => do return (← acc) * base + (← Json.hexValue? c)) (some 0)
  if Text.Numeral.fitsSigned n then return (.int n, rest) else none

/-- The integer at the front of a text. -/
def integer? (s : List Char) : Option (Toml × List Char) :=
  match s with
  | '0' :: 'x' :: rest => based? 16 (fun c => (Json.hexValue? c).isSome) rest
  | '0' :: 'o' :: rest => based? 8 (fun c => '0' ≤ c && c ≤ '7') rest
  | '0' :: 'b' :: rest => based? 2 (fun c => c = '0' || c = '1') rest
  | s => do
    let (negative, digits) := sign s
    let (ds, rest) ← wholeDigits? digits
    let n : Int := Text.Numeral.value ds
    let n := if negative then -n else n
    if Text.Numeral.fitsSigned n then return (.int n, rest) else none

/-- The digits after a point, if one stands there: nothing of them if it is missing. -/
def fraction? : List Char → Option (Option (List Char) × List Char)
  | '.' :: rest => (digitsOf? Char.isDigit rest).map fun p => (some p.1, p.2)
  | s => some (none, s)

/-- The exponent after its mark, if one stands there. -/
def exponent? (s : List Char) : Option (Option Int × List Char) :=
  match s with
  | c :: rest =>
    if c = 'e' || c = 'E' then do
      let (negative, digits) := sign rest
      let (ds, left) ← digitsOf? Char.isDigit digits
      let e : Int := Text.Numeral.value ds
      return (some (if negative then -e else e), left)
    else some (none, s)
  | [] => some (none, [])

/-- Whether `digits * 10 ^ e` is at most the largest floating-point number. -/
def isFinite (digits : List Char) (e : Int) : Bool :=
  let n := Text.Numeral.value digits
  if n = 0 then true
  else if 400 < e + digits.length then false
  else if e < 0 then
    (Binary64.ofQuotient? false n (Nat.pow 10 (min (-e).toNat (digits.length + 400)))).isSome
  else (Binary64.ofQuotient? false (n * Nat.pow 10 e.toNat) 1).isSome

/-- The number with a fraction or an exponent at the front of a text, or one of the words for such
numbers. A positive number has a bound, a negative one has none. -/
def float? (s : List Char) : Option (Toml × List Char) :=
  let (negative, digits) := sign s
  match digits with
  | 'i' :: 'n' :: 'f' :: rest => some (.float, rest)
  | 'n' :: 'a' :: 'n' :: rest => some (.float, rest)
  | digits => do
    let (whole, rest) ← wholeDigits? digits
    let (fraction, rest) ← fraction? rest
    let (exponent, rest) ← exponent? rest
    let places := (fraction.getD []).length
    if fraction.isNone && exponent.isNone then none
    else if negative || isFinite (whole ++ fraction.getD []) (exponent.getD 0 - places) then
      return (.float, rest)
    else none

/-! ## Dates and times -/

/-- A number of two digits between bounds. -/
def twoDigits? (low high : Nat) : List Char → Option (Nat × List Char)
  | a :: b :: rest =>
    let n := Text.Numeral.value [a, b]
    if a.isDigit && b.isDigit && low ≤ n && n ≤ high then some (n, rest) else none
  | _ => none

/-- What follows a character that has to stand there. -/
def expect? (c : Char) : List Char → Option (List Char)
  | d :: rest => if c = d then some rest else none
  | [] => none

/-- The number of days of a month. -/
def daysIn (year month : Nat) : Nat :=
  if month = 2 then if year % 4 = 0 && (year % 100 != 0 || year % 400 = 0) then 29 else 28
  else if [4, 6, 9, 11].contains month then 30 else 31

/-- Whether a text begins as a date does: four digits and a dash. -/
def beginsDate : List Char → Bool
  | a :: b :: c :: d :: '-' :: _ => [a, b, c, d].all Char.isDigit
  | _ => false

/-- What follows a date. -/
def date? (s : List Char) : Option (List Char) := do
  let year := Text.Numeral.value (s.take 4)
  let (month, rest) ← twoDigits? 1 12 (s.drop 5)
  let (_, rest) ← twoDigits? 1 (daysIn year month) (← expect? '-' rest)
  return rest

/-- Whether a text begins as a time does: two digits and a colon. -/
def beginsTime : List Char → Bool
  | a :: b :: ':' :: _ => a.isDigit && b.isDigit
  | _ => false

/-- What follows a time. -/
def time? (s : List Char) : Option (List Char) := do
  let (_, rest) ← twoDigits? 0 23 s
  let (_, rest) ← twoDigits? 0 59 (← expect? ':' rest)
  let (_, rest) ← twoDigits? 0 60 (← expect? ':' rest)
  match rest with
  | '.' :: c :: _ => if c.isDigit then return (rest.drop 1).dropWhile Char.isDigit else return rest
  | _ => return rest

/-- What follows the distance from universal time, if one stands there. -/
def offset? (s : List Char) : Option (List Char) :=
  match s with
  | 'Z' :: rest | 'z' :: rest => some rest
  | c :: rest =>
    if c = '+' || c = '-' then do
      let (_, rest) ← twoDigits? 0 23 rest
      let (_, rest) ← twoDigits? 0 59 (← expect? ':' rest)
      return rest
    else some s
  | [] => some []

/-- What follows a date and the time after it, if one stands there. -/
def dateTime? (s : List Char) : Option (List Char) := do
  let rest ← date? s
  match rest with
  | c :: more =>
    if (c = 'T' || c = 't') || (c = ' ' && beginsTime more) then offset? (← time? more)
    else return rest
  | [] => return []

/-! ## Values -/

/-- The number, date or time at the front of a text. -/
def number? (s : List Char) : Option (Toml × List Char) :=
  if beginsDate s then (dateTime? s).map fun rest => (.moment, rest)
  else if beginsTime s then (time? s).map fun rest => (.moment, rest)
  else
    match float? s with
    | some p => some p
    | none => integer? s

/-- The value at the front of a text that is neither a list nor a table. -/
def scalar? (s : List Char) : Option (Toml × List Char) :=
  match s with
  | '"' :: _ | '\'' :: _ => (text? s).map fun p => (.str p.1, p.2)
  | 't' :: 'r' :: 'u' :: 'e' :: rest => some (.bool true, rest)
  | 'f' :: 'a' :: 'l' :: 's' :: 'e' :: rest => some (.bool false, rest)
  | s => number? s

/-- The items of a list after its opening bracket, each read by `value`. -/
def items? (value : List Char → Option (Toml × List Char)) (s : List Char) :
    Option (List Toml × List Char) :=
  match skipLines s with
  | ']' :: left => some ([], left)
  | s' =>
    match value s' with
    | none => none
    | some (x, rest) =>
      match skipLines rest with
      | ']' :: left => some ([x], left)
      | ',' :: more =>
        if more.length < s.length then (items? value more).map fun p => (x :: p.1, p.2) else none
      | _ => none
termination_by s.length

/-- A key with its value, read by `value`. -/
def pair? (value : List Char → Option (Toml × List Char)) (s : List Char) :
    Option ((List String × Toml) × List Char) := do
  let (key, rest) ← key? s
  let (x, rest) ← value (skipSpaces (← expect? '=' (skipSpaces rest)))
  return ((key, x), rest)

/-- The keys with their values of a table in one line after its first brace. -/
def pairs? (value : List Char → Option (Toml × List Char)) (s : List Char) :
    Option (List (List String × Toml) × List Char) :=
  match pair? value s with
  | none => none
  | some (p, rest) =>
    match skipSpaces rest with
    | '\x7d' :: left => some ([p], left)
    | ',' :: more =>
      if more.length < s.length then (pairs? value more).map fun q => (p :: q.1, q.2) else none
    | _ => none
termination_by s.length

end Toml

end RestQuery
