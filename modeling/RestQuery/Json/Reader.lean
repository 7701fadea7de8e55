import RestQuery.Binary64.Basic
import RestQuery.Json.Basic
import RestQuery.Text.Numeral
import RestQuery.Text.Scan

/-!
# Reading JSON

A document is one value with blanks around it. Lists and objects nest at most 127 deep. A name that
an object repeats keeps its first place and takes its last value.

A number without fraction and exponent is an integer as long as it fits sixty-four bits. All other
numbers are floating-point: the digits are gathered into an unsigned word of sixty-four bits, those
that do not fit are dropped, and the word is rounded and then multiplied or divided by a rounded
power of ten. The result can so be a neighbour of the number that is nearest to what was written.
-/

namespace RestQuery.Json

/-- Lists and objects nest at most so deep. -/
def maxDepth : Nat := 127

/-- Drops the blanks that may stand between tokens. -/
def skipBlanks (s : List Char) : List Char :=
  s.dropWhile fun c => c = ' ' || c = '\n' || c = '\t' || c = '\r'

/-! ## Numbers -/

/-- A number as it is written. -/
structure Literal where
  /-- Whether there is a minus sign. -/
  negative : Bool
  /-- The digits before the point. -/
  whole : List Char
  /-- The digits after the point. -/
  fraction : Option (List Char)
  /-- Whether the exponent has a minus sign, and its digits. -/
  exponent : Option (Bool × List Char)

/-- The digits at the front of a text, at least one, and what follows them. -/
def digits1? (s : List Char) : Option (List Char × List Char) :=
  let ds := s.takeWhile Char.isDigit
  if ds.isEmpty then none else some (ds, s.dropWhile Char.isDigit)

/-- The digits before the point: a zero alone, or digits that begin with another. -/
def whole? : List Char → Option (List Char × List Char)
  | '0' :: rest => some (['0'], rest)
  | s => digits1? s

/-- The fraction, if a point stands at the front; fails if no digit follows the point. -/
def fraction? : List Char → Option (Option (List Char) × List Char)
  | '.' :: rest => (digits1? rest).map fun p => (some p.1, p.2)
  | s => some (none, s)

/-- The exponent, if its mark stands at the front; fails if no digit follows. -/
def exponent? : List Char → Option (Option (Bool × List Char) × List Char)
  | c :: rest =>
    if c = 'e' || c = 'E' then
      match rest with
      | '+' :: more => (digits1? more).map fun p => (some (false, p.1), p.2)
      | '-' :: more => (digits1? more).map fun p => (some (true, p.1), p.2)
      | more => (digits1? more).map fun p => (some (false, p.1), p.2)
    else some (none, c :: rest)
  | [] => some (none, [])

/-- The number that stands at the front of a text. -/
def literal? (s : List Char) : Option (Literal × List Char) := do
  let (negative, s) := match s with
    | '-' :: rest => (true, rest)
    | s => (false, s)
  let (whole, s) ← whole? s
  let (fraction, s) ← fraction? s
  let (exponent, s) ← exponent? s
  return (⟨negative, whole, fraction, exponent⟩, s)

/-- Appends digits to a word of sixty-four bits as long as they fit; the word, how many were
appended, and how many were left. -/
def gather : Nat → List Char → Nat × Nat × Nat
  | word, [] => (word, 0, 0)
  | word, c :: rest =>
    let next := word * 10 + Text.Numeral.digitValue c
    if Text.Numeral.fitsUnsigned next then
      let (word, taken, left) := gather next rest
      (word, taken + 1, left)
    else (word, 0, rest.length + 1)

/-- `x / 10 ^ n`, in steps of at most 308 powers of ten, each rounded. -/
def divPow10? (x : Binary64) (n : Nat) : Option Binary64 :=
  if n ≤ 308 then do x.div? (← Binary64.pow10? n)
  else if x.isZero then some x
  else do divPow10? (← x.div? (← Binary64.pow10? 308)) (n - 308)
termination_by n

/-- `word * 10 ^ exponent`, where the word, the power of ten and the result are each rounded; none
if the result is too large. -/
def scalePow10? (word : Nat) (exponent : Int) : Option Binary64 := do
  let x ← Binary64.ofNat? word
  if exponent < 0 then divPow10? x (-exponent).toNat
  else if exponent ≤ 308 then x.mul? (← Binary64.pow10? exponent.toNat)
  else if x.isZero then some x
  else none

/-- The number that a literal stands for; none if it is too large. -/
def Literal.value? (l : Literal) : Option Number :=
  let signed (x : Binary64) : Number := .float { x with negative := l.negative }
  let (word, _, dropped) := gather 0 l.whole
  match l.fraction, l.exponent with
  | none, none =>
    if dropped != 0 then signed <$> scalePow10? word dropped
    else if !l.negative then some (.int word)
    else if word = 0 || Nat.pow 2 63 < word then signed <$> Binary64.ofNat? word
    else some (.int (-(word : Int)))
  | fraction, exponent =>
    let (word, places, _) := gather word (fraction.getD [])
    let base : Int := dropped - places
    match exponent with
    | none => signed <$> scalePow10? word base
    | some (minus, ds) =>
      let e := Text.Numeral.value ds
      if Nat.pow 2 31 ≤ e then
        if word = 0 || minus then some (signed (Binary64.zero false)) else none
      else signed <$> scalePow10? word (if minus then base - e else base + e)

/-! ## Texts -/

/-- The value of a hexadecimal digit. -/
def hexValue? (c : Char) : Option Nat :=
  if c.isDigit then some (c.toNat - '0'.toNat)
  else if 'a' ≤ c && c ≤ 'f' then some (c.toNat - 'a'.toNat + 10)
  else if 'A' ≤ c && c ≤ 'F' then some (c.toNat - 'A'.toNat + 10)
  else none

/-- The value of four hexadecimal digits. -/
def hex4? (a b c d : Char) : Option Nat := do
  return (((← hexValue? a) * 16 + (← hexValue? b)) * 16 + (← hexValue? c)) * 16 + (← hexValue? d)

/-- The character that a letter stands for after a backslash. -/
def escaped? (c : Char) : Option Char :=
  if c = '"' || c = '\\' || c = '/' then some c
  else if c = 'b' then some '\x08'
  else if c = 'f' then some '\x0c'
  else if c = 'n' then some '\n'
  else if c = 'r' then some '\r'
  else if c = 't' then some '\t'
  else none

/-- The text up to the closing quote, and what follows it. A code point past U+FFFF is written as
two surrogates; a surrogate alone is refused, as is a control character. -/
def textBody? : List Char → Option (List Char × List Char)
  | [] => none
  | '"' :: rest => some ([], rest)
  | '\\' :: 'u' :: a :: b :: c :: d :: rest => do
    let n ← hex4? a b c d
    if 0xDC00 ≤ n && n ≤ 0xDFFF then none
    else if 0xD800 ≤ n && n ≤ 0xDBFF then
      match rest with
      | '\\' :: 'u' :: a :: b :: c :: d :: rest => do
        let low ← hex4? a b c d
        if 0xDC00 ≤ low && low ≤ 0xDFFF then
          let (t, left) ← textBody? rest
          return (Char.ofNat (0x10000 + (n - 0xD800) * 0x400 + (low - 0xDC00)) :: t, left)
        else none
      | _ => none
    else
      let (t, left) ← textBody? rest
      return (Char.ofNat n :: t, left)
  | '\\' :: e :: rest => do
    let c ← escaped? e
    let (t, left) ← textBody? rest
    return (c :: t, left)
  | c :: rest =>
    if c.toNat < 0x20 || c = '\\' then none
    else do
      let (t, left) ← textBody? rest
      return (c :: t, left)

/-! ## Values -/

/-- Whether a comma follows, so that there is more, or the bracket that closes; nothing if neither
does. -/
def followed (close : Char) (s : List Char) : Option (Bool × List Char) :=
  match skipBlanks s with
  | c :: rest =>
    if c = ',' then some (true, rest)
    else if c = close then some (false, rest)
    else none
  | [] => none

/-- The items of a list up to its closing bracket, each read by `value`. -/
def items (value : List Char → Option (Json × List Char)) (s : List Char) :
    Option (List Json × List Char) :=
  match value (skipBlanks s) with
  | none => none
  | some (x, rest) =>
    match followed ']' rest with
    | none => none
    | some (false, left) => some ([x], left)
    | some (true, more) =>
      if more.length < s.length then
        match items value more with
        | none => none
        | some (xs, left) => some (x :: xs, left)
      else none
termination_by s.length

/-- The members of an object up to its closing brace, put into `found`, each value read by
`value`. -/
def members (value : List Char → Option (Json × List Char)) (found : List (String × Json))
    (s : List Char) : Option (List (String × Json) × List Char) :=
  match skipBlanks s with
  | '"' :: rest =>
    match textBody? rest with
    | none => none
    | some (key, rest) =>
      match skipBlanks rest with
      | ':' :: rest =>
        match value (skipBlanks rest) with
        | none => none
        | some (x, rest) =>
          let found := putMember (.ofList key) x found
          match followed '}' rest with
          | none => none
          | some (false, left) => some (found, left)
          | some (true, more) =>
            if more.length < s.length then members value found more else none
      | _ => none
  | _ => none
termination_by s.length

/-- The value at the front of a text, whose lists and objects nest at most `depth` deep. -/
def value? (depth : Nat) (s : List Char) : Option (Json × List Char) :=
  match s with
  | 'n' :: 'u' :: 'l' :: 'l' :: rest => some (.null, rest)
  | 't' :: 'r' :: 'u' :: 'e' :: rest => some (.bool true, rest)
  | 'f' :: 'a' :: 'l' :: 's' :: 'e' :: rest => some (.bool false, rest)
  | '"' :: rest => (textBody? rest).map fun p => (.str (.ofList p.1), p.2)
  | '[' :: rest =>
    match depth with
    | 0 => none
    | depth + 1 =>
      match skipBlanks rest with
      | ']' :: left => some (.arr [], left)
      | rest => (items (value? depth) rest).map fun p => (.arr p.1, p.2)
  | '{' :: rest =>
    match depth with
    | 0 => none
    | depth + 1 =>
      match skipBlanks rest with
      | '}' :: left => some (.obj [], left)
      | rest => (members (value? depth) [] rest).map fun p => (.obj p.1, p.2)
  | s => do
    let (l, left) ← literal? s
    return (.number (← l.value?), left)
termination_by structural depth

/-- The value of a whole document. -/
def read? (s : List Char) : Option Json :=
  match value? maxDepth (skipBlanks s) with
  | some (x, rest) => if (skipBlanks rest).isEmpty then some x else none
  | none => none

/-- The value of a string that holds a whole document. -/
def ofString? (s : String) : Option Json := read? s.toList

end RestQuery.Json
