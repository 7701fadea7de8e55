/-!
# UTF-8

One character at a time off the front of a sequence of bytes. A sequence that is not UTF-8 fails
at its first bad place, and the failure says how many bytes stand there that no character begins
with, or that the sequence ends within a character. Two readings are built on the step: the strict
one stops at the first failure, the lenient one puts U+FFFD there and goes on.
-/

namespace RestQuery.Text.Utf8

/-- What stands at the front of a sequence of bytes. -/
inductive Step where
  /-- The sequence is empty. -/
  | done
  /-- A character, and the bytes after it. -/
  | char (c : Char) (rest : List UInt8)
  /-- `width` bytes that no character begins with, and the bytes after them. -/
  | invalid (width : Nat) (rest : List UInt8)
  /-- The sequence ends before its last character does. -/
  | incomplete

/-- What the first byte of a character fixes. -/
structure Lead where
  /-- The bits of the code point that the first byte holds. -/
  bits : Nat
  /-- How many continuation bytes follow. -/
  tails : Nat
  /-- The least second byte allowed, which rules out overlong forms. -/
  low : Nat := 0x80
  /-- The greatest second byte allowed, which rules out surrogates and what lies past U+10FFFF. -/
  high : Nat := 0xBF

/-- The character class of a first byte; none for a byte that begins no character. -/
def Lead.ofByte? (b : Nat) : Option Lead :=
  if b ≤ 0x7F then some ⟨b, 0, 0x80, 0xBF⟩
  else if 0xC2 ≤ b ∧ b ≤ 0xDF then some ⟨b - 0xC0, 1, 0x80, 0xBF⟩
  else if b = 0xE0 then some ⟨0, 2, 0xA0, 0xBF⟩
  else if b = 0xED then some ⟨0xD, 2, 0x80, 0x9F⟩
  else if 0xE1 ≤ b ∧ b ≤ 0xEF then some ⟨b - 0xE0, 2, 0x80, 0xBF⟩
  else if b = 0xF0 then some ⟨0, 3, 0x90, 0xBF⟩
  else if 0xF1 ≤ b ∧ b ≤ 0xF3 then some ⟨b - 0xF0, 3, 0x80, 0xBF⟩
  else if b = 0xF4 then some ⟨4, 3, 0x80, 0x8F⟩
  else none

/-- Reads `tails` continuation bytes after `width` bytes of a character, whose bits so far are
`code`. Only the next byte is bound by `low` and `high`; those after it may be any continuation. -/
def readTails (code width : Nat) : Nat → Nat → Nat → List UInt8 → Step
  | 0, _, _, rest => .char (Char.ofNat code) rest
  | _ + 1, _, _, [] => .incomplete
  | tails + 1, low, high, b :: rest =>
    if low ≤ b.toNat ∧ b.toNat ≤ high then
      readTails (code * 64 + b.toNat % 64) (width + 1) tails 0x80 0xBF rest
    else .invalid width (b :: rest)

/-- Reads what stands at the front of a sequence of bytes. -/
def step : List UInt8 → Step
  | [] => .done
  | b :: rest =>
    match Lead.ofByte? b.toNat with
    | none => .invalid 1 rest
    | some lead => readTails lead.bits 1 lead.tails lead.low lead.high rest

/-- Why a sequence of bytes is not UTF-8. -/
inductive Fault where
  /-- At `index` stand `width` bytes that no character begins with. -/
  | invalid (width index : Nat)
  /-- At `index` begins a character that the sequence does not complete. -/
  | incomplete (index : Nat)
  deriving DecidableEq, Repr

/-- The wording of a fault. -/
def Fault.message : Fault → String
  | .invalid width index => s!"invalid utf-8 sequence of {width} bytes from index {index}"
  | .incomplete index => s!"incomplete utf-8 byte sequence from index {index}"

/-- Reads characters while fewer than `fuel` have been read; `total` is the length of the whole
sequence, from which the index of a fault is counted. -/
def decodeWithin (total : Nat) : Nat → List UInt8 → Except Fault (List Char)
  | 0, _ => .ok []
  | fuel + 1, bytes =>
    match step bytes with
    | .done => .ok []
    | .char c rest => (c :: ·) <$> decodeWithin total fuel rest
    | .invalid width _ => .error (.invalid width (total - bytes.length))
    | .incomplete => .error (.incomplete (total - bytes.length))

/-- The characters that a sequence of bytes encodes. -/
def decode (bytes : List UInt8) : Except Fault (List Char) :=
  decodeWithin bytes.length (bytes.length + 1) bytes

/-- Reads at most `fuel` characters, a replacement character for each fault. -/
def decodeLossyWithin : Nat → List UInt8 → List Char
  | 0, _ => []
  | fuel + 1, bytes =>
    match step bytes with
    | .done => []
    | .char c rest => c :: decodeLossyWithin fuel rest
    | .invalid _ rest => '\uFFFD' :: decodeLossyWithin fuel rest
    | .incomplete => ['\uFFFD']

/-- The characters that a sequence of bytes encodes, with U+FFFD for each stretch of bytes that
encodes none. -/
def decodeLossy (bytes : List UInt8) : List Char :=
  decodeLossyWithin (bytes.length + 1) bytes

/-- The bytes of one character. -/
def encodeChar (c : Char) : List UInt8 := String.utf8EncodeChar c

/-- The bytes of a text. -/
def encode (s : List Char) : List UInt8 := s.flatMap encodeChar

/-- The number of bytes of a text. -/
def byteLength (s : List Char) : Nat := s.foldr (fun c n => c.utf8Size + n) 0

end RestQuery.Text.Utf8
