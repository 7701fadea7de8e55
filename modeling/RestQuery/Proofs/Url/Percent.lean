import RestQuery.Proofs.Text.Utf8
import RestQuery.Url.Percent

/-!
# Percent encoding read back

A text of which every byte is written as a triple holds no character that means anything in a path,
and reading the triples gives the bytes of the text.
-/

namespace RestQuery.Url

variable {b : UInt8} {n : Nat} {s : List Char}

/-- A text with every byte of it written as a triple. -/
def encodeText (s : List Char) : List Char := (Text.Utf8.encode s).flatMap encodeByte

/-! ## One byte -/

/-- A hexadecimal digit as a byte. -/
def hexByte (n : Nat) : UInt8 := .ofNat (hexDigit n).toNat

theorem toNat_hexDigit_lt : ∀ n < 16, (hexDigit n).toNat ≤ 0x7F := by decide

theorem hexDigit_ne_slash : ∀ n < 16, hexDigit n ≠ '/' := by decide

theorem hexValue?_hexByte : ∀ n < 16, hexValue? (hexByte n) = some n := by decide

theorem encode_encodeByte (b : UInt8) :
    Text.Utf8.encode (encodeByte b) = [37, hexByte (b.toNat / 16), hexByte (b.toNat % 16)] := by
  have hb : b.toNat < 256 := b.toNat_lt
  have hhigh := toNat_hexDigit_lt (b.toNat / 16) (by omega)
  have hlow := toNat_hexDigit_lt (b.toNat % 16) (by omega)
  unfold encodeByte
  rw [Text.Utf8.encode_cons, Text.Utf8.encode_cons, Text.Utf8.encode_cons,
    Text.Utf8.encodeChar_one hhigh, Text.Utf8.encodeChar_one hlow]
  rfl

/-- A triple is read as its byte. -/
theorem percentDecode_encodeByte (b : UInt8) (rest : List UInt8) :
    percentDecode (Text.Utf8.encode (encodeByte b) ++ rest) = b :: percentDecode rest := by
  have hb : b.toNat < 256 := b.toNat_lt
  have hhigh := hexValue?_hexByte (b.toNat / 16) (by omega)
  have hlow := hexValue?_hexByte (b.toNat % 16) (by omega)
  have hbyte : UInt8.ofNat (b.toNat / 16 * 16 + b.toNat % 16) = b := by
    rw [Nat.div_add_mod', UInt8.ofNat_toNat]
  rw [encode_encodeByte]
  simp only [List.cons_append, List.nil_append, percentDecode, hhigh, hlow, hbyte]

theorem slash_not_mem_encodeByte (b : UInt8) : '/' ∉ encodeByte b := by
  have hb : b.toNat < 256 := b.toNat_lt
  have hhigh := hexDigit_ne_slash (b.toNat / 16) (by omega)
  have hlow := hexDigit_ne_slash (b.toNat % 16) (by omega)
  simp [encodeByte, hhigh.symm, hlow.symm]

/-! ## Texts -/

theorem percentDecode_encode_flatMap (bytes : List UInt8) :
    percentDecode (Text.Utf8.encode (bytes.flatMap encodeByte)) = bytes := by
  induction bytes with
  | nil => rfl
  | cons b bytes ih =>
    have happend : Text.Utf8.encode ((b :: bytes).flatMap encodeByte) =
        Text.Utf8.encode (encodeByte b) ++ Text.Utf8.encode (bytes.flatMap encodeByte) := by
      rw [List.flatMap_cons]
      exact List.flatMap_append
    rw [happend, percentDecode_encodeByte, ih]

/-- The triples of a text are read as its bytes. -/
theorem percentDecodeText_encodeText (s : List Char) :
    percentDecodeText (encodeText s) = Text.Utf8.encode s :=
  percentDecode_encode_flatMap (Text.Utf8.encode s)

/-- No slash of a text is left in its triples. -/
theorem slash_not_mem_encodeText (s : List Char) : '/' ∉ encodeText s := by
  intro hmem
  obtain ⟨b, -, hb⟩ := List.mem_flatMap.mp hmem
  exact slash_not_mem_encodeByte b hb

theorem encodeText_ne_nil (h : s ≠ []) : encodeText s ≠ [] := by
  intro hnil
  have hdecode := percentDecodeText_encodeText s
  rw [hnil] at hdecode
  have hlength := Text.Utf8.length_le_encode s
  rw [← hdecode] at hlength
  exact h (List.eq_nil_of_length_eq_zero (Nat.le_zero.mp hlength))

end RestQuery.Url
