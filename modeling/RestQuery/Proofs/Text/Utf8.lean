import Mathlib.Tactic.Common
import RestQuery.Proofs.Outcome
import RestQuery.Text.Utf8

/-!
# UTF-8 read back

The strict reading inverts the encoding: the bytes of a text are read as that text, and nothing else
is read (`decode_eq_ok_iff`). So a sequence of bytes is refused exactly if it is the encoding of no
text. A place in a text that is given in bytes is one in characters if a character ends there.
-/

namespace RestQuery.Text.Utf8

variable {b : UInt8} {c : Char} {n code width tails low high : Nat} {lead : Lead}
  {bytes rest : List UInt8} {s x y : List Char}

/-! ## Bytes -/

/-- The continuation byte that holds the last six bits of a number. -/
def tail (n : Nat) : UInt8 := .ofNat (n % 64 + 0x80)

theorem toNat_byte (h : n < 256) : (UInt8.ofNat n).toNat = n := by
  simpa using Nat.mod_eq_of_lt h

theorem toNat_tail (n : Nat) : (tail n).toNat = n % 64 + 0x80 :=
  toNat_byte (by omega)

theorem eq_byte (h : b.toNat = n) : b = .ofNat n := by
  rw [← h, UInt8.ofNat_toNat]

theorem eq_tail (hlow : 0x80 ≤ b.toNat) (hhigh : b.toNat ≤ 0xBF) (hn : n % 64 = b.toNat % 64) :
    b = tail n :=
  eq_byte (by omega)

/-! ## The bytes of a character -/

/-- A code point is a character if it is no surrogate. -/
theorem toNat_ofNat (h : n < 0xD800 ∨ 0xDFFF < n ∧ n < 0x110000) : (Char.ofNat n).toNat = n := by
  unfold Char.ofNat
  rw [dif_pos h]
  rfl

theorem toNat_valid (c : Char) : c.toNat < 0xD800 ∨ 0xDFFF < c.toNat ∧ c.toNat < 0x110000 :=
  c.valid

theorem encodeChar_one (h : c.toNat ≤ 0x7F) : encodeChar c = [.ofNat c.toNat] := by
  unfold encodeChar String.utf8EncodeChar
  exact if_pos h

theorem encodeChar_two (h : 0x7F < c.toNat) (h' : c.toNat ≤ 0x7FF) :
    encodeChar c = [.ofNat (c.toNat / 64 + 0xC0), tail c.toNat] := by
  have hlead : c.toNat / 64 % 32 = c.toNat / 64 := by omega
  unfold encodeChar String.utf8EncodeChar tail
  simp only [Char.toNat_val]
  rw [if_neg (by omega), if_pos h', hlead]

theorem encodeChar_three (h : 0x7FF < c.toNat) (h' : c.toNat ≤ 0xFFFF) :
    encodeChar c = [.ofNat (c.toNat / 4096 + 0xE0), tail (c.toNat / 64), tail c.toNat] := by
  have hlead : c.toNat / 4096 % 16 = c.toNat / 4096 := by omega
  unfold encodeChar String.utf8EncodeChar tail
  simp only [Char.toNat_val]
  rw [if_neg (by omega), if_neg (by omega), if_pos h', hlead]

theorem encodeChar_four (h : 0xFFFF < c.toNat) :
    encodeChar c = [.ofNat (c.toNat / 262144 + 0xF0), tail (c.toNat / 4096), tail (c.toNat / 64),
      tail c.toNat] := by
  have hvalid := toNat_valid c
  have hlead : c.toNat / 262144 % 8 = c.toNat / 262144 := by omega
  unfold encodeChar String.utf8EncodeChar tail
  simp only [Char.toNat_val]
  rw [if_neg (by omega), if_neg (by omega), if_neg (by omega), hlead]

/-! ## Reading one character -/

theorem readTails_tail (hlow : low ≤ n % 64 + 0x80) (hhigh : n % 64 + 0x80 ≤ high) :
    readTails code width (tails + 1) low high (tail n :: rest) =
      readTails (code * 64 + n % 64) (width + 1) tails 0x80 0xBF rest := by
  have hbits : (n % 64 + 0x80) % 64 = n % 64 := by omega
  rw [readTails, toNat_tail, if_pos ⟨hlow, hhigh⟩, hbits]

theorem readTails_eq_char (h : readTails code width (tails + 1) low high bytes = .char c rest) :
    ∃ b more, bytes = b :: more ∧ low ≤ b.toNat ∧ b.toNat ≤ high ∧
      readTails (code * 64 + b.toNat % 64) (width + 1) tails 0x80 0xBF more = .char c rest := by
  cases bytes with
  | nil => cases h
  | cons b more =>
    rw [readTails] at h
    split at h
    · next hb => exact ⟨b, more, rfl, hb.1, hb.2, h⟩
    · cases h

theorem readTails_ne_done : readTails code width tails low high bytes ≠ .done := by
  intro h
  induction tails generalizing code width low high bytes with
  | zero => cases h
  | succ tails ih =>
    cases bytes with
    | nil => cases h
    | cons b more =>
      rw [readTails] at h
      split at h
      · exact ih h
      · cases h

/-- Something stands at the front of every sequence but the empty one. -/
theorem eq_nil_of_step (h : step bytes = .done) : bytes = [] := by
  cases bytes with
  | nil => rfl
  | cons b more =>
    rw [step] at h
    split at h
    · cases h
    · exact absurd h readTails_ne_done

theorem step_byte (hn : n < 256) (h : Lead.ofByte? n = some lead) :
    step (.ofNat n :: rest) = readTails lead.bits 1 lead.tails lead.low lead.high rest := by
  rw [step, toNat_byte hn, h]

/-- Of three bytes the first bounds the second, so that no form is overlong and none is that of a
surrogate. -/
theorem exists_lead_three (hlow : 0x7FF < n) (hhigh : n ≤ 0xFFFF) (hn : n < 0xD800 ∨ 0xDFFF < n) :
    ∃ low high, Lead.ofByte? (n / 4096 + 0xE0) = some ⟨n / 4096, 2, low, high⟩ ∧
      low ≤ n / 64 % 64 + 0x80 ∧ n / 64 % 64 + 0x80 ≤ high := by
  by_cases hfirst : n / 4096 = 0
  · refine ⟨0xA0, 0xBF, ?_, by omega, by omega⟩
    rw [hfirst]
    rfl
  by_cases hlast : n / 4096 = 13
  · refine ⟨0x80, 0x9F, ?_, by omega, by omega⟩
    rw [hlast]
    rfl
  refine ⟨0x80, 0xBF, ?_, by omega, by omega⟩
  unfold Lead.ofByte?
  rw [if_neg (by omega), if_neg (by omega), if_neg (by omega), if_neg (by omega),
    if_pos (by omega), Nat.add_sub_cancel]

/-- Of four bytes the first bounds the second, so that no form is overlong and none lies past the
last code point. -/
theorem exists_lead_four (hlow : 0xFFFF < n) (hhigh : n < 0x110000) :
    ∃ low high, Lead.ofByte? (n / 262144 + 0xF0) = some ⟨n / 262144, 3, low, high⟩ ∧
      low ≤ n / 4096 % 64 + 0x80 ∧ n / 4096 % 64 + 0x80 ≤ high := by
  by_cases hfirst : n / 262144 = 0
  · refine ⟨0x90, 0xBF, ?_, by omega, by omega⟩
    rw [hfirst]
    rfl
  by_cases hlast : n / 262144 = 4
  · refine ⟨0x80, 0x8F, ?_, by omega, by omega⟩
    rw [hlast]
    rfl
  refine ⟨0x80, 0xBF, ?_, by omega, by omega⟩
  unfold Lead.ofByte?
  rw [if_neg (by omega), if_neg (by omega), if_neg (by omega), if_neg (by omega),
    if_neg (by omega), if_neg (by omega), if_pos (by omega), Nat.add_sub_cancel]

/-- The character stands at the front of its bytes. -/
theorem step_encodeChar (c : Char) (rest : List UInt8) :
    step (encodeChar c ++ rest) = .char c rest := by
  have hvalid := toNat_valid c
  by_cases h1 : c.toNat ≤ 0x7F
  · have hlead : Lead.ofByte? c.toNat = some ⟨c.toNat, 0, 0x80, 0xBF⟩ := if_pos h1
    rw [encodeChar_one h1, List.singleton_append, step_byte (by omega) hlead, readTails,
      Char.ofNat_toNat]
  by_cases h2 : c.toNat ≤ 0x7FF
  · have hlead : Lead.ofByte? (c.toNat / 64 + 0xC0) = some ⟨c.toNat / 64, 1, 0x80, 0xBF⟩ := by
      unfold Lead.ofByte?
      rw [if_neg (by omega), if_pos (by omega), Nat.add_sub_cancel]
    have hcode : c.toNat / 64 * 64 + c.toNat % 64 = c.toNat := by omega
    rw [encodeChar_two (by omega) h2, List.cons_append, List.singleton_append,
      step_byte (by omega) hlead, readTails_tail (by simp only; omega) (by simp only; omega),
      readTails, hcode, Char.ofNat_toNat]
  by_cases h3 : c.toNat ≤ 0xFFFF
  · obtain ⟨low, high, hlead, hlow, hhigh⟩ :=
      exists_lead_three (n := c.toNat) (by omega) h3 (by omega)
    have hcode : (c.toNat / 4096 * 64 + c.toNat / 64 % 64) * 64 + c.toNat % 64 = c.toNat := by
      omega
    rw [encodeChar_three (by omega) h3, List.cons_append, List.cons_append, List.singleton_append,
      step_byte (by omega) hlead, readTails_tail hlow hhigh, readTails_tail (by omega) (by omega),
      readTails, hcode, Char.ofNat_toNat]
  · obtain ⟨low, high, hlead, hlow, hhigh⟩ :=
      exists_lead_four (n := c.toNat) (by omega) (by omega)
    have hcode : ((c.toNat / 262144 * 64 + c.toNat / 4096 % 64) * 64 + c.toNat / 64 % 64) * 64 +
        c.toNat % 64 = c.toNat := by
      omega
    rw [encodeChar_four (by omega), List.cons_append, List.cons_append, List.cons_append,
      List.singleton_append, step_byte (by omega) hlead, readTails_tail hlow hhigh,
      readTails_tail (by omega) (by omega), readTails_tail (by omega) (by omega), readTails, hcode,
      Char.ofNat_toNat]

/-- All that a first byte can be. Two bytes with two tails and two with three bound the byte after
them. -/
theorem ofByte?_cases (h : Lead.ofByte? n = some lead) :
    (n ≤ 0x7F ∧ lead.bits = n ∧ lead.tails = 0) ∨
      (0xC2 ≤ n ∧ n ≤ 0xDF ∧ lead.bits = n - 0xC0 ∧ lead.tails = 1 ∧ lead.low = 0x80 ∧
        lead.high = 0xBF) ∨
      (0xE0 ≤ n ∧ n ≤ 0xEF ∧ lead.bits = n - 0xE0 ∧ lead.tails = 2 ∧ 0x80 ≤ lead.low ∧
        lead.high ≤ 0xBF ∧ (n = 0xE0 → lead.low = 0xA0) ∧ (n = 0xED → lead.high = 0x9F)) ∨
      (0xF0 ≤ n ∧ n ≤ 0xF4 ∧ lead.bits = n - 0xF0 ∧ lead.tails = 3 ∧ 0x80 ≤ lead.low ∧
        lead.high ≤ 0xBF ∧ (n = 0xF0 → lead.low = 0x90) ∧ (n = 0xF4 → lead.high = 0x8F)) := by
  unfold Lead.ofByte? at h
  split_ifs at h
  all_goals
    have hlead := Option.some.inj h
    subst hlead
    simp only [true_and, and_true, implies_true]
    omega

/-- What stands at the front of a sequence of bytes is a character only if its bytes do. -/
theorem eq_encodeChar_of_step (h : step bytes = .char c rest) : bytes = encodeChar c ++ rest := by
  cases bytes with
  | nil => cases h
  | cons b more =>
    rw [step] at h
    split at h
    · cases h
    · next lead hlead =>
      rcases ofByte?_cases hlead with ⟨hb, hbits, htails⟩ |
        ⟨hlow, hhigh, hbits, htails, hleast, hgreatest⟩ |
        ⟨hlow, hhigh, hbits, htails, hleast, hgreatest, hfirst, hlast⟩ |
        ⟨hlow, hhigh, hbits, htails, hleast, hgreatest, hfirst, hlast⟩
      · rw [hbits, htails] at h
        cases h
        have hc := toNat_ofNat (n := b.toNat) (by omega)
        rw [encodeChar_one (by omega), hc, UInt8.ofNat_toNat]
        rfl
      · rw [hbits, htails] at h
        obtain ⟨b₁, more, rfl, hlow₁, hhigh₁, hend⟩ := readTails_eq_char h
        cases hend
        have hc := toNat_ofNat (n := (b.toNat - 0xC0) * 64 + b₁.toNat % 64) (by omega)
        rw [encodeChar_two (by omega) (by omega), hc, ← eq_byte (b := b) (by omega),
          ← eq_tail (b := b₁) (by omega) (by omega) (by omega)]
        rfl
      · rw [hbits, htails] at h
        obtain ⟨b₁, more, rfl, hlow₁, hhigh₁, hthen⟩ := readTails_eq_char h
        obtain ⟨b₂, more, rfl, hlow₂, hhigh₂, hend⟩ := readTails_eq_char hthen
        cases hend
        have hc := toNat_ofNat
          (n := ((b.toNat - 0xE0) * 64 + b₁.toNat % 64) * 64 + b₂.toNat % 64) (by omega)
        rw [encodeChar_three (by omega) (by omega), hc, ← eq_byte (b := b) (by omega),
          ← eq_tail (b := b₁) (by omega) (by omega) (by omega),
          ← eq_tail (b := b₂) hlow₂ hhigh₂ (by omega)]
        rfl
      · rw [hbits, htails] at h
        obtain ⟨b₁, more, rfl, hlow₁, hhigh₁, hthen⟩ := readTails_eq_char h
        obtain ⟨b₂, more, rfl, hlow₂, hhigh₂, hthen⟩ := readTails_eq_char hthen
        obtain ⟨b₃, more, rfl, hlow₃, hhigh₃, hend⟩ := readTails_eq_char hthen
        cases hend
        have hc := toNat_ofNat (n := (((b.toNat - 0xF0) * 64 + b₁.toNat % 64) * 64 +
          b₂.toNat % 64) * 64 + b₃.toNat % 64) (by omega)
        rw [encodeChar_four (by omega), hc, ← eq_byte (b := b) (by omega),
          ← eq_tail (b := b₁) (by omega) (by omega) (by omega),
          ← eq_tail (b := b₂) hlow₂ hhigh₂ (by omega),
          ← eq_tail (b := b₃) hlow₃ hhigh₃ (by omega)]
        rfl

/-! ## Whole texts -/

theorem encode_cons : encode (c :: s) = encodeChar c ++ encode s := List.flatMap_cons

theorem encodeChar_ne_nil (c : Char) : encodeChar c ≠ [] := by
  intro h
  have hstep := step_encodeChar c []
  rw [h] at hstep
  cases hstep

/-- A text is read from its bytes if there is fuel for all its characters. -/
theorem decodeWithin_encode {total fuel : Nat} (h : s.length < fuel) :
    decodeWithin total fuel (encode s) = .ok s := by
  induction s generalizing fuel with
  | nil =>
    obtain ⟨fuel, rfl⟩ := Nat.exists_eq_add_of_lt h
    rfl
  | cons c s ih =>
    obtain ⟨fuel, rfl⟩ : ∃ m, fuel = m + 1 := ⟨fuel - 1, by omega⟩
    have hs : s.length < fuel := Nat.lt_of_succ_lt_succ h
    rw [encode_cons, decodeWithin, step_encodeChar]
    simp only [ih hs, map_ok]

/-- What is read with more fuel than there are bytes is a text with these bytes. -/
theorem eq_encode_of_decodeWithin {total fuel : Nat} (hfuel : bytes.length < fuel)
    (h : decodeWithin total fuel bytes = .ok s) : bytes = encode s := by
  induction fuel generalizing bytes s with
  | zero => exact absurd hfuel (Nat.not_lt_zero _)
  | succ fuel ih =>
    rw [decodeWithin] at h
    split at h
    · next hstep =>
      cases h
      exact eq_nil_of_step hstep
    · next c rest hstep =>
      obtain ⟨s, hs, rfl⟩ := map_eq_ok.mp h
      have hbytes := eq_encodeChar_of_step hstep
      have hpos : 0 < (encodeChar c).length := List.length_pos_of_ne_nil (encodeChar_ne_nil c)
      have hlength : rest.length < fuel := by
        rw [hbytes, List.length_append] at hfuel
        omega
      rw [encode_cons, ← ih hlength hs]
      exact hbytes
    · cases h
    · cases h

theorem length_le_encode (s : List Char) : s.length ≤ (encode s).length := by
  induction s with
  | nil => exact Nat.le_refl 0
  | cons c s ih =>
    have hpos : 0 < (encodeChar c).length := List.length_pos_of_ne_nil (encodeChar_ne_nil c)
    rw [encode_cons, List.length_append, List.length_cons]
    omega

/-- Bytes are read as a text exactly if they are the bytes of the text. -/
theorem decode_eq_ok_iff : decode bytes = .ok s ↔ bytes = encode s := by
  constructor
  · intro h
    exact eq_encode_of_decodeWithin (Nat.lt_succ_self _) h
  · rintro rfl
    have hlength := length_le_encode s
    exact decodeWithin_encode (by omega)

/-! ## Places in bytes -/

/-- How many characters the first `n` bytes of a text are, if a character ends there. -/
def charOffset? : List Char → Nat → Option Nat
  | [], n => if n = 0 then some 0 else none
  | c :: s, n =>
    if n = 0 then some 0
    else if c.utf8Size ≤ n then (charOffset? s (n - c.utf8Size)).map (· + 1)
    else none

theorem byteLength_append : byteLength (x ++ y) = byteLength x + byteLength y := by
  induction x with
  | nil =>
    show byteLength y = 0 + byteLength y
    omega
  | cons c x ih =>
    show c.utf8Size + byteLength (x ++ y) = c.utf8Size + byteLength x + byteLength y
    omega

theorem charOffset?_append : charOffset? (x ++ y) (byteLength x) = some x.length := by
  induction x with
  | nil => cases y <;> rfl
  | cons c x ih =>
    have hpos : 0 < c.utf8Size := Char.utf8Size_pos c
    have hlength : byteLength (c :: x) = c.utf8Size + byteLength x := rfl
    have hafter : c.utf8Size + byteLength x - c.utf8Size = byteLength x := by omega
    rw [List.cons_append, charOffset?, hlength, if_neg (by omega), if_pos (by omega), hafter, ih]
    rfl

end RestQuery.Text.Utf8
