import RestQuery.Proofs.Text.Scanning
import RestQuery.Text.Numeral

/-!
# Numerals read back

Reading the numeral of an integer gives the integer, and a numeral is a run of digits after at most
one minus sign.
-/

namespace RestQuery.Text.Numeral

theorem isDigit_of_mem_ofNat {n : Nat} {c : Char} (h : c ∈ ofNat n) : c.isDigit = true :=
  Nat.isDigit_of_mem_toDigits (by decide) (by decide) h

theorem ofNat_ne_nil (n : Nat) : ofNat n ≠ [] := Nat.toDigits_ne_nil

theorem value_eq_ofDigitChars (digits : List Char) :
    value digits = Nat.ofDigitChars 10 digits 0 := by
  rw [Nat.ofDigitChars_eq_foldl, value]
  simp only [digitValue, Nat.mul_comm]

theorem value_ofNat (n : Nat) : value (ofNat n) = n := by
  rw [value_eq_ofDigitChars, ofNat, Nat.ofDigitChars_ten_toDigits]

theorem toNat?_ofNat (n : Nat) : toNat? (ofNat n) = some n := by
  have hd : (ofNat n).all Char.isDigit = true :=
    List.all_eq_true.mpr fun c hc => isDigit_of_mem_ofNat hc
  simp [toNat?, hd, ofNat_ne_nil, value_ofNat]

/-- A text whose first character is a digit, if it has one, is read without a sign. -/
theorem toInt?_of_no_sign {s : List Char} (h : ∀ c ∈ s.head?, c.isDigit = true) :
    toInt? s = (toNat? s).map fun n => (n : Int) := by
  unfold toInt?
  split
  · exact absurd (h '-' rfl) (by decide)
  · exact absurd (h '+' rfl) (by decide)
  · rfl

theorem toInt?_ofNat (n : Nat) : toInt? (ofNat n) = some (n : Int) := by
  rw [toInt?_of_no_sign, toNat?_ofNat]
  · rfl
  · intro c hc
    exact isDigit_of_mem_ofNat (List.mem_of_mem_head? hc)

theorem toInt?_ofInt (n : Int) : toInt? (ofInt n) = some n := by
  cases n with
  | ofNat n => exact toInt?_ofNat n
  | negSucc n =>
    show (toNat? (ofNat (n + 1))).map (fun n => -(n : Int)) = _
    rw [toNat?_ofNat]
    rfl

theorem isDigit_of_toNat? {s : List Char} (h : toNat? s ≠ none) :
    ∀ c ∈ s, c.isDigit = true := by
  unfold toNat? at h
  split at h
  · exact absurd rfl h
  · next hs =>
    simp only [Bool.or_eq_true, Bool.not_eq_true', not_or, Bool.not_eq_false] at hs
    exact List.all_eq_true.mp hs.2

/-- A text that is read as an integer holds nothing but digits and signs. -/
theorem isDigit_or_sign_of_toInt? {s : List Char} (h : toInt? s ≠ none) {c : Char}
    (hc : c ∈ s) : c.isDigit = true ∨ c = '-' ∨ c = '+' := by
  unfold toInt? at h
  split at h
  · rcases List.mem_cons.mp hc with rfl | hc
    · exact .inr (.inl rfl)
    · exact .inl (isDigit_of_toNat? (fun hn => h (by rw [hn]; rfl)) c hc)
  · rcases List.mem_cons.mp hc with rfl | hc
    · exact .inr (.inr rfl)
    · exact .inl (isDigit_of_toNat? (fun hn => h (by rw [hn]; rfl)) c hc)
  · exact .inl (isDigit_of_toNat? (fun hn => h (by rw [hn]; rfl)) c hc)

/-- Nothing but digits and signs is in the numeral of an integer. -/
theorem isDigit_or_sign_of_mem_ofInt {n : Int} {c : Char} (h : c ∈ ofInt n) :
    c.isDigit = true ∨ c = '-' ∨ c = '+' := by
  refine isDigit_or_sign_of_toInt? ?_ h
  rw [toInt?_ofInt]
  exact Option.some_ne_none n

/-- No two integers have the same numeral. -/
theorem ofInt_injective {m n : Int} (h : ofInt m = ofInt n) : m = n := by
  have hread := congrArg toInt? h
  rw [toInt?_ofInt, toInt?_ofInt] at hread
  exact Option.some.inj hread

end RestQuery.Text.Numeral
