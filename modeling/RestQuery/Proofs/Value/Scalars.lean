import RestQuery.Json.Printer
import RestQuery.Proofs.Text.Numerals
import RestQuery.Proofs.Text.Splitting
import RestQuery.Value.Scalar

/-!
# What a text without quotes stands for

Outside decimals nothing of a text is lost when it is read as a value: integers are read from their
canonical numerals alone, the three words from themselves, and every other text stays what it is.
So the value written as a text is the text that was read. A decimal may be rounded, but it is never
read as an integer.
-/

namespace RestQuery

/-- The text of a value: a text is its own, and other values are written. -/
def Json.text : Json → List Char
  | .str s => s.toList
  | j => j.compactChars

namespace Value

open Text

variable {s whole fraction : List Char} {negative : Bool} {n : Int}

/-! ## Integers -/

/-- An integer has sixty-four bits, of which one is its sign. -/
def Fits (n : Int) : Prop := -9223372036854775808 ≤ n ∧ n ≤ 9223372036854775807

instance (n : Int) : Decidable (Fits n) := inferInstanceAs (Decidable (_ ∧ _))

theorem fitsSigned_iff : Numeral.fitsSigned n = true ↔ Fits n := by
  have hpow : Int.pow 2 63 = 9223372036854775808 := rfl
  unfold Numeral.fitsSigned Fits
  rw [Bool.and_eq_true, decide_eq_true_eq, decide_eq_true_eq, hpow]
  omega

/-- The canonical numerals are those that are written for integers of sixty-four bits. -/
theorem canonicalInt?_eq_some_iff :
    canonicalInt? s = some n ↔ s = Numeral.ofInt n ∧ Fits n := by
  unfold canonicalInt?
  constructor
  · intro h
    split at h
    · next m hm =>
      split at h
      · next hcanonical =>
        cases h
        obtain ⟨hfits, hwritten⟩ := Bool.and_eq_true_iff.mp hcanonical
        exact ⟨(of_decide_eq_true hwritten).symm, fitsSigned_iff.mp hfits⟩
      · cases h
    · cases h
  · rintro ⟨rfl, hfits⟩
    rw [Numeral.toInt?_ofInt]
    simp [fitsSigned_iff.mpr hfits]

theorem canonicalInt?_eq_none (h : ∀ n, Fits n → s ≠ Numeral.ofInt n) : canonicalInt? s = none := by
  cases hs : canonicalInt? s with
  | none => rfl
  | some n =>
    obtain ⟨hn, hfits⟩ := canonicalInt?_eq_some_iff.mp hs
    exact absurd hn (h n hfits)

/-! ## Decimals -/

/-- A text is a decimal with the given parts: an optional minus sign, a whole part without a
superfluous zero, a point, and a fraction. -/
structure DecimalParts (s : List Char) (negative : Bool) (whole fraction : List Char) : Prop where
  /-- The parts in their order. -/
  spelled : s = (if negative then ['-'] else []) ++ whole ++ '.' :: fraction
  /-- There are digits before the point. -/
  whole_ne : whole ≠ []
  /-- There are digits after the point. -/
  fraction_ne : fraction ≠ []
  /-- Before the point are digits only. -/
  whole_digits : ∀ c ∈ whole, c.isDigit = true
  /-- After the point are digits only. -/
  fraction_digits : ∀ c ∈ fraction, c.isDigit = true
  /-- No zero comes before other digits of the whole part. -/
  no_superfluous : whole = ['0'] ∨ whole.head? ≠ some '0'

/-- A text is a decimal. -/
def IsDecimal (s : List Char) : Prop :=
  ∃ negative whole fraction, DecimalParts s negative whole fraction

/-- The parts after the sign, checked as `decimalParts?` does. -/
theorem isDecimal_check :
    (!whole.isEmpty && !fraction.isEmpty && whole.all Char.isDigit && fraction.all Char.isDigit &&
        (whole = ['0'] || whole.head? != some '0')) = true ↔
      DecimalParts ((if negative then ['-'] else []) ++ whole ++ '.' :: fraction) negative whole
        fraction := by
  simp only [Bool.and_eq_true, Bool.or_eq_true, Bool.not_eq_true', List.isEmpty_eq_false_iff,
    List.all_eq_true, decide_eq_true_eq, bne_iff_ne]
  constructor
  · rintro ⟨⟨⟨⟨hwhole, hfraction⟩, hwhole'⟩, hfraction'⟩, hzero⟩
    exact ⟨rfl, hwhole, hfraction, hwhole', hfraction', hzero⟩
  · intro h
    exact ⟨⟨⟨⟨h.whole_ne, h.fraction_ne⟩, h.whole_digits⟩, h.fraction_digits⟩, h.no_superfluous⟩

theorem not_mem_of_isDigit {c : Char} (h : ∀ d ∈ s, d.isDigit = true) (hc : c.isDigit = false) :
    c ∉ s := by
  intro hmem
  rw [h c hmem] at hc
  cases hc

/-- A text with its sign taken off. -/
theorem exists_sign (s : List Char) : ∃ (negative : Bool) (digits : List Char),
    s = (if negative then ['-'] else []) ++ digits ∧
      (negative = false → digits.head? ≠ some '-') := by
  by_cases hsign : s.head? = some '-'
  · obtain ⟨digits, rfl⟩ := List.head?_eq_some_iff.mp hsign
    exact ⟨true, digits, rfl, by simp⟩
  · exact ⟨false, s, rfl, fun _ => hsign⟩

theorem decimalParts?_sign {digits : List Char} (h : negative = false → digits.head? ≠ some '-') :
    decimalParts? ((if negative then ['-'] else []) ++ digits) =
      match splitOnce '.' digits with
      | none => none
      | some (whole, fraction) =>
        if !whole.isEmpty && !fraction.isEmpty && whole.all Char.isDigit &&
            fraction.all Char.isDigit && (whole = ['0'] || whole.head? != some '0') then
          some (negative, whole, fraction)
        else none := by
  cases negative with
  | true => rfl
  | false =>
    cases digits with
    | nil => rfl
    | cons c digits =>
      have hc : c ≠ '-' := by simpa using h rfl
      unfold decimalParts?
      split
      next hsign =>
        split at hsign
        · next hminus =>
          cases hminus
          exact absurd rfl hc
        · cases hsign
          rfl

theorem DecimalParts.head_digits (h : DecimalParts s negative whole fraction) :
    (whole ++ '.' :: fraction).head? ≠ some '-' := by
  obtain ⟨c, more, rfl⟩ := List.exists_cons_of_ne_nil h.whole_ne
  have hc := h.whole_digits c List.mem_cons_self
  rintro hsign
  cases hsign
  exact absurd hc (by decide)

/-- The parts that are found are those of which the text is made. -/
theorem decimalParts?_eq_some_iff :
    decimalParts? s = some (negative, whole, fraction) ↔
      DecimalParts s negative whole fraction := by
  constructor
  · intro h
    obtain ⟨sign, digits, rfl, hsign⟩ := exists_sign s
    rw [decimalParts?_sign hsign] at h
    split at h
    · cases h
    · next w f hcut =>
      split at h
      · next hcheck =>
        cases h
        obtain ⟨rfl, -⟩ := splitOnce_eq_some_iff.mp hcut
        rw [← List.append_assoc]
        exact isDecimal_check.mp hcheck
      · cases h
  · intro h
    have hpoint : '.' ∉ whole := not_mem_of_isDigit h.whole_digits (by decide)
    have hparts := h
    rw [h.spelled] at hparts
    rw [h.spelled, List.append_assoc, decimalParts?_sign fun _ => h.head_digits,
      splitOnce_append hpoint]
    simp only [isDecimal_check.mpr hparts, if_true]

theorem isDecimal_of_decimal? {x : Binary64} (h : decimal? s = some x) : IsDecimal s := by
  unfold decimal? at h
  split at h
  · cases h
  · next hparts => exact ⟨_, _, _, decimalParts?_eq_some_iff.mp hparts⟩

theorem decimal?_eq_none (h : ¬IsDecimal s) : decimal? s = none := by
  cases hdecimal : decimal? s with
  | none => rfl
  | some x => exact absurd (isDecimal_of_decimal? hdecimal) h

theorem IsDecimal.mem_point (h : IsDecimal s) : '.' ∈ s := by
  obtain ⟨negative, whole, fraction, hparts⟩ := h
  rw [hparts.spelled]
  simp

/-- The numeral of an integer is no decimal. -/
theorem not_isDecimal_ofInt (n : Int) : ¬IsDecimal (Numeral.ofInt n) := by
  intro h
  rcases Numeral.isDigit_or_sign_of_mem_ofInt h.mem_point with hc | hc | hc <;> cases hc

/-! ## Values -/

/-- The word for a truth value. -/
def truthWord (b : Bool) : List Char := (if b then "true" else "false").toList

/-- The words that stand for other values than texts. -/
def words : List (List Char) := ["null".toList, truthWord true, truthWord false]

/-- The value that a text without quotes stands for. -/
inductive StandsFor (s : List Char) : Json → Prop where
  /-- The word for no value. -/
  | null (h : s = "null".toList) : StandsFor s .null
  /-- The words for truth values. -/
  | bool (b : Bool) (h : s = truthWord b) : StandsFor s (.bool b)
  /-- The numeral of an integer of sixty-four bits. -/
  | int (n : Int) (h : s = Numeral.ofInt n) (hfits : Fits n) : StandsFor s (.int n)
  /-- A decimal that is not too large. -/
  | float (x : Binary64) (h : decimal? s = some x) : StandsFor s (.number (.float x))
  /-- Any other text stands for itself. -/
  | text (hword : s ∉ words) (hint : ∀ n, Fits n → s ≠ Numeral.ofInt n)
      (hdecimal : decimal? s = none) : StandsFor s (.str (.ofList s))

theorem toInt?_of_word (h : s ∈ words) : Numeral.toInt? s = none := by
  simp only [words, List.mem_cons, List.not_mem_nil, or_false] at h
  rcases h with rfl | rfl | rfl <;> rfl

theorem ofInt_not_word (n : Int) : Numeral.ofInt n ∉ words := by
  intro hword
  have hnone := toInt?_of_word hword
  rw [Numeral.toInt?_ofInt] at hnone
  cases hnone

theorem IsDecimal.not_word (h : IsDecimal s) : s ∉ words := by
  intro hword
  have hnone : ∀ word ∈ words, '.' ∉ word := by decide
  exact hnone s hword h.mem_point

/-- A text that is no word is read as a number if it is one. -/
theorem coerceScalar_of_not_word (h : s ∉ words) :
    coerceScalar s =
      match canonicalInt? s with
      | some n => .int n
      | none =>
        match decimal? s with
        | some x => .number (.float x)
        | none => .str (.ofList s) := by
  simp only [words, List.mem_cons, List.not_mem_nil, or_false, not_or] at h
  obtain ⟨hnull, htrue, hfalse⟩ := h
  exact (if_neg hnull).trans ((if_neg htrue).trans (if_neg hfalse))

theorem standsFor_coerceScalar (s : List Char) : StandsFor s (coerceScalar s) := by
  by_cases hword : s ∈ words
  · simp only [words, List.mem_cons, List.not_mem_nil, or_false] at hword
    rcases hword with rfl | rfl | rfl
    · exact .null rfl
    · exact .bool true rfl
    · exact .bool false rfl
  · rw [coerceScalar_of_not_word hword]
    cases hint : canonicalInt? s with
    | some n =>
      obtain ⟨hs, hfits⟩ := canonicalInt?_eq_some_iff.mp hint
      exact .int n hs hfits
    | none =>
      cases hdecimal : decimal? s with
      | some x => exact .float x hdecimal
      | none =>
        refine .text hword (fun n hfits hs => ?_) hdecimal
        rw [canonicalInt?_eq_some_iff.mpr ⟨hs, hfits⟩] at hint
        cases hint

/-- A text without quotes is read as what it stands for. -/
theorem coerceScalar_eq_iff {j : Json} : coerceScalar s = j ↔ StandsFor s j := by
  refine ⟨fun h => h ▸ standsFor_coerceScalar s, fun h => ?_⟩
  cases h with
  | null h => rw [h]; rfl
  | bool b h => cases b <;> rw [h] <;> rfl
  | int n h hfits =>
    have hint : canonicalInt? s = some n := canonicalInt?_eq_some_iff.mpr ⟨h, hfits⟩
    have hword : s ∉ words := h ▸ ofInt_not_word n
    rw [coerceScalar_of_not_word hword, hint]
  | float x h =>
    have hdecimal : IsDecimal s := isDecimal_of_decimal? h
    have hnone : canonicalInt? s = none := canonicalInt?_eq_none fun n _ hs =>
      not_isDecimal_ofInt n (hs ▸ hdecimal)
    rw [coerceScalar_of_not_word hdecimal.not_word, hnone, h]
  | text hword hint hdecimal =>
    rw [coerceScalar_of_not_word hword, canonicalInt?_eq_none hint, hdecimal]

theorem coerceScalar_eq_int_iff :
    coerceScalar s = .int n ↔ s = Numeral.ofInt n ∧ Fits n := by
  rw [coerceScalar_eq_iff]
  constructor
  · intro hreads
    cases hreads with
    | int _ h hfits => exact ⟨h, hfits⟩
  · rintro ⟨h, hfits⟩
    exact .int n h hfits

theorem coerceScalar_eq_null_iff : coerceScalar s = .null ↔ s = "null".toList := by
  rw [coerceScalar_eq_iff]
  exact ⟨fun h => by cases h; assumption, .null⟩

theorem coerceScalar_eq_bool_iff {b : Bool} : coerceScalar s = .bool b ↔ s = truthWord b := by
  rw [coerceScalar_eq_iff]
  exact ⟨fun h => by cases h; assumption, .bool b⟩

/-- What is read from a text that is no decimal is written as the text. -/
theorem text_coerceScalar (h : ¬IsDecimal s) : (coerceScalar s).text = s := by
  have hreads := standsFor_coerceScalar s
  generalize coerceScalar s = j at hreads
  cases hreads with
  | null hs => exact hs.symm
  | bool b hs => cases b <;> exact hs.symm
  | int n hs => exact hs.symm
  | float x hx =>
    rw [decimal?_eq_none h] at hx
    cases hx
  | text => exact String.toList_ofList

/-- A text that is no decimal is read as itself exactly if it is no word and no numeral. -/
theorem coerceScalar_eq_str_iff (h : ¬IsDecimal s) :
    coerceScalar s = .str (.ofList s) ↔
      s ∉ words ∧ ∀ n, Fits n → s ≠ Numeral.ofInt n := by
  rw [coerceScalar_eq_iff]
  constructor
  · intro hreads
    cases hreads with
    | text hword hint _ => exact ⟨hword, hint⟩
  · rintro ⟨hword, hint⟩
    exact .text hword hint (decimal?_eq_none h)

theorem coerceScalar_of_isDecimal (h : IsDecimal s) :
    (∃ x, decimal? s = some x ∧ coerceScalar s = .number (.float x)) ∨
      coerceScalar s = .str (.ofList s) := by
  have hreads := standsFor_coerceScalar s
  generalize coerceScalar s = j at hreads
  cases hreads with
  | null hs => exact absurd (by simp [hs, words]) h.not_word
  | bool b hs => exact absurd (by cases b <;> simp [hs, words]) h.not_word
  | int n hs =>
    obtain rfl := hs
    exact absurd h (not_isDecimal_ofInt n)
  | float x hx => exact .inl ⟨x, hx, rfl⟩
  | text => exact .inr rfl

/-- Integers come from canonical numerals alone, words from themselves, and every other text that is
no decimal is kept, so that the value is written as the text and no two texts have the same value. A
decimal is a floating-point number or kept. -/
theorem coerceScalar_lossless (s : List Char) :
    (∀ n, coerceScalar s = .int n ↔ s = Numeral.ofInt n ∧ Fits n) ∧
      (coerceScalar s = .null ↔ s = "null".toList) ∧
      (∀ b, coerceScalar s = .bool b ↔ s = truthWord b) ∧
      (¬IsDecimal s →
        (coerceScalar s = .str (.ofList s) ↔
          s ∉ words ∧ ∀ n, Fits n → s ≠ Numeral.ofInt n) ∧
        (coerceScalar s).text = s ∧
        ∀ t, ¬IsDecimal t → coerceScalar t = coerceScalar s → t = s) ∧
      (IsDecimal s →
        (∃ x, decimal? s = some x ∧ coerceScalar s = .number (.float x)) ∨
          coerceScalar s = .str (.ofList s)) ∧
      (∀ t ∈ ["-0", "+5", "007", "1e5", ".5", "1."], coerceScalar t.toList = .str t) ∧
      ∀ n, ¬Fits n →
        coerceScalar (Numeral.ofInt n) = .str (.ofList (Numeral.ofInt n)) := by
  refine ⟨fun _ => coerceScalar_eq_int_iff, coerceScalar_eq_null_iff,
    fun _ => coerceScalar_eq_bool_iff, fun h => ?_, coerceScalar_of_isDecimal, ?_, fun n hn => ?_⟩
  · refine ⟨coerceScalar_eq_str_iff h, text_coerceScalar h, fun t ht hsame => ?_⟩
    rw [← text_coerceScalar ht, hsame, text_coerceScalar h]
  · simp only [List.forall_mem_cons, List.not_mem_nil, false_implies, implies_true, and_true]
    exact ⟨rfl, rfl, rfl, rfl, rfl, rfl⟩
  · refine (coerceScalar_eq_str_iff (not_isDecimal_ofInt n)).mpr ⟨ofInt_not_word n, ?_⟩
    intro m hfits hsame
    obtain rfl := Numeral.ofInt_injective hsame
    exact hn hfits

/-- The least integer that is a number, the first that is none, and a decimal. -/
theorem coerceScalar_lossless_least :
    ¬IsDecimal "-9223372036854775808".toList ∧ IsDecimal "-0.50".toList ∧
      coerceScalar "-9223372036854775808".toList = .int (-9223372036854775808) ∧
      (coerceScalar "-9223372036854775808".toList).text = "-9223372036854775808".toList ∧
      (∀ t, ¬IsDecimal t → coerceScalar t = .int (-9223372036854775808) →
        t = "-9223372036854775808".toList) ∧
      ((∃ x, decimal? "-0.50".toList = some x ∧
          coerceScalar "-0.50".toList = .number (.float x)) ∨
        coerceScalar "-0.50".toList = .str (.ofList "-0.50".toList)) ∧
      coerceScalar (Numeral.ofInt 9223372036854775808) =
        .str (.ofList (Numeral.ofInt 9223372036854775808)) := by
  have hnot : ¬IsDecimal "-9223372036854775808".toList :=
    fun h => absurd h.mem_point (by decide)
  have hdecimal : IsDecimal "-0.50".toList :=
    ⟨true, ['0'], ['5', '0'], decimalParts?_eq_some_iff.mp rfl⟩
  have hleast : coerceScalar "-9223372036854775808".toList = .int (-9223372036854775808) :=
    ((coerceScalar_lossless _).1 _).mpr ⟨rfl, by decide⟩
  obtain ⟨-, htext, hinjective⟩ := (coerceScalar_lossless _).2.2.2.1 hnot
  refine ⟨hnot, hdecimal, hleast, htext, ?_, (coerceScalar_lossless _).2.2.2.2.1 hdecimal,
    (coerceScalar_lossless []).2.2.2.2.2.2 _ (by decide)⟩
  intro t ht hread
  exact hinjective t ht (hread.trans hleast.symm)

end Value

end RestQuery
