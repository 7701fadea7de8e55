import RestQuery.Proofs.Outcome
import RestQuery.Proofs.Text.Numerals
import RestQuery.Proofs.Value.Quoting
import RestQuery.Select.Parser

/-!
# Names, casts and paths read back

Each token that `Select.render` writes is read back as it was, if what follows cannot be taken for
more of it. Only one kind of token fails: the name of a member that begins like an index and is
written without quotes, which is cut short where its digits end.
-/

namespace RestQuery.Select

open Text (Stops Begins)

variable {rest : List Char}

/-! ## Characters -/

theorem isNameChar_of_isDigit {c : Char} (h : c.isDigit = true) : isNameChar c = true := by
  have h9 : c.toNat ≤ 57 := by
    simp only [Char.isDigit, ge_iff_le, Bool.and_eq_true, decide_eq_true_eq] at h
    exact h.2
  have hlt : c.toNat < 128 := by omega
  simp [isNameChar, Text.isAlphanumeric, hlt, Char.isAlphanum, h]

theorem stops_isDigit (h : Stops isNameChar rest) : Stops Char.isDigit rest :=
  h.mono fun _ => isNameChar_of_isDigit

/-! ## Names -/

/-- A word that is written without quotes. -/
def IsPlain (name : List Char) : Prop := name ≠ [] ∧ ∀ c ∈ name, isNameChar c = true

theorem isPlain_iff {name : List Char} :
    IsPlain name ↔ (!name.isEmpty && name.all isNameChar) = true := by
  simp [IsPlain]

theorem renderName_of_isPlain {name : String} (h : IsPlain name.toList) :
    renderName name = name.toList := by
  simp only [renderName, if_pos (isPlain_iff.mp h)]

theorem renderName_of_not_isPlain {name : String} (h : ¬ IsPlain name.toList) :
    renderName name = Value.quote name.toList := by
  simp only [renderName, if_neg (isPlain_iff.not.mp h)]
  rfl

/-- A plain word is read up to the first character that may not stand in it. -/
theorem readName_plain {name : List Char} (h : IsPlain name) (hr : Stops isNameChar rest) :
    readName (name ++ rest) = .ok (.ofList name, rest) := by
  obtain ⟨hne, hall⟩ := h
  have hquote : (name ++ rest).head? ≠ some '"' := by
    cases name with
    | nil => exact absurd rfl hne
    | cons c name =>
      intro he
      have hc : c = '"' := by simpa using he
      exact absurd (hall c (by simp)) (hc ▸ by decide)
  unfold readName
  rw [if_neg hquote, Text.takeWhile_run hall hr, Text.dropWhile_run hall hr]
  simp [hne]

theorem readName_quote {name : List Char} (h : name ≠ []) :
    readName (Value.quote name ++ rest) = .ok (.ofList name, rest) := by
  have hhead : (Value.quote name ++ rest).head? = some '"' := rfl
  unfold readName
  rw [if_pos hhead, Value.quoted?_quote]
  cases name with
  | nil => exact absurd rfl h
  | cons c name => rfl

/-- A name is read back as it was written. -/
theorem readName_renderName {name : String} (h : name ≠ "") (hr : Stops isNameChar rest) :
    readName (renderName name ++ rest) = .ok (name, rest) := by
  by_cases hp : IsPlain name.toList
  · rw [renderName_of_isPlain hp, readName_plain hp hr, String.ofList_toList]
  · rw [renderName_of_not_isPlain hp, readName_quote (by simpa using h), String.ofList_toList]

/-! ## Casts -/

/-- The name of a type, which brackets may follow. -/
def IsType (type : List Char) : Prop :=
  ∃ word, word ≠ [] ∧ (∀ c ∈ word, isTypeChar c = true) ∧
    (type = word ∨ type = word ++ ['[', ']'])

/-- A cast is read back, if a point or the end of its node follows. -/
theorem readCast_renderCast {cast : Option String} (h : ∀ t ∈ cast, IsType t.toList)
    (hr : Begins ['.', ',', ')'] rest) : readCast (renderCast cast ++ rest) = .ok (cast, rest) := by
  cases cast with
  | none =>
    show readCast rest = _
    unfold readCast
    split
    · exact absurd (hr ':' rfl) (by decide)
    · rfl
  | some type =>
    obtain ⟨word, hne, hall, htype⟩ := h type rfl
    have hw : ∀ left, Stops isTypeChar left →
        (word ++ left).takeWhile isTypeChar = word ∧ (word ++ left).dropWhile isTypeChar = left :=
      fun left hl => ⟨Text.takeWhile_run hall hl, Text.dropWhile_run hall hl⟩
    rcases htype with ht | ht
    · obtain ⟨htake, hdrop⟩ := hw rest (hr.stops (by decide))
      have hbracket : ∀ left, rest ≠ '[' :: left := by
        rintro left rfl
        exact absurd (hr '[' rfl) (by decide)
      simp [renderCast, readCast, ht, htake, hdrop, hne, hbracket, ← String.toList_inj]
    · obtain ⟨htake, hdrop⟩ := hw ('[' :: ']' :: rest) (by simp; decide)
      simp [renderCast, readCast, ht, htake, hdrop, hne, ← String.toList_inj]

/-! ## Aggregates -/

/-- The name of an aggregate is read back, whatever follows its brackets. -/
theorem readAggregate_some (a : Aggregate) :
    readAggregate ('.' :: a.name.toList ++ "()".toList ++ rest) = .ok (some a, rest) := by
  have hplain : IsPlain a.name.toList := by
    cases a <;> exact isPlain_iff.mpr (by decide)
  have hname : readName (a.name.toList ++ '(' :: ')' :: rest) =
      .ok (a.name, '(' :: ')' :: rest) := by
    rw [readName_plain hplain (by simp; decide), String.ofList_toList]
  have hof : Aggregate.ofName? a.name = some a := by
    cases a <;> decide
  simp [readAggregate, hname, hof]

theorem readAggregate_none (hr : Begins [',', ')'] rest) :
    readAggregate rest = .ok (none, rest) := by
  unfold readAggregate
  split
  · exact absurd (hr '.' rfl) (by decide)
  · rfl

end RestQuery.Select
