import RestQuery.Proofs.Value.Elements
import RestQuery.Proofs.Value.Quoting
import RestQuery.Value.Items

/-!
# Lists are read back

An item that is put between quotes is read back whatever it holds: no comma, bracket, quote or blank
in it can end it, and it is never taken for anything but text. An item without quotes is read back
if it has no blank at either end and holds no comma, quote or bracket.
-/

namespace RestQuery.Value

/-! ## Items and lists as they are written -/

/-- An item as it is written. -/
def Item.spell (i : Item) : List Char := if i.quoted then quote i.text else i.text

/-- A text that can stand in a list without quotes. -/
structure StandsBare (b : List Char) : Prop where
  /-- The text does not begin with a blank. -/
  begins : ∀ c ∈ b.head?, Text.isBlank c = false
  /-- The text does not end with a blank. -/
  ends : ∀ c ∈ b.getLast?, Text.isBlank c = false
  /-- The text holds no quote, no bracket and no comma. -/
  chars : ∀ c ∈ b, isDelimiter c = false ∧ c ≠ ','

/-- Whether an item can be written: any text can between quotes. -/
def Item.Spellable (i : Item) : Prop := i.quoted = false → StandsBare i.text

/-- A list as it is written, in brackets of either kind. -/
def spellList (bracket : Bracket) (items : List Item) : List Char :=
  bracket.opener :: [','].intercalate (items.map Item.spell) ++ [bracket.closer]

variable {s : List Char} {bracket : Bracket} {i : Item} {items : List Item}

/-! ## Items -/

theorem quoted?_quote_self (s : List Char) : quoted? (quote s) = some (s, []) := by
  simpa using quoted?_quote s []

theorem unquote_quote (s : List Char) : unquote (quote s) = (s, true) := by
  unfold unquote
  rw [quoted?_quote_self]

theorem trim_quote (s : List Char) : Text.trim (quote s) = quote s := by
  refine Text.trim_eq_self ?_ ?_
  · intro c hc
    obtain rfl : '"' = c := by simpa [quote] using hc
    decide
  · intro c hc
    obtain rfl : '"' = c := by
      unfold quote at hc
      rw [List.getLast?_concat] at hc
      simpa using hc
    decide

theorem StandsBare.betweenSeparators (h : StandsBare s) :
    ∀ c ∈ s, betweenSeparators ',' c = true := by
  intro c hc
  obtain ⟨hdelimiter, hcomma⟩ := h.chars c hc
  simp [Value.betweenSeparators, hdelimiter, hcomma]

/-- What stands bare is no quoted text. -/
theorem StandsBare.unquote_eq (h : StandsBare s) : unquote s = (s, false) := by
  have hquoted : quoted? s = none := by
    cases s with
    | nil => rfl
    | cons c s =>
      have hc := h.betweenSeparators c List.mem_cons_self
      exact quoted?_cons_of_ne
        (ne_quote_of_not_isDelimiter (not_isDelimiter_of_betweenSeparators hc))
  unfold unquote
  rw [hquoted]

theorem Item.Spellable.trim_spell (h : i.Spellable) : Text.trim i.spell = i.spell := by
  unfold Item.spell
  split
  · exact trim_quote i.text
  · next hquoted =>
    have hbare := h (Bool.eq_false_iff.mpr hquoted)
    exact Text.trim_eq_self hbare.begins hbare.ends

theorem Item.Spellable.ofPiece_spell (h : i.Spellable) : Item.ofPiece i.spell = i := by
  obtain ⟨text, quoted⟩ := i
  unfold Item.ofPiece
  rw [h.trim_spell]
  cases quoted with
  | true =>
    show Item.mk (unquote (quote text)).1 (unquote (quote text)).2 = _
    rw [unquote_quote]
  | false =>
    show Item.mk (unquote text).1 (unquote text).2 = _
    rw [(h rfl).unquote_eq]

/-- No comma in an item is a separator. -/
theorem Item.Spellable.balanced_spell (h : i.Spellable) :
    Balanced (betweenSeparators ',') 0 i.spell := by
  unfold Item.spell
  split
  · have hquoted : Balanced (betweenSeparators ',') 0 (quote i.text ++ []) :=
      .quoted (quoted?_quote_self i.text) .nil
    simpa using hquoted
  · next hquoted =>
    have hbare := h (Bool.eq_false_iff.mpr hquoted)
    exact .of_forall hbare.betweenSeparators

/-! ## Lists -/

theorem spell_ne_nil (h : i ≠ ⟨[], false⟩) : i.spell ≠ [] := by
  obtain ⟨text, quoted⟩ := i
  cases quoted with
  | true => simp [Item.spell, quote]
  | false =>
    rintro rfl
    exact h rfl

/-- The items of pieces as they are written are these items. An empty item without quotes cannot
stand alone, since brackets with nothing between them are the empty list. -/
theorem itemsOfPieces_spell (h : ∀ i ∈ items, i.Spellable) (hone : items ≠ [⟨[], false⟩])
    (hne : items ≠ []) : itemsOfPieces (items.map Item.spell) = items := by
  have hmap : (items.map Item.spell).map Item.ofPiece = items := by
    rw [List.map_map]
    exact (List.map_congr_left fun i hi => (h i hi).ofPiece_spell).trans (List.map_id items)
  match items with
  | [] => exact absurd rfl hne
  | [i] =>
    have hblank : (Text.trim i.spell).isEmpty = false := by
      rw [(h i List.mem_cons_self).trim_spell, List.isEmpty_eq_false_iff]
      exact spell_ne_nil fun hi => hone (by rw [hi])
    show (if (Text.trim i.spell).isEmpty then [] else [Item.ofPiece i.spell]) = [i]
    rw [hblank, if_neg Bool.false_ne_true]
    exact hmap
  | i :: i' :: later => exact hmap

theorem listCloser?_opener (h : bracket ≠ .square) :
    listCloser? bracket.opener = some bracket.closer := by
  cases bracket with
  | round => rfl
  | curly => rfl
  | square => exact absurd rfl h

theorem trim_spellList : Text.trim (spellList bracket items) = spellList bracket items := by
  unfold spellList
  refine Text.trim_eq_self ?_ ?_
  · intro c hc
    obtain rfl : bracket.opener = c := by simpa using hc
    cases bracket <;> decide
  · intro c hc
    rw [List.getLast?_concat] at hc
    obtain rfl : bracket.closer = c := by simpa using hc
    cases bracket <;> decide

/-- What is read between the brackets of a list is the text of its items, one by one. -/
theorem sepBy_spell (bracket : Bracket) (h : ∀ i ∈ items, i.Spellable)
    (hone : items ≠ [⟨[], false⟩]) :
    ∃ pieces, Text.sepBy (segment (maxNesting - 1) ',') ','
        ([','].intercalate (items.map Item.spell) ++ [bracket.closer]) =
          .ok (pieces, [bracket.closer]) ∧ itemsOfPieces pieces = items := by
  have hread (pieces : List (List Char)) (hne : pieces ≠ [])
      (hpieces : ∀ s ∈ pieces, Balanced (betweenSeparators ',') 0 s) :
      Text.sepBy (segment (maxNesting - 1) ',') ','
        ([','].intercalate pieces ++ [bracket.closer]) = .ok (pieces, [bracket.closer]) := by
    have hstop : piece? (group? (maxNesting - 1)) (betweenSeparators ',') [bracket.closer] =
        .ok none := by
      cases bracket <;> rfl
    have hlast : [bracket.closer].head? ≠ some ',' := by
      cases bracket <;> decide
    rcases sepBy_intercalate rfl hne hpieces hstop hlast with hread | ⟨hdeep, -⟩
    · exact hread
    · exact absurd hdeep (by decide)
  by_cases hne : items = []
  · -- Between the brackets of the empty list one piece is read, which is empty.
    subst hne
    exact ⟨[[]], hread [[]] (by simp) (by simpa using Balanced.nil), rfl⟩
  · refine ⟨items.map Item.spell, hread _ (by simpa using hne) ?_,
      itemsOfPieces_spell h hone hne⟩
    intro s hs
    obtain ⟨i, hi, rfl⟩ := List.mem_map.mp hs
    exact (h i hi).balanced_spell

/-- A list is read back as its items. -/
theorem list?_spellList (h : ∀ i ∈ items, i.Spellable) (hone : items ≠ [⟨[], false⟩])
    (hbracket : bracket ≠ .square) : list? (spellList bracket items) = some (.ok items) := by
  obtain ⟨pieces, hread, hitems⟩ := sepBy_spell bracket h hone
  have hlist : Text.trim (spellList bracket items) =
      bracket.opener :: ([','].intercalate (items.map Item.spell) ++ [bracket.closer]) :=
    trim_spellList
  unfold list?
  rw [hlist]
  dsimp only
  rw [listCloser?_opener hbracket]
  dsimp only
  rw [List.getLast?_concat, if_neg (by simp), hread]
  simp [hitems]

end RestQuery.Value
