import RestQuery.Value.Delimited

/-!
# Quoted texts read back

A text between quotes is read back as it was, whatever follows the closing quote.
-/

namespace RestQuery.Value

/-- The contents of a quoted text are read back up to the closing quote. -/
theorem quotedTail?_escaped (s rest : List Char) :
    quotedTail? (s.flatMap (fun c => if c = '"' ∨ c = '\\' then ['\\', c] else [c])
      ++ '"' :: rest) = some (s, rest) := by
  induction s with
  | nil => simp [quotedTail?]
  | cons c s ih =>
    rw [List.flatMap_cons, List.append_assoc]
    by_cases hq : c = '"'
    · subst hq
      simp [quotedTail?, ih]
    by_cases hb : c = '\\'
    · subst hb
      simp [quotedTail?, ih]
    · simp [quotedTail?, hq, hb, ih]

theorem quoted?_quote (s rest : List Char) : quoted? (quote s ++ rest) = some (s, rest) := by
  simpa [quoted?, quote] using quotedTail?_escaped s rest

/-- A text without quotes and backslashes is put between quotes as it is. -/
theorem quote_of_plain {s : List Char} (h : ∀ c ∈ s, c ≠ '"' ∧ c ≠ '\\') :
    quote s = '"' :: s ++ ['"'] := by
  have hid : s.flatMap (fun c => if c = '"' || c = '\\' then ['\\', c] else [c]) = s := by
    induction s with
    | nil => rfl
    | cons c s ih =>
      rw [List.flatMap_cons, ih fun d hd => h d (List.mem_cons_of_mem _ hd)]
      simp [h c List.mem_cons_self]
  rw [quote, hid]

end RestQuery.Value
