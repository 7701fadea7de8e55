import Mathlib.Data.List.TakeWhile
import RestQuery.Text.Blank
import RestQuery.Text.Scan

/-!
# Runs of characters and separated items

What the two loops of `RestQuery.Text.Scan` and the runs of a class of characters do on a text that
is put together from known parts.
-/

namespace RestQuery.Text

/-! ## Runs -/

/-- `rest` does not go on with a character of the class `p`. -/
def Stops (p : Char → Bool) (rest : List Char) : Prop := ∀ c ∈ rest.head?, p c = false

variable {p q : Char → Bool} {c : Char} {xs rest : List Char}

@[simp] theorem stops_nil : Stops p [] := by simp [Stops]

@[simp] theorem stops_cons : Stops p (c :: rest) ↔ p c = false := by simp [Stops]

theorem Stops.mono (h : Stops p rest) (hpq : ∀ c, q c = true → p c = true) : Stops q rest := by
  intro c hc
  have hp := h c hc
  cases hq : q c with
  | false => rfl
  | true => simp [hpq c hq] at hp

theorem Stops.of_append (h : Stops p (xs ++ rest)) : Stops p xs := by
  intro c hc
  exact h c (by cases xs <;> simp_all)

theorem stops_dropWhile : Stops p (xs.dropWhile p) := by
  intro c hc
  simpa [Option.mem_def.mp hc] using List.head?_dropWhile_not p xs

theorem takeWhile_append_stops (hr : Stops p rest) :
    (xs ++ rest).takeWhile p = xs.takeWhile p := by
  induction xs with
  | nil =>
    cases rest with
    | nil => rfl
    | cons c rest => simp [stops_cons.mp hr]
  | cons c xs ih => simp [List.takeWhile_cons, ih]

theorem takeWhile_run (hx : ∀ c ∈ xs, p c = true) (hr : Stops p rest) :
    (xs ++ rest).takeWhile p = xs := by
  rw [List.takeWhile_append_of_pos hx, ← List.nil_append rest, takeWhile_append_stops hr]
  simp

theorem dropWhile_run (hx : ∀ c ∈ xs, p c = true) (hr : Stops p rest) :
    (xs ++ rest).dropWhile p = rest := by
  rw [List.dropWhile_append_of_pos hx]
  cases rest with
  | nil => simp
  | cons c rest => simp [stops_cons.mp hr]

/-- A text with no blank at either end is trimmed to itself. -/
theorem trim_eq_self (hfirst : ∀ c ∈ xs.head?, isBlank c = false)
    (hlast : ∀ c ∈ xs.getLast?, isBlank c = false) : trim xs = xs := by
  have hself (xs : List Char) (h : ∀ c ∈ xs.head?, isBlank c = false) :
      xs.dropWhile isBlank = xs := by
    cases xs with
    | nil => rfl
    | cons c xs => exact List.dropWhile_cons_of_neg (by simp [h c rfl])
  have hend : xs.reverse.dropWhile isBlank = xs.reverse := hself xs.reverse (by simpa using hlast)
  unfold trim trimStart trimEnd
  rw [hself xs hfirst, hend, List.reverse_reverse]

theorem exists_trimEnd (xs : List Char) :
    ∃ after, xs = trimEnd xs ++ after ∧ ∀ c ∈ after, isBlank c = true := by
  refine ⟨(xs.reverse.takeWhile isBlank).reverse, ?_, fun c hc => ?_⟩
  · unfold trimEnd
    rw [← List.reverse_append, List.takeWhile_append_dropWhile, List.reverse_reverse]
  · exact List.all_eq_true.mp List.all_takeWhile c (List.mem_reverse.mp hc)

/-- A text is what it is trimmed to with blanks around it. -/
theorem exists_trim (xs : List Char) : ∃ before after, xs = before ++ (trim xs ++ after) ∧
    (∀ c ∈ before, isBlank c = true) ∧ ∀ c ∈ after, isBlank c = true := by
  obtain ⟨after, hend, hafter⟩ := exists_trimEnd (trimStart xs)
  have hstart : xs = xs.takeWhile isBlank ++ trimStart xs :=
    List.takeWhile_append_dropWhile.symm
  rw [hend] at hstart
  exact ⟨xs.takeWhile isBlank, after, hstart,
    List.all_eq_true.mp List.all_takeWhile, hafter⟩

theorem stops_trim : Stops isBlank (trim xs) := by
  obtain ⟨after, hend, -⟩ := exists_trimEnd (trimStart xs)
  have hstart : Stops isBlank (trimStart xs) := stops_dropWhile
  rw [hend] at hstart
  exact hstart.of_append

/-- A text that does not begin with a blank is not trimmed away. -/
theorem isEmpty_trim (hne : xs ≠ []) (h : Stops isBlank xs) : (trim xs).isEmpty = false := by
  obtain ⟨before, after, htrim, hbefore, hafter⟩ := exists_trim xs
  cases htext : trim xs with
  | cons c s => rfl
  | nil =>
    rw [htext, List.nil_append] at htrim
    obtain ⟨c, s, rfl⟩ := List.exists_cons_of_ne_nil hne
    have hblank : isBlank c = true := by
      have hc : c ∈ before ++ after := htrim ▸ List.mem_cons_self
      exact (List.mem_append.mp hc).elim (hbefore c) (hafter c)
    rw [stops_cons.mp h] at hblank
    cases hblank

/-- Only blanks are trimmed away altogether. -/
theorem isEmpty_trim_iff : (trim xs).isEmpty = true ↔ ∀ c ∈ xs, isBlank c = true := by
  rw [List.isEmpty_iff]
  constructor
  · intro h
    obtain ⟨before, after, hxs, hbefore, hafter⟩ := exists_trim xs
    rw [h, List.nil_append] at hxs
    intro c hc
    rw [hxs] at hc
    exact (List.mem_append.mp hc).elim (hbefore c) (hafter c)
  · intro h
    have hstart : trimStart xs = [] := List.dropWhile_eq_nil_iff.mpr h
    unfold trim
    rw [hstart]
    rfl

/-! ## First characters -/

/-- `rest` is empty or begins with one of `cs`. -/
def Begins (cs rest : List Char) : Prop := ∀ c ∈ rest.head?, c ∈ cs

variable {cs ds : List Char}

@[simp] theorem begins_nil : Begins cs [] := by simp [Begins]

@[simp] theorem begins_cons : Begins cs (c :: rest) ↔ c ∈ cs := by simp [Begins]

theorem Begins.mono (h : Begins cs rest) (hd : ∀ c ∈ cs, c ∈ ds) : Begins ds rest :=
  fun c hc => hd c (h c hc)

theorem Begins.stops (h : Begins cs rest) (hp : cs.all (fun c => !p c) = true) : Stops p rest := by
  intro c hc
  simpa using List.all_eq_true.mp hp c (h c hc)

theorem Begins.append (hx : Begins cs xs) (h : Begins cs rest) : Begins cs (xs ++ rest) := by
  cases xs with
  | nil => exact h
  | cons c xs => exact begins_cons.mpr (begins_cons.mp hx)

/-! ## Repeating a piece -/

section Pieces

variable {ε : Type} {piece : List Char → Except ε (Option (List Char))} {s : List Char}

theorem skipMany_some (h : piece s = .ok (some rest)) (hlt : rest.length < s.length) :
    skipMany piece s = skipMany piece rest := by
  rw [skipMany, h]
  simp [hlt]

theorem skipMany_none (h : piece s = .ok none) : skipMany piece s = .ok s := by
  rw [skipMany, h]

theorem skipMany_error {e : ε} (h : piece s = .error e) : skipMany piece s = .error e := by
  rw [skipMany, h]

/-- All that repeating a piece can be: no piece that takes something, or a first piece and what
repeating it does on the text after that. -/
theorem skipMany_cases (h : skipMany piece s = .ok rest) :
    (rest = s ∧ ∃ read, piece s = .ok read ∧ ∀ later ∈ read, s.length ≤ later.length) ∨
      ∃ later, piece s = .ok (some later) ∧ later.length < s.length ∧
        skipMany piece later = .ok rest := by
  rw [skipMany] at h
  split at h
  · cases h
  · next hpiece =>
    cases h
    exact .inl ⟨rfl, none, hpiece, by simp⟩
  · next later hpiece =>
    split at h
    · next hlt => exact .inr ⟨later, hpiece, hlt, h⟩
    · next hge =>
      cases h
      exact .inl ⟨rfl, some later, hpiece, by simpa using hge⟩

theorem consumed_append : consumed (xs ++ rest) rest = xs := by simp [consumed]

end Pieces

/-! ## Items with a separator -/

section Items

variable {ε α : Type} {item : List Char → Except ε (α × List Char)} {sep : Char} {x : α}
  {s left : List Char} {items : List α}

/-- The last item is the one that no separator follows. -/
theorem sepBy_last (h : item s = .ok (x, rest)) (hr : rest.head? ≠ some sep) :
    sepBy item sep s = .ok ([x], rest) := by
  rw [sepBy, h]
  cases rest with
  | nil => rfl
  | cons c rest => simp [show c ≠ sep by simpa using hr]

/-- An item that a separator follows is the first of those that are read after the separator. -/
theorem sepBy_more (h : item s = .ok (x, sep :: rest)) (hlt : rest.length < s.length) :
    sepBy item sep s = (sepBy item sep rest).map fun p => (x :: p.1, p.2) := by
  rw [sepBy, h]
  simp only [hlt, if_true]
  cases sepBy item sep rest <;> rfl

theorem sepBy_error {e : ε} (h : item s = .error e) : sepBy item sep s = .error e := by
  rw [sepBy, h]

/-- All that a list of items can be: its first item alone, or with the items that are read after
the separator. -/
theorem sepBy_cases (h : sepBy item sep s = .ok (items, left)) :
    ∃ x rest, item s = .ok (x, rest) ∧
      ((items = [x] ∧ left = rest) ∨
        ∃ more later, rest = sep :: more ∧ more.length < s.length ∧
          sepBy item sep more = .ok (later, left) ∧ items = x :: later) := by
  rw [sepBy] at h
  split at h
  · cases h
  · next x hx =>
    cases h
    exact ⟨x, [], hx, .inl ⟨rfl, rfl⟩⟩
  · next x c more hx =>
    refine ⟨x, c :: more, hx, ?_⟩
    split at h
    · next hc =>
      split at h
      · next hlt =>
        split at h
        · cases h
        · next later left' hlater =>
          cases h
          exact .inr ⟨more, later, by rw [hc], hlt, hlater, rfl⟩
      · cases h
        exact .inl ⟨rfl, rfl⟩
    · cases h
      exact .inl ⟨rfl, rfl⟩

/-- What holds of every item that can be read holds of all items of a list. -/
theorem forall_of_sepBy {P : α → Prop} (hitem : ∀ s x rest, item s = .ok (x, rest) → P x)
    (h : sepBy item sep s = .ok (items, left)) : ∀ x ∈ items, P x := by
  induction items generalizing s with
  | nil => simp
  | cons y items ih =>
    obtain ⟨x, rest, hx, ⟨hitems, -⟩ | ⟨more, later, -, -, hlater, hitems⟩⟩ := sepBy_cases h
    · cases hitems
      simpa using hitem s y rest hx
    · cases hitems
      exact List.forall_mem_cons.mpr ⟨hitem s y rest hx, ih hlater⟩

end Items

end RestQuery.Text
