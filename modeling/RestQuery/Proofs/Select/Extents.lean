import RestQuery.Proofs.Select.Keys
import RestQuery.Proofs.Select.Nodes
import RestQuery.Proofs.Value.Balanced

/-!
# How far a reader reads

Every reader of select lists takes a front part of its text and leaves the rest as it is. The part
is balanced, with groups that nest one level deeper than embeds may, and it is read the same if what
is left after it is cut short. So a list can be cut into its entries, and each entry stands for
itself.
-/

namespace RestQuery.Select

open Text (Stops Begins)
open Value (Balanced betweenSeparators isDelimiter)

variable {α β : Type} {plain : Char → Bool} {n maxDepth levels : Nat} {s x left rest : List Char}
  {name : String}

/-- `read` takes a balanced part off the front of a text, and reads the same if what it leaves is
cut short. -/
def ReadsFront (plain : Char → Bool) (n : Nat) (read : List Char → Reading (α × List Char)) :
    Prop :=
  ∀ s a left, read s = .ok (a, left) →
    ∃ x, s = x ++ left ∧ Balanced plain n x ∧
      ∀ z more, left = z ++ more → read (x ++ z) = .ok (a, z)

theorem ReadsFront.pure (a : α) : ReadsFront plain n fun s => .ok (a, s) := by
  intro s b left h
  cases h
  exact ⟨[], rfl, .nil, fun z _ _ => rfl⟩

/-- What is read by two readers, one after the other, is what they read together. -/
theorem ReadsFront.bind {read : List Char → Reading (α × List Char)}
    {next : α × List Char → Reading (β × List Char)} (h : ReadsFront plain n read)
    (hnext : ∀ a, ReadsFront plain n fun s => next (a, s)) :
    ReadsFront plain n fun s => read s >>= next := by
  intro s b left hs
  obtain ⟨⟨a, middle⟩, hread, hthen⟩ := bind_eq_ok.mp hs
  obtain ⟨x, rfl, hx, hcut⟩ := h s a middle hread
  obtain ⟨y, rfl, hy, hcut'⟩ := hnext a middle b left hthen
  refine ⟨x ++ y, by simp, hx.append hy, fun z more hz => ?_⟩
  have hfirst := hcut (y ++ z) more (by rw [hz, List.append_assoc])
  show (read (x ++ y ++ z) >>= next) = _
  rw [List.append_assoc, hfirst, ok_bind]
  exact hcut' z more hz

/-! ## Names -/

/-- Characters of a class that has no delimiters and no comma stand between commas. -/
theorem betweenSeparators_of_class {p : Char → Bool} {c : Char}
    (hp : ",\"()\x7b\x7d[]".toList.all (!p ·) = true) (h : p c = true) :
    betweenSeparators ',' c = true := by
  have hmem : c ∉ ",\"()\x7b\x7d[]".toList := by
    intro hmem
    have hc : (!p c) = true := List.all_eq_true.mp hp c hmem
    rw [h] at hc
    cases hc
  simpa [betweenSeparators, isDelimiter] using hmem

theorem betweenSeparators_of_isNameChar {c : Char} (h : isNameChar c = true) :
    betweenSeparators ',' c = true :=
  betweenSeparators_of_class (by decide) h

/-- `x` is a name as it is written: a plain word, or a text between quotes that is not empty. -/
def IsName (name : String) (x : List Char) : Prop :=
  (IsPlain x ∧ name = .ofList x) ∨
    ∃ t, t ≠ [] ∧ Value.quoted? x = some (t, []) ∧ name = .ofList t

/-- A name is read off the front of a text, as far as it goes. -/
theorem exists_isName (h : readName s = .ok (name, left)) :
    ∃ x, s = x ++ left ∧ IsName name x ∧ (IsPlain x → Stops isNameChar left) := by
  unfold readName at h
  split at h
  · next hquote =>
    split at h
    · cases h
    · cases h
    · next t rest hne hquoted =>
      cases h
      obtain ⟨x, rfl, hx⟩ := Value.quoted?_eq_some hquoted
      have hne : t ≠ [] := fun ht => hne ht
      refine ⟨x, rfl, .inr ⟨t, hne, hx, rfl⟩, fun hp => ?_⟩
      obtain ⟨c, cs, rfl⟩ := List.exists_cons_of_ne_nil hp.1
      obtain rfl : c = '"' := by simpa using hquote
      exact absurd (hp.2 '"' List.mem_cons_self) (by decide)
  · dsimp only at h
    split at h
    · cases h
    · next hne =>
      cases h
      have hplain : IsPlain (s.takeWhile isNameChar) :=
        ⟨by simpa using hne, List.all_eq_true.mp List.all_takeWhile⟩
      exact ⟨_, List.takeWhile_append_dropWhile.symm, .inl ⟨hplain, rfl⟩,
        fun _ => Text.stops_dropWhile⟩

theorem IsName.readName (h : IsName name x) (hs : IsPlain x → Stops isNameChar rest) :
    readName (x ++ rest) = .ok (name, rest) := by
  rcases h with ⟨hp, rfl⟩ | ⟨t, hne, hquoted, rfl⟩
  · exact readName_plain hp (hs hp)
  · have hread : Value.quoted? (x ++ rest) = some (t, rest) := Value.quoted?_append hquoted
    have hhead : (x ++ rest).head? = some '"' := by
      cases x with
      | nil => cases hquoted
      | cons c x =>
        by_contra hc
        rw [Value.quoted?_cons_of_ne (by simpa using hc)] at hquoted
        cases hquoted
    unfold Select.readName
    rw [if_pos hhead, hread]
    cases t with
    | nil => exact absurd rfl hne
    | cons c t => rfl

theorem IsName.balanced (h : IsName name x) : Balanced (betweenSeparators ',') n x := by
  rcases h with ⟨hp, -⟩ | ⟨t, -, hquoted, -⟩
  · exact Balanced.of_forall fun c hc => betweenSeparators_of_isNameChar (hp.2 c hc)
  · rw [← List.append_nil x]
    exact .quoted hquoted .nil

theorem readsFront_readName : ReadsFront (betweenSeparators ',') n readName := by
  intro s name left h
  obtain ⟨x, rfl, hname, hstops⟩ := exists_isName h
  exact ⟨x, rfl, hname.balanced, fun z more hz =>
    hname.readName fun hp => Stops.of_append (hz ▸ hstops hp)⟩

/-! ## Casts and aggregates -/

theorem isNameChar_of_isTypeChar {c : Char} (h : isTypeChar c = true) : isNameChar c = true := by
  simp only [isTypeChar, isNameChar, Bool.or_eq_true, decide_eq_true_eq] at h ⊢
  exact .inl h

/-- Brackets with nothing in them are a group. -/
theorem balanced_brackets {c close : Char} (hc : Value.closer? c = some close) :
    Balanced plain (n + 1) [c, close] :=
  .group hc .nil .nil

section Casts

variable {word : List Char}

theorem readCast_array (hne : word ≠ []) (hword : ∀ c ∈ word, isTypeChar c = true) :
    readCast (':' :: ':' :: (word ++ '[' :: ']' :: rest)) =
      .ok (some (.ofList (word ++ ['[', ']'])), rest) := by
  have hstops : Stops isTypeChar ('[' :: ']' :: rest) := by simp; decide
  simp [readCast, Text.takeWhile_run hword hstops, Text.dropWhile_run hword hstops, hne]

theorem readCast_word (hne : word ≠ []) (hword : ∀ c ∈ word, isTypeChar c = true)
    (hstops : Stops isTypeChar rest) (hbrackets : ∀ t, rest ≠ '[' :: ']' :: t) :
    readCast (':' :: ':' :: (word ++ rest)) = .ok (some (.ofList word), rest) := by
  simp only [readCast, Text.takeWhile_run hword hstops, Text.dropWhile_run hword hstops]
  rw [if_neg (by simpa using hne)]

theorem readCast_none (h : ∀ t, s ≠ ':' :: ':' :: t) : readCast s = .ok (none, s) := by
  unfold readCast
  split
  · next t => exact absurd rfl (h t)
  · rfl

/-- All that a cast can be: a word with brackets, a word, or nothing. -/
theorem readCast_cases {cast : Option String} (h : readCast s = .ok (cast, left)) :
    (∃ word, word ≠ [] ∧ (∀ c ∈ word, isTypeChar c = true) ∧
      ((cast = some (.ofList (word ++ ['[', ']'])) ∧
          s = ':' :: ':' :: (word ++ '[' :: ']' :: left)) ∨
        (cast = some (.ofList word) ∧ s = ':' :: ':' :: (word ++ left) ∧ Stops isTypeChar left ∧
          ∀ t, left ≠ '[' :: ']' :: t))) ∨
      (cast = none ∧ s = left ∧ ∀ t, left ≠ ':' :: ':' :: t) := by
  unfold readCast at h
  split at h
  · next rest =>
    dsimp only at h
    split at h
    · cases h
    · next hne =>
      have hword : ∀ c ∈ rest.takeWhile isTypeChar, isTypeChar c = true :=
        List.all_eq_true.mp List.all_takeWhile
      have hstops : Stops isTypeChar (rest.dropWhile isTypeChar) := Text.stops_dropWhile
      have hrest : rest.takeWhile isTypeChar ++ rest.dropWhile isTypeChar = rest :=
        List.takeWhile_append_dropWhile
      refine .inl ⟨_, by simpa using hne, hword, ?_⟩
      split at h
      · next after hafter =>
        cases h
        rw [hafter] at hrest
        exact .inl ⟨rfl, by rw [hrest]⟩
      · next hbrackets =>
        cases h
        exact .inr ⟨rfl, by rw [hrest], hstops, fun t ht => hbrackets t ht⟩
  · next hcolons =>
    cases h
    exact .inr ⟨rfl, rfl, fun t ht => hcolons t ht⟩

theorem readsFront_readCast : ReadsFront (betweenSeparators ',') (n + 1) readCast := by
  intro s cast left h
  rcases readCast_cases h with ⟨word, hne, hword, hcast⟩ | ⟨rfl, rfl, hcolons⟩
  · have hbalanced {t : List Char} (ht : Balanced (betweenSeparators ',') (n + 1) t) :
        Balanced (betweenSeparators ',') (n + 1) (':' :: ':' :: (word ++ t)) := by
      refine .plain (by decide) (.plain (by decide) (.run (fun c hc => ?_) ht))
      exact betweenSeparators_of_isNameChar (isNameChar_of_isTypeChar (hword c hc))
    rcases hcast with ⟨rfl, rfl⟩ | ⟨rfl, rfl, hstops, hbrackets⟩
    · refine ⟨':' :: ':' :: (word ++ ['[', ']']), by simp, hbalanced (balanced_brackets rfl),
        fun z more hz => ?_⟩
      simpa using readCast_array hne hword
    · refine ⟨':' :: ':' :: (word ++ []), by simp, hbalanced .nil, fun z more hz => ?_⟩
      subst hz
      have hz : ∀ t, z ≠ '[' :: ']' :: t := fun t ht => hbrackets (t ++ more) (by rw [ht]; rfl)
      simpa using readCast_word hne hword hstops.of_append hz
  · refine ⟨[], rfl, .nil, fun z more hz => readCast_none fun t (ht : z = _) => ?_⟩
    exact hcolons (t ++ more) (by rw [hz, ht]; rfl)

end Casts

theorem readAggregate_absent (h : ∀ t, s ≠ '.' :: t) : readAggregate s = .ok (none, s) := by
  unfold readAggregate
  split
  · next t => exact absurd rfl (h t)
  · rfl

theorem readsFront_readAggregate :
    ReadsFront (betweenSeparators ',') (n + 1) readAggregate := by
  intro s aggregate left h
  unfold readAggregate at h
  split at h
  · next rest =>
    obtain ⟨⟨name, after⟩, hname, hthen⟩ := bind_eq_ok.mp h
    obtain ⟨x, rfl, hx, hcut⟩ := readsFront_readName (n := n + 1) _ _ _ hname
    dsimp only at hthen
    split at hthen
    · next left' =>
      split at hthen
      · next a ha =>
        cases hthen
        refine ⟨'.' :: (x ++ ['(', ')']), by simp,
          .plain (by decide) (hx.append (balanced_brackets rfl)), fun z more hz => ?_⟩
        have hread := hcut ('(' :: ')' :: z) more (by simp [hz])
        simp [readAggregate, hread, ha]
      · cases hthen
    · cases hthen
  · next hpoint =>
    cases h
    refine ⟨[], rfl, .nil, fun z more hz => readAggregate_absent fun t (ht : z = _) => ?_⟩
    exact hpoint (t ++ more) (by rw [hz, ht]; rfl)

/-! ## Paths -/

/-- The digits at the front of a text are the same if what follows them is cut short. -/
theorem splitIndex_eq {digits : List Char} (h : splitIndex s = (digits, left)) :
    s = digits ++ left ∧ ∀ z more, left = z ++ more → splitIndex (digits ++ z) = (digits, z) := by
  have hsplit (t z more : List Char) (ht : t.dropWhile Char.isDigit = z ++ more) :
      (t.takeWhile Char.isDigit ++ z).takeWhile Char.isDigit = t.takeWhile Char.isDigit ∧
        (t.takeWhile Char.isDigit ++ z).dropWhile Char.isDigit = z := by
    have hdigits : ∀ c ∈ t.takeWhile Char.isDigit, c.isDigit = true :=
      List.all_eq_true.mp List.all_takeWhile
    have hstops : Stops Char.isDigit (z ++ more) := ht ▸ Text.stops_dropWhile
    exact ⟨Text.takeWhile_run hdigits hstops.of_append, Text.dropWhile_run hdigits hstops.of_append⟩
  unfold splitIndex at h
  split at h
  · next rest =>
    cases h
    refine ⟨by simp, fun z more hz => ?_⟩
    obtain ⟨htake, hdrop⟩ := hsplit rest z more hz
    simp [splitIndex, htake, hdrop]
  · next hminus =>
    cases h
    refine ⟨by simp, fun z more hz => ?_⟩
    obtain ⟨htake, hdrop⟩ := hsplit s z more hz
    have hnone : ∀ t, s.takeWhile Char.isDigit ++ z ≠ '-' :: t := by
      intro t ht
      refine hminus (t ++ more) ?_
      rw [← List.takeWhile_append_dropWhile (p := Char.isDigit) (l := s), hz, ← List.append_assoc,
        ht]
      rfl
    unfold splitIndex
    split
    · next heq => exact absurd heq (hnone _)
    · rw [htake, hdrop]

/-- The index that is read stands at the front of the text, whatever of it is cut off. -/
theorem readIndex?_eq_some {i : Int} (h : readIndex? s = some (i, left)) :
    ∃ digits, s = digits ++ left ∧ (∀ c ∈ digits, betweenSeparators ',' c = true) ∧
      ∀ z more, left = z ++ more → readIndex? (digits ++ z) = some (i, z) := by
  unfold readIndex? at h
  dsimp only at h
  split at h
  · next i' hvalue =>
    split at h
    · next hfits =>
      cases h
      obtain ⟨hs, hcut⟩ := splitIndex_eq (Prod.eta (splitIndex s)).symm
      refine ⟨(splitIndex s).1, hs, fun c hc => ?_, fun z more hz => ?_⟩
      · have hsome : Text.Numeral.toInt? (splitIndex s).1 ≠ none := by simp [hvalue]
        rcases Text.Numeral.isDigit_or_sign_of_toInt? hsome hc with hd | rfl | rfl
        · exact betweenSeparators_of_isNameChar (isNameChar_of_isDigit hd)
        · decide
        · decide
      · simp [readIndex?, hcut z more hz, hvalue, hfits]
    · cases h
  · cases h

/-- What no index stands in front of is no index when it is cut short after a name. -/
theorem IsName.readIndex?_eq_none (h : IsName name x) (hs : IsPlain x → Stops isNameChar left)
    (hr : IsPlain x → Stops isNameChar rest) (hnone : readIndex? (x ++ left) = none) :
    readIndex? (x ++ rest) = none := by
  rw [Select.readIndex?_eq_none] at hnone ⊢
  rcases h with ⟨hp, -⟩ | ⟨t, -, hquoted, -⟩
  · rwa [splitIndex_plain hp (hr hp), ← splitIndex_plain hp (hs hp)]
  · obtain ⟨c, cs, rfl⟩ := List.exists_cons_of_ne_nil (Value.ne_nil_of_quoted? hquoted)
    have hc : c = '"' := by
      by_contra hc
      rw [Value.quoted?_cons_of_ne hc] at hquoted
      cases hquoted
    subst hc
    rfl

theorem readsFront_readKey : ReadsFront (betweenSeparators ',') n readKey := by
  intro s k left h
  unfold readKey at h
  split at h
  · next i rest hindex =>
    cases h
    obtain ⟨digits, rfl, hdigits, hcut⟩ := readIndex?_eq_some hindex
    refine ⟨digits, rfl, .of_forall hdigits, fun z more hz => ?_⟩
    simp [readKey, hcut z more hz]
  · next hindex =>
    split at h
    · next name rest hname =>
      cases h
      obtain ⟨x, rfl, hx, hstops⟩ := exists_isName hname
      refine ⟨x, rfl, hx.balanced, fun z more hz => ?_⟩
      have hz : IsPlain x → Stops isNameChar z := fun hp => Stops.of_append (hz ▸ hstops hp)
      simp [readKey, hx.readIndex?_eq_none hstops hz hindex, hx.readName hz]
    · cases h

theorem readPathWithin_none (fuel : Nat) (h : ∀ t, s ≠ '-' :: '>' :: t) :
    readPathWithin fuel s = .ok (([], false), s) := by
  cases fuel with
  | zero => rfl
  | succ fuel =>
    unfold readPathWithin
    split
    · next t => exact absurd rfl (h ('>' :: t))
    · next t _ => exact absurd rfl (h t)
    · rfl

/-- Steps of a path are read off the front of a text by any number of steps that suffices. -/
theorem readPathWithin_front {fuel : Nat} {path : List PathKey × Bool}
    (hfuel : s.length ≤ fuel) (h : readPathWithin fuel s = .ok (path, left)) :
    ∃ x, s = x ++ left ∧ Balanced (betweenSeparators ',') n x ∧
      ∀ z more fuel', left = z ++ more → (x ++ z).length ≤ fuel' →
        readPathWithin fuel' (x ++ z) = .ok (path, z) := by
  -- On the steps. Each takes some of the text, so they never run out before the text does.
  induction fuel generalizing s path with
  | zero =>
    cases h
    obtain rfl : left = [] := List.length_eq_zero_iff.mp (Nat.le_zero.mp hfuel)
    refine ⟨[], rfl, .nil, fun z more fuel' hz _ => ?_⟩
    obtain ⟨rfl, -⟩ := List.append_eq_nil_iff.mp hz.symm
    cases fuel' <;> rfl
  | succ fuel ih =>
    unfold readPathWithin at h
    split at h
    · next rest =>
      obtain ⟨⟨k, after⟩, hkey, hthen⟩ := bind_eq_ok.mp h
      obtain ⟨x, rfl, hx, hcut⟩ := readsFront_readKey (n := n) _ _ _ hkey
      dsimp only at hthen
      split at hthen
      · cases hthen
      · next harrow =>
        cases hthen
        refine ⟨'-' :: '>' :: '>' :: x, rfl,
          .plain (by decide) (.plain (by decide) (.plain (by decide) hx)),
          fun z more fuel' hz hlength => ?_⟩
        obtain ⟨fuel', rfl⟩ : ∃ m, fuel' = m + 1 := ⟨fuel' - 1, by simp at hlength; omega⟩
        have hread := hcut z more hz
        simp only [List.cons_append, readPathWithin, hread, ok_bind]
        split
        · next t => exact (harrow (t ++ more) (by rw [hz]; rfl)).elim
        · rfl
    · next rest harrow =>
      obtain ⟨⟨k, after⟩, hkey, hthen⟩ := bind_eq_ok.mp h
      obtain ⟨⟨⟨later, asText⟩, left'⟩, hlater, hend⟩ := bind_eq_ok.mp hthen
      cases hend
      obtain ⟨x, rfl, hx, hcut⟩ := readsFront_readKey (n := n) _ _ _ hkey
      have hfuel' : after.length ≤ fuel := by
        simp only [List.length_cons, List.length_append] at hfuel
        omega
      obtain ⟨y, rfl, hy, hcut'⟩ := ih hfuel' hlater
      refine ⟨'-' :: '>' :: (x ++ y), by simp, .plain (by decide) (.plain (by decide)
        (hx.append hy)), fun z more fuel' hz hlength => ?_⟩
      obtain ⟨fuel', rfl⟩ : ∃ m, fuel' = m + 1 := ⟨fuel' - 1, by simp at hlength; omega⟩
      have hread : readKey (x ++ (y ++ z)) = .ok (k, y ++ z) := hcut (y ++ z) more (by simp [hz])
      have hrest : readPathWithin fuel' (y ++ z) = .ok ((later, asText), z) := by
        refine hcut' z more fuel' hz ?_
        simp only [List.cons_append, List.length_cons, List.length_append] at hlength ⊢
        omega
      have hsingle : ∀ t, x ++ (y ++ z) ≠ '>' :: t := by
        intro t ht
        refine harrow (t ++ more) ?_
        rw [hz, ← List.append_assoc y, ← List.append_assoc x, ht]
        rfl
      simp only [List.cons_append, List.append_assoc, readPathWithin, hread, ok_bind, hrest]
    · next hdouble hsingle =>
      cases h
      refine ⟨[], rfl, .nil, fun z more fuel' hz _ => readPathWithin_none fuel' fun t ht => ?_⟩
      have ht : z = '-' :: '>' :: t := ht
      exact hsingle (t ++ more) (by rw [hz, ht]; rfl)

theorem readsFront_readPath : ReadsFront (betweenSeparators ',') n readPath := by
  intro s path left h
  obtain ⟨x, rfl, hx, hcut⟩ := readPathWithin_front (n := n) (Nat.le_refl s.length) h
  exact ⟨x, rfl, hx, fun z more hz => hcut z more _ hz (Nat.le_refl _)⟩

/-! ## Fields -/

theorem readsFront_readField (column : String) (name : Option String) :
    ReadsFront (betweenSeparators ',') (n + 1) (readField column name) := by
  unfold readField
  refine readsFront_readPath.bind fun path => readsFront_readCast.bind fun first => ?_
  refine readsFront_readAggregate.bind fun aggregate => ?_
  cases aggregate with
  | none => exact ReadsFront.pure _
  | some a =>
    refine readsFront_readCast.bind fun second => ?_
    exact ReadsFront.pure _

/-! ## Joins -/

theorem readModifiersWithin_none (fuel : Nat) (join : Join) (type : Option JoinType)
    (h : ∀ t, s ≠ '!' :: t) : readModifiersWithin fuel join type s = .ok ((join, type), s) := by
  cases fuel with
  | zero => rfl
  | succ fuel =>
    unfold readModifiersWithin
    split
    · next t => exact absurd rfl (h t)
    · rfl

/-- Modifiers are read off the front of a text by any number of rounds that suffices. -/
theorem readModifiersWithin_front {fuel : Nat} {join : Join} {type : Option JoinType}
    {r : Join × Option JoinType} (hfuel : s.length ≤ fuel)
    (h : readModifiersWithin fuel join type s = .ok (r, left)) :
    ∃ x, s = x ++ left ∧ Balanced (betweenSeparators ',') n x ∧
      ∀ z more fuel', left = z ++ more → (x ++ z).length ≤ fuel' →
        readModifiersWithin fuel' join type (x ++ z) = .ok (r, z) := by
  induction fuel generalizing s join type with
  | zero =>
    cases h
    obtain rfl : left = [] := List.length_eq_zero_iff.mp (Nat.le_zero.mp hfuel)
    refine ⟨[], rfl, .nil, fun z more fuel' hz _ => ?_⟩
    obtain ⟨rfl, -⟩ := List.append_eq_nil_iff.mp hz.symm
    cases fuel' <;> rfl
  | succ fuel ih =>
    unfold readModifiersWithin at h
    split at h
    · next rest =>
      obtain ⟨⟨word, after⟩, hword, hthen⟩ := bind_eq_ok.mp h
      obtain ⟨x, rfl, hx, hcut⟩ := readsFront_readName (n := n) _ _ _ hword
      have hafter : after.length ≤ fuel := by
        simp only [List.length_cons, List.length_append] at hfuel
        omega
      -- What the word is decides how the modifiers after it are read, whatever is cut off.
      obtain ⟨join', type', hmore, hsame⟩ : ∃ join' type',
          readModifiersWithin fuel join' type' after = .ok (r, left) ∧
            ∀ fuel' z, readName (x ++ z) = .ok (word, z) →
              readModifiersWithin (fuel' + 1) join type ('!' :: (x ++ z)) =
                readModifiersWithin fuel' join' type' z := by
        dsimp only at hthen
        split at hthen
        · next hkind =>
          split at hthen
          · cases hthen
          · next hfree =>
            refine ⟨_, _, hthen, fun fuel' z hz => ?_⟩
            simp only [readModifiersWithin, hz, ok_bind, if_pos hkind, if_neg hfree]
        · next hkind =>
          split at hthen
          · cases hthen
          · next hfree =>
            refine ⟨_, _, hthen, fun fuel' z hz => ?_⟩
            simp only [readModifiersWithin, hz, ok_bind, if_neg hkind, if_neg hfree]
      obtain ⟨y, rfl, hy, hcut'⟩ := ih hafter hmore
      refine ⟨'!' :: (x ++ y), by simp, .plain (by decide) (hx.append hy),
        fun z more fuel' hz hlength => ?_⟩
      obtain ⟨fuel', rfl⟩ : ∃ m, fuel' = m + 1 := ⟨fuel' - 1, by simp at hlength; omega⟩
      have hread := hcut (y ++ z) more (by rw [hz, List.append_assoc])
      rw [List.cons_append, List.append_assoc, hsame _ _ hread]
      refine hcut' z more fuel' hz ?_
      simp only [List.cons_append, List.length_cons, List.length_append] at hlength ⊢
      omega
    · next hmark =>
      cases h
      refine ⟨[], rfl, .nil, fun z more fuel' hz _ => readModifiersWithin_none fuel' join type ?_⟩
      intro t (ht : z = '!' :: t)
      exact hmark (t ++ more) (by rw [hz, ht]; rfl)

theorem readsFront_readJoin (table : String) :
    ReadsFront (betweenSeparators ',') n (readJoin table) := by
  intro s join left h
  unfold readJoin at h
  obtain ⟨⟨⟨join', type⟩, after⟩, hmodifiers, hend⟩ := bind_eq_ok.mp h
  cases hend
  obtain ⟨x, rfl, hx, hcut⟩ := readModifiersWithin_front (n := n) (Nat.le_refl s.length) hmodifiers
  refine ⟨x, rfl, hx, fun z more hz => ?_⟩
  simp only [readJoin, hcut z more _ hz (Nat.le_refl _), ok_bind, pure_eq_ok]

end RestQuery.Select
