import Mathlib.Data.List.Basic
import RestQuery.Proofs.Value.Balanced

/-!
# The elements of delimited text

A balanced text is a list of elements: plain characters, quoted texts, and groups of elements. The
elements are data, so that one can speak of the separators among them. Cutting a text at its top
level is cutting the list of its elements at the separators in that list, and a text that is no list
of elements, or whose groups nest too deep, is not cut at all.
-/

namespace RestQuery.Value

/-! ## Elements and their texts -/

/-- The kinds of brackets. -/
inductive Bracket where
  | round | curly | square
  deriving DecidableEq, Repr

/-- The bracket that opens a group. -/
def Bracket.opener : Bracket → Char
  | .round => '('
  | .curly => '{'
  | .square => '['

/-- The bracket that closes a group. -/
def Bracket.closer : Bracket → Char
  | .round => ')'
  | .curly => '}'
  | .square => ']'

/-- A character between quotes. -/
inductive QuotedChar where
  /-- Any character, after a backslash. -/
  | escaped (c : Char)
  /-- A character that means itself. -/
  | bare (c : Char) (h : c ≠ '"' ∧ c ≠ '\\')

/-- The character that is meant. -/
def QuotedChar.char : QuotedChar → Char
  | .escaped c => c
  | .bare c _ => c

/-- A character between quotes as it is written. -/
def QuotedChar.spell : QuotedChar → List Char
  | .escaped c => ['\\', c]
  | .bare c _ => [c]

/-- An element of a balanced text. -/
inductive Element where
  /-- A character that is no quote and no bracket. -/
  | char (c : Char) (h : isDelimiter c = false)
  /-- A quoted text. -/
  | quoted (contents : List QuotedChar)
  /-- A group, closed by the bracket of its own kind. -/
  | group (bracket : Bracket) (inner : List Element)

namespace Element

mutual

/-- The text of an element. -/
def spell : Element → List Char
  | .char c _ => [c]
  | .quoted contents => '"' :: contents.flatMap QuotedChar.spell ++ ['"']
  | .group bracket inner => bracket.opener :: spellAll inner ++ [bracket.closer]

/-- The text of elements. -/
def spellAll : List Element → List Char
  | [] => []
  | e :: rest => e.spell ++ spellAll rest

end

mutual

/-- How deep groups nest in an element. -/
def nesting : Element → Nat
  | .char _ _ => 0
  | .quoted _ => 0
  | .group _ inner => nestingAll inner + 1

/-- How deep groups nest in elements. -/
def nestingAll : List Element → Nat
  | [] => 0
  | e :: rest => max e.nesting (nestingAll rest)

end

/-- Whether an element is the character `sep`. -/
def isSeparator (sep : Char) : Element → Bool
  | .char c _ => c = sep
  | _ => false

/-- The texts between the elements that are the character `sep`. Quoted texts and groups are
elements of their own, so a `sep` in them does not count. -/
def cut (sep : Char) (es : List Element) : List (List Char) :=
  (es.splitOnP (isSeparator sep)).map spellAll

/-- Whether an element is no character, or one that is `plain`. -/
def Fits (plain : Char → Bool) : Element → Prop
  | .char c _ => plain c = true
  | _ => True

end Element

variable {plain : Char → Bool} {n : Nat} {c close sep : Char} {s t rest : List Char}
  {bracket : Bracket} {e : Element} {es : List Element} {pieces : List (List Char)}

/-! ## Brackets and quoted texts -/

theorem closer?_opener : closer? bracket.opener = some bracket.closer := by
  cases bracket <;> rfl

theorem exists_bracket (h : closer? c = some close) :
    ∃ bracket : Bracket, c = bracket.opener ∧ close = bracket.closer := by
  unfold closer? at h
  split_ifs at h with hround hcurly hsquare
  · cases h
    exact ⟨.round, hround, rfl⟩
  · cases h
    exact ⟨.curly, hcurly, rfl⟩
  · cases h
    exact ⟨.square, hsquare, rfl⟩

theorem quotedTail?_spell (contents : List QuotedChar) :
    quotedTail? (contents.flatMap QuotedChar.spell ++ '"' :: rest) =
      some (contents.map QuotedChar.char, rest) := by
  induction contents with
  | nil => simp [quotedTail?]
  | cons q contents ih =>
    rw [List.flatMap_cons, List.append_assoc]
    cases q with
    | escaped c => simp [QuotedChar.spell, QuotedChar.char, quotedTail?, ih]
    | bare c h => simp [QuotedChar.spell, QuotedChar.char, quotedTail?, ih, h]

theorem exists_quotedChars (h : quotedTail? s = some (t, rest)) :
    ∃ contents : List QuotedChar, s = contents.flatMap QuotedChar.spell ++ '"' :: rest := by
  fun_induction quotedTail? s generalizing t with
  | case1 => cases h
  | case2 s =>
    cases h
    exact ⟨[], rfl⟩
  | case3 => cases h
  | case4 c s ih =>
    obtain ⟨⟨t', left⟩, hs, he⟩ := Option.map_eq_some_iff.mp h
    cases he
    obtain ⟨contents, rfl⟩ := ih hs
    exact ⟨.escaped c :: contents, rfl⟩
  | case5 c s hquote hlast hescape ih =>
    obtain ⟨⟨t', left⟩, hs, he⟩ := Option.map_eq_some_iff.mp h
    cases he
    obtain ⟨contents, rfl⟩ := ih hs
    have hq : c ≠ '"' := fun hc => hquote hc
    have hb : c ≠ '\\' := by
      rintro rfl
      cases contents with
      | nil => exact hescape _ _ rfl rfl
      | cons q contents => cases q <;> exact hescape _ _ rfl rfl
    exact ⟨.bare c ⟨hq, hb⟩ :: contents, rfl⟩

/-! ## Balanced texts are lists of elements -/

namespace Element

theorem fits_not_isDelimiter (e : Element) : e.Fits fun c => !isDelimiter c := by
  cases e with
  | char c h => simp [Fits, h]
  | quoted => trivial
  | group => trivial

/-- An element that is not the separator may stand between separators. -/
theorem fits_betweenSeparators (h : e.isSeparator sep = false) :
    e.Fits (betweenSeparators sep) := by
  cases e with
  | char c hc =>
    have hne : c ≠ sep := by simpa [isSeparator] using h
    simp [Fits, betweenSeparators, hne, hc]
  | quoted => trivial
  | group => trivial

mutual

theorem balanced_spell : ∀ (e : Element) {plain : Char → Bool} {n : Nat}, e.Fits plain →
    e.nesting ≤ n → Balanced plain n e.spell
  | .char c _, _, _, h, _ => .plain h .nil
  | .quoted contents, plain, n, _, _ => by
    have hq : quoted? ('"' :: contents.flatMap QuotedChar.spell ++ ['"']) =
        some (contents.map QuotedChar.char, []) := quotedTail?_spell contents
    have hquoted : Balanced plain n ('"' :: contents.flatMap QuotedChar.spell ++ ['"'] ++ []) :=
      .quoted hq .nil
    simpa [spell] using hquoted
  | .group bracket inner, plain, n, _, hn => by
    unfold nesting at hn
    cases n with
    | zero => cases hn
    | succ n =>
      have hinner : Balanced (fun c => !isDelimiter c) n (spellAll inner) :=
        balanced_spellAll inner (fun e _ => fits_not_isDelimiter e) (Nat.le_of_succ_le_succ hn)
      exact Balanced.group closer?_opener hinner .nil

theorem balanced_spellAll : ∀ (es : List Element) {plain : Char → Bool} {n : Nat},
    (∀ e ∈ es, e.Fits plain) → nestingAll es ≤ n → Balanced plain n (spellAll es)
  | [], _, _, _, _ => .nil
  | e :: es, plain, n, h, hn => by
    obtain ⟨he, hes⟩ := List.forall_mem_cons.mp h
    obtain ⟨hne, hnes⟩ := Nat.max_le.mp hn
    exact (balanced_spell e he hne).append (balanced_spellAll es hes hnes)

end

end Element

/-- A balanced text is the text of elements. -/
theorem Balanced.exists_elements (h : Balanced plain n s)
    (hplain : ∀ c, plain c = true → isDelimiter c = false) :
    ∃ es, Element.spellAll es = s ∧ Element.nestingAll es ≤ n := by
  induction h with
  | nil => exact ⟨[], rfl, Nat.zero_le _⟩
  | @plain _ _ c _ hc _ ih =>
    obtain ⟨es, rfl, hn⟩ := ih hplain
    exact ⟨.char c (hplain c hc) :: es, rfl, Nat.max_le.mpr ⟨Nat.zero_le _, hn⟩⟩
  | @quoted _ _ _ q _ hq _ ih =>
    obtain ⟨es, rfl, hn⟩ := ih hplain
    unfold quoted? at hq
    split at hq
    · obtain ⟨contents, rfl⟩ := exists_quotedChars hq
      exact ⟨.quoted contents :: es, rfl, Nat.max_le.mpr ⟨Nat.zero_le _, hn⟩⟩
    · cases hq
  | @group _ n _ _ _ _ hc _ _ ihinner ih =>
    obtain ⟨inner, rfl, hinner⟩ := ihinner (by simp)
    obtain ⟨es, rfl, hn⟩ := ih hplain
    obtain ⟨bracket, rfl, rfl⟩ := exists_bracket hc
    refine ⟨.group bracket inner :: es, ?_, Nat.max_le.mpr ⟨Nat.succ_le_succ hinner, hn⟩⟩
    simp [Element.spellAll, Element.spell]

/-! ## The elements of a text are determined -/

theorem isDelimiter_opener : isDelimiter bracket.opener = true := by
  cases bracket <;> rfl

theorem opener_injective {bracket' : Bracket} (h : bracket.opener = bracket'.opener) :
    bracket = bracket' := by
  cases bracket <;> cases bracket' <;> first | rfl | exact absurd h (by decide)

theorem QuotedChar.spell_cancel {contents contents' : List QuotedChar} {r r' : List Char}
    (h : contents.flatMap spell ++ '"' :: r = contents'.flatMap spell ++ '"' :: r') :
    contents = contents' ∧ r = r' := by
  induction contents generalizing contents' with
  | nil =>
    cases contents' with
    | nil => exact ⟨rfl, (List.cons.inj h).2⟩
    | cons q' contents' =>
      cases q' with
      | escaped c => exact absurd (List.cons.inj h).1 (by decide)
      | bare c hc => exact absurd (List.cons.inj h).1.symm hc.1
  | cons q contents ih =>
    cases contents' with
    | nil =>
      cases q with
      | escaped c => exact absurd (List.cons.inj h).1 (by decide)
      | bare c hc => exact absurd (List.cons.inj h).1 hc.1
    | cons q' contents' =>
      rw [List.flatMap_cons, List.flatMap_cons, List.append_assoc, List.append_assoc] at h
      cases q with
      | escaped c =>
        cases q' with
        | escaped c' =>
          obtain ⟨hc, hrest⟩ := List.cons.inj (List.cons.inj h).2
          obtain ⟨rfl, hr⟩ := ih hrest
          exact ⟨by rw [hc], hr⟩
        | bare c' hc' => exact absurd (List.cons.inj h).1.symm hc'.2
      | bare c hc =>
        cases q' with
        | escaped c' => exact absurd (List.cons.inj h).1 hc.2
        | bare c' hc' =>
          obtain ⟨rfl, hrest⟩ := List.cons.inj h
          obtain ⟨rfl, hr⟩ := ih hrest
          exact ⟨rfl, hr⟩

namespace Element

/-- The text is empty or begins with a bracket that closes a group. -/
def Closes (r : List Char) : Prop := ∀ c ∈ r.head?, ∃ bracket : Bracket, c = bracket.closer

theorem closes_closer {r : List Char} : Closes (bracket.closer :: r) := by
  intro c hc
  obtain rfl : bracket.closer = c := by simpa using hc
  exact ⟨bracket, rfl⟩

/-- No element begins with a bracket that closes a group. -/
theorem not_closes_spell (e : Element) (r : List Char) : ¬ Closes (e.spell ++ r) := by
  intro h
  cases e with
  | char c hc =>
    obtain ⟨bracket, rfl⟩ := h c rfl
    cases bracket <;> cases hc
  | quoted contents =>
    obtain ⟨bracket, hb⟩ := h '"' rfl
    cases bracket <;> cases hb
  | group bracket inner =>
    obtain ⟨bracket', hb⟩ := h bracket.opener rfl
    cases bracket <;> cases bracket' <;> cases hb

mutual

theorem spell_cancel : ∀ (e e' : Element) {r r' : List Char}, e.spell ++ r = e'.spell ++ r' →
    e = e' ∧ r = r'
  | .char c hc, e', r, r', h => by
    cases e' with
    | char c' hc' =>
      obtain ⟨rfl, hr⟩ := List.cons.inj h
      exact ⟨rfl, hr⟩
    | quoted =>
      rw [(List.cons.inj h).1] at hc
      cases hc
    | group bracket =>
      rw [(List.cons.inj h).1, isDelimiter_opener] at hc
      cases hc
  | .quoted contents, e', r, r', h => by
    cases e' with
    | char c' hc' =>
      rw [← (List.cons.inj h).1] at hc'
      cases hc'
    | quoted contents' =>
      have hcontents := (List.cons.inj h).2
      simp only [List.append_eq, List.append_assoc, List.singleton_append] at hcontents
      obtain ⟨rfl, hr⟩ := QuotedChar.spell_cancel hcontents
      exact ⟨rfl, hr⟩
    | group bracket => cases bracket <;> exact absurd (List.cons.inj h).1 (by decide)
  | .group bracket inner, e', r, r', h => by
    cases e' with
    | char c' hc' =>
      rw [← (List.cons.inj h).1, isDelimiter_opener] at hc'
      cases hc'
    | quoted => cases bracket <;> exact absurd (List.cons.inj h).1 (by decide)
    | group bracket' inner' =>
      obtain ⟨hopener, hinner⟩ := List.cons.inj h
      obtain rfl := opener_injective hopener
      simp only [List.append_eq, List.append_assoc, List.singleton_append] at hinner
      obtain ⟨rfl, hr⟩ := spellAll_cancel inner inner' closes_closer closes_closer hinner
      exact ⟨rfl, (List.cons.inj hr).2⟩

theorem spellAll_cancel : ∀ (es es' : List Element) {r r' : List Char}, Closes r → Closes r' →
    spellAll es ++ r = spellAll es' ++ r' → es = es' ∧ r = r'
  | [], es', r, r', hr, hr', h => by
    cases es' with
    | nil => exact ⟨rfl, h⟩
    | cons e' es' =>
      have hbegin : r = e'.spell ++ (spellAll es' ++ r') := by simpa [spellAll] using h
      exact absurd (hbegin ▸ hr) (not_closes_spell e' _)
  | e :: es, es', r, r', hr, hr', h => by
    cases es' with
    | nil =>
      have hbegin : e.spell ++ (spellAll es ++ r) = r' := by simpa [spellAll] using h
      exact absurd (hbegin ▸ hr') (not_closes_spell e _)
    | cons e' es' =>
      have hfirst : e.spell ++ (spellAll es ++ r) = e'.spell ++ (spellAll es' ++ r') := by
        simpa [spellAll] using h
      obtain ⟨rfl, hlater⟩ := spell_cancel e e' hfirst
      obtain ⟨rfl, hrest⟩ := spellAll_cancel es es' hr hr' hlater
      exact ⟨rfl, hrest⟩

end

/-- A text has one list of elements at most. -/
theorem spellAll_injective : Function.Injective spellAll := by
  intro es es' h
  have hnil : Closes [] := by simp [Closes]
  have hends : spellAll es ++ [] = spellAll es' ++ [] := by rw [h]
  exact (spellAll_cancel es es' hnil hnil hends).1

/-! ## Cutting -/

theorem cut_nil : cut sep [] = [[]] := rfl

theorem cut_cons : cut sep (e :: es) =
    if e.isSeparator sep = true then [] :: cut sep es
    else (cut sep es).modifyHead (e.spell ++ ·) := by
  unfold cut
  rw [List.splitOnP_cons_eq_if_modifyHead]
  split
  · rfl
  · cases es.splitOnP (isSeparator sep) <;> rfl

theorem cut_ne_nil (sep : Char) (es : List Element) : cut sep es ≠ [] := by
  unfold cut
  simp [List.splitOnP_ne_nil]

theorem spell_of_isSeparator (h : e.isSeparator sep = true) : e.spell = [sep] := by
  cases e with
  | char c hc =>
    obtain rfl : c = sep := by simpa [isSeparator] using h
    rfl
  | quoted => cases h
  | group => cases h

/-- The pieces with the separators between them are the text. -/
theorem intercalate_cut (sep : Char) (es : List Element) :
    [sep].intercalate (cut sep es) = spellAll es := by
  induction es with
  | nil => rfl
  | cons e es ih =>
    obtain ⟨p, pieces, hcut⟩ := List.exists_cons_of_ne_nil (cut_ne_nil sep es)
    rw [cut_cons, spellAll, ← ih, hcut]
    split
    · next hsep => simp [List.intercalate, spell_of_isSeparator hsep]
    · cases pieces <;> simp [List.intercalate]

/-- There is one piece more than there are separators. -/
theorem length_cut (sep : Char) (es : List Element) :
    (cut sep es).length = es.countP (isSeparator sep) + 1 := by
  induction es with
  | nil => rfl
  | cons e es ih =>
    rw [cut_cons]
    split
    · next hsep => rw [List.length_cons, ih, List.countP_cons_of_pos hsep]
    · next hsep => rw [List.length_modifyHead, ih, List.countP_cons_of_neg hsep]

/-- No piece has a separator among its elements. -/
theorem balanced_of_mem_cut (hn : nestingAll es ≤ n) :
    ∀ s ∈ cut sep es, Balanced (betweenSeparators sep) n s := by
  induction es with
  | nil =>
    rw [cut_nil]
    simpa using Balanced.nil
  | cons e es ih =>
    obtain ⟨he, hes⟩ := Nat.max_le.mp hn
    rw [cut_cons]
    split
    · exact List.forall_mem_cons.mpr ⟨.nil, ih hes⟩
    · next hsep =>
      obtain ⟨p, pieces, hcut⟩ := List.exists_cons_of_ne_nil (cut_ne_nil sep es)
      have hpieces := ih hes
      rw [hcut] at hpieces ⊢
      obtain ⟨hp, hpieces⟩ := List.forall_mem_cons.mp hpieces
      have hfits := fits_betweenSeparators (Bool.eq_false_iff.mpr hsep)
      exact List.forall_mem_cons.mpr ⟨(balanced_spell e hfits he).append hp, hpieces⟩

end Element

/-- The text of elements is cut as the elements are, unless its groups nest too deep. -/
theorem splitTopLevel_spellAll (hsep : isDelimiter sep = false) (es : List Element) :
    splitTopLevel sep (Element.spellAll es) = .ok (Element.cut sep es) ∨
      maxNesting - 1 < Element.nestingAll es ∧
        splitTopLevel sep (Element.spellAll es) = .error .tooDeep := by
  rw [← Element.intercalate_cut sep es]
  exact splitTopLevel_intercalate hsep (Element.cut_ne_nil sep es)
    (Element.balanced_of_mem_cut (Nat.le_refl _))

/-- A text that is cut is the text of elements whose groups do not nest too deep, and it is cut as
the elements are. -/
theorem exists_elements_of_splitTopLevel (hsep : isDelimiter sep = false)
    (h : splitTopLevel sep s = .ok pieces) :
    ∃ es, Element.spellAll es = s ∧ Element.nestingAll es ≤ maxNesting - 1 ∧
      Element.cut sep es = pieces := by
  obtain ⟨es, rfl, hn⟩ := (balanced_of_splitTopLevel hsep h).exists_elements (by simp)
  refine ⟨es, rfl, hn, ?_⟩
  rcases splitTopLevel_spellAll hsep es with hcut | ⟨hdeep, -⟩
  · exact Except.ok.inj (hcut.symm.trans h)
  · exact absurd hn (Nat.not_le.mpr hdeep)

theorem splitTopLevel_eq_tooDeep (hsep : isDelimiter sep = false)
    (hdeep : maxNesting - 1 < Element.nestingAll es) :
    splitTopLevel sep (Element.spellAll es) = .error .tooDeep := by
  rcases splitTopLevel_spellAll hsep es with hcut | ⟨-, hcut⟩
  · obtain ⟨es', hspell, hn, -⟩ := exists_elements_of_splitTopLevel hsep hcut
    rw [Element.spellAll_injective hspell] at hn
    exact absurd hn (Nat.not_le.mpr hdeep)
  · exact hcut

/-- A text is cut exactly if it is the text of elements whose groups nest at most 63 deep, and then
at the separators among these elements and nowhere else. So the pieces with the separators between
them are the text, there is one piece more than there are such separators, and a text that is not so
is a fault. -/
theorem splitTopLevel_eq_ok_iff (hsep : isDelimiter sep = false) :
    (splitTopLevel sep s = .ok pieces ↔
      ∃ es, Element.spellAll es = s ∧ Element.nestingAll es ≤ maxNesting - 1 ∧
        Element.cut sep es = pieces) ∧
    (splitTopLevel sep s = .ok pieces →
      [sep].intercalate pieces = s ∧
        ∀ es, Element.spellAll es = s → pieces.length = es.countP (·.isSeparator sep) + 1) ∧
    ((∃ fault, splitTopLevel sep s = .error fault) ↔
      ∀ es, Element.spellAll es = s → maxNesting - 1 < Element.nestingAll es) ∧
    ∀ es, Element.spellAll es = s → maxNesting - 1 < Element.nestingAll es →
      splitTopLevel sep s = .error .tooDeep := by
  have hcut (es : List Element) (hn : Element.nestingAll es ≤ maxNesting - 1) :
      splitTopLevel sep (Element.spellAll es) = .ok (Element.cut sep es) := by
    rcases splitTopLevel_spellAll hsep es with hcut | ⟨hdeep, -⟩
    · exact hcut
    · exact absurd hn (Nat.not_le.mpr hdeep)
  refine ⟨⟨exists_elements_of_splitTopLevel hsep, ?_⟩, fun h => ?_, ⟨?_, fun h => ?_⟩, ?_⟩
  · rintro ⟨es, rfl, hn, rfl⟩
    exact hcut es hn
  · obtain ⟨es, rfl, -, rfl⟩ := exists_elements_of_splitTopLevel hsep h
    refine ⟨Element.intercalate_cut sep es, fun es' hspell => ?_⟩
    rw [Element.spellAll_injective hspell]
    exact Element.length_cut sep es
  · rintro ⟨fault, h⟩ es rfl
    by_contra hn
    rw [hcut es (Nat.not_lt.mp hn)] at h
    cases h
  · cases hread : splitTopLevel sep s with
    | error fault => exact ⟨fault, rfl⟩
    | ok pieces =>
      obtain ⟨es, hspell, hn, -⟩ := exists_elements_of_splitTopLevel hsep hread
      exact absurd hn (Nat.not_le.mpr (h es hspell))
  · rintro es rfl hdeep
    exact splitTopLevel_eq_tooDeep hsep hdeep

/-- The commas between quotes and in the group are no places to cut. -/
theorem splitTopLevel_eq_ok_iff_commas :
    isDelimiter ',' = false ∧ splitTopLevel ',' "a,(b,[c]),\",\\\",\"".toList =
      .ok ["a".toList, "(b,[c])".toList, "\",\\\",\"".toList] := by
  refine ⟨rfl, (splitTopLevel_eq_ok_iff rfl).1.mpr ⟨[.char 'a' rfl, .char ',' rfl,
    .group .round [.char 'b' rfl, .char ',' rfl, .group .square [.char 'c' rfl]], .char ',' rfl,
    .quoted [.bare ',' (by decide), .escaped '"', .bare ',' (by decide)]], rfl, by decide, rfl⟩⟩

end RestQuery.Value
