import RestQuery.Order.Parser
import RestQuery.Proofs.Outcome
import RestQuery.Proofs.Text.Splitting
import RestQuery.Proofs.Value.Lists

/-!
# Sort orders are read back

A sort order is written term by term, each with its column, its direction and where `null` goes.
What is written of names without points, commas, quotes, brackets and blanks at their ends is read
as these terms, and so is what is written of the terms that were read from any text at all.

The two meet in what is asked of a column alone. Its parts are not empty and have no points or round
brackets, and when it is written it does not begin with a blank and has no comma outside its quotes
and groups. A column of names is such a column, and so is one that was read: the words after it hold
no quote and no bracket, so what the cutting at commas left balanced is balanced without them.
-/

namespace RestQuery.OrderTerm

open Text (Stops Begins)
open Value (Balanced StandsBare betweenSeparators isDelimiter maxNesting
  not_isDelimiter_of_isBlank)

/-! ## Terms as they are written -/

/-- A column as it is written: what follows the first point goes in brackets. -/
def spellColumn (column : List Char) : List Char :=
  match Text.splitOnce '.' column with
  | some (embed, name) => embed ++ '(' :: (name ++ [')'])
  | none => column

/-- A direction as it is written. If the term is `brief` an ascending direction is not. -/
def spellDirection (brief : Bool) (d : Direction) : List Char :=
  if brief && d = .asc then [] else '.' :: d.name.toList

/-- The place of `null` as it is written. -/
def spellNulls : Option Bool → List Char
  | none => []
  | some nullsFirst => '.' :: (if nullsFirst then "nullsfirst" else "nullslast").toList

/-- What is written of a term after its column. -/
def spellWords (brief : Bool) (d : Direction) (nullsFirst : Option Bool) : List Char :=
  spellDirection brief d ++ spellNulls nullsFirst

/-- A term as it is written. -/
def spell (brief : Bool) (t : OrderTerm) : List Char :=
  spellColumn t.column.toList ++ spellWords brief t.direction t.nullsFirst

/-- A sort order as it is written, with each of its terms brief or not. -/
def spellAll (terms : List (OrderTerm × Bool)) : List Char :=
  [','].intercalate (terms.map fun p => p.1.spell p.2)

/-- A name that can be written in a sort order. -/
structure IsName (s : List Char) : Prop extends StandsBare s where
  /-- The name has characters. -/
  nonempty : s ≠ []
  /-- The name has no points. -/
  pointless : '.' ∉ s

/-- A column that is a name, or a name and the name of an embed with a point before it. -/
def NamesColumn (column : List Char) : Prop :=
  IsName column ∨ ∃ embed name, IsName embed ∧ IsName name ∧ column = embed ++ '.' :: name

/-- A column as a term can give it. -/
inductive IsGiven : List Char → Prop where
  | bare {name : List Char} (hne : name ≠ []) (h : ∀ c ∈ name, isNameChar c = true) : IsGiven name
  | embedded {embed name : List Char} (hembedNe : embed ≠ [])
      (hembed : ∀ c ∈ embed, isNameChar c = true) (hnameNe : name ≠ [])
      (hname : ∀ c ∈ name, isNameChar c = true) : IsGiven (embed ++ '.' :: name)

/-- A column that is read back where it is written in a sort order. -/
structure Spellable (column : List Char) : Prop where
  /-- A term can give the column. -/
  given : IsGiven column
  /-- What is written does not begin with a blank. -/
  begins : Stops Text.isBlank (spellColumn column)
  /-- What is written has no comma that separates terms. -/
  balanced : Balanced (betweenSeparators ',') (maxNesting - 1) (spellColumn column)

variable {s rest column embed name : List Char} {pieces words : List (List Char)} {brief : Bool}
  {t : OrderTerm} {terms : List OrderTerm} {ws ws' : Words} {c : Char}

/-! ## Columns -/

theorem isNameChar_iff : isNameChar c = true ↔ c ≠ '.' ∧ c ≠ '(' ∧ c ≠ ')' := by
  simp [isNameChar, and_assoc]

theorem not_mem_of_isNameChar (h : ∀ c ∈ s, isNameChar c = true) : '.' ∉ s :=
  fun hmem => (isNameChar_iff.mp (h '.' hmem)).1 rfl

theorem spellColumn_of_not_mem (h : '.' ∉ name) : spellColumn name = name := by
  unfold spellColumn
  split
  · next hsplit =>
    obtain ⟨rfl, -⟩ := Text.splitOnce_eq_some_iff.mp hsplit
    simp at h
  · rfl

theorem spellColumn_append (h : '.' ∉ embed) :
    spellColumn (embed ++ '.' :: name) = embed ++ '(' :: (name ++ [')']) := by
  unfold spellColumn
  rw [Text.splitOnce_append h]

theorem IsGiven.spellColumn_ne_nil (h : IsGiven column) : spellColumn column ≠ [] := by
  cases h with
  | bare hne h => rwa [spellColumn_of_not_mem (not_mem_of_isNameChar h)]
  | embedded _ hembed _ _ =>
    rw [spellColumn_append (not_mem_of_isNameChar hembed)]
    simp

/-- A column is read as it is written, up to the words after it. -/
theorem IsGiven.splitColumn_append (h : IsGiven column) (hrest : Begins ['.'] rest) :
    splitColumn (spellColumn column ++ rest) = (column, rest) := by
  cases h with
  | bare _ h =>
    have hstops : Stops isNameChar rest := hrest.stops rfl
    rw [spellColumn_of_not_mem (not_mem_of_isNameChar h)]
    unfold splitColumn
    rw [Text.takeWhile_run h hstops, Text.dropWhile_run h hstops]
    cases rest with
    | nil => rfl
    | cons c rest =>
      obtain rfl : c = '.' := by simpa using hrest
      rfl
  | @embedded embed name _ hembed _ hname =>
    have hopen : Stops isNameChar ('(' :: (name ++ (')' :: rest))) := Text.stops_cons.mpr rfl
    have hclose : Stops isNameChar (')' :: rest) := Text.stops_cons.mpr rfl
    have hspell : spellColumn (embed ++ '.' :: name) ++ rest =
        embed ++ '(' :: (name ++ (')' :: rest)) := by
      rw [spellColumn_append (not_mem_of_isNameChar hembed)]
      simp
    rw [hspell]
    unfold splitColumn
    rw [Text.takeWhile_run hembed hopen, Text.dropWhile_run hembed hopen]
    simp only [Text.takeWhile_run hname hclose, Text.dropWhile_run hname hclose]

theorem isColumn_iff : isColumn column = true ↔
    column ≠ [] ∧ column.head? ≠ some '.' ∧ column.getLast? ≠ some '.' := by
  simp [isColumn, and_assoc]

/-- What precedes the words of a term is its column as it is written. -/
theorem spellColumn_of_splitColumn (h : splitColumn s = (column, rest))
    (hopen : rest.head? ≠ some '(') (hcolumn : isColumn column = true) :
    IsGiven column ∧ s = spellColumn column ++ rest := by
  obtain ⟨hne, hhead, hlast⟩ := isColumn_iff.mp hcolumn
  have htake (x : List Char) : ∀ c ∈ x.takeWhile isNameChar, isNameChar c = true :=
    List.all_eq_true.mp List.all_takeWhile
  have hs : s.takeWhile isNameChar ++ s.dropWhile isNameChar = s := List.takeWhile_append_dropWhile
  have hbare (hx : (s.takeWhile isNameChar, s.dropWhile isNameChar) = (column, rest)) :
      IsGiven column ∧ s = spellColumn column ++ rest := by
    obtain ⟨rfl, rfl⟩ := Prod.mk.inj hx
    rw [spellColumn_of_not_mem (not_mem_of_isNameChar (htake s)), hs]
    exact ⟨.bare hne (htake s), rfl⟩
  unfold splitColumn at h
  dsimp only at h
  -- Brackets belong to the column only if they are closed.
  split at h
  · next inner hinner =>
    split at h
    · next left hleft =>
      have hclosed : inner.takeWhile isNameChar ++ ')' :: left = inner := by
        rw [← hleft, List.takeWhile_append_dropWhile]
      obtain ⟨rfl, rfl⟩ := Prod.mk.inj h
      refine ⟨.embedded ?_ (htake s) ?_ (htake inner), ?_⟩
      · intro hnil
        simp [hnil] at hhead
      · intro hnil
        simp [hnil] at hlast
      · rw [spellColumn_append (not_mem_of_isNameChar (htake s))]
        conv_lhs => rw [← hs, hinner, ← hclosed]
        simp
    · exact hbare h
  · exact hbare h

/-- A column has at most one point, with a name on each side of it. -/
theorem IsGiven.isColumn (h : IsGiven column) :
    isColumn column = true ∧ column.count '.' ≤ 1 := by
  cases h with
  | bare hne h =>
    have hpoint := not_mem_of_isNameChar h
    refine ⟨isColumn_iff.mpr ⟨hne, ?_, ?_⟩, ?_⟩
    · exact fun hhead => hpoint (List.mem_of_head? hhead)
    · exact fun hlast => hpoint (List.mem_of_getLast? hlast)
    · rw [List.count_eq_zero_of_not_mem hpoint]
      exact Nat.zero_le 1
  | @embedded embed name hembedNe hembed hnameNe hname =>
    have hpoint := not_mem_of_isNameChar hembed
    have hpoint' := not_mem_of_isNameChar hname
    obtain ⟨c, embed, rfl⟩ := List.exists_cons_of_ne_nil hembedNe
    refine ⟨isColumn_iff.mpr ⟨by simp, ?_, ?_⟩, ?_⟩
    · rintro hhead
      obtain rfl : c = '.' := by simpa using hhead
      simp at hpoint
    · intro hlast
      rw [List.getLast?_append_of_ne_nil _ (by simp), List.getLast?_cons_of_ne_nil hnameNe] at hlast
      exact hpoint' (List.mem_of_getLast? hlast)
    · have hcount : (c :: embed ++ '.' :: name).count '.' = 1 := by
        rw [List.count_append, List.count_cons_self, List.count_eq_zero_of_not_mem hpoint,
          List.count_eq_zero_of_not_mem hpoint']
      exact Nat.le_of_eq hcount

/-! ## Words -/

/-- The words that a term can have after its column. -/
def knownWords : List (List Char) :=
  ["asc".toList, "desc".toList, "nullsfirst".toList, "nullslast".toList]

theorem mem_knownWords_of_add? {word : List Char} (h : ws.add? word = some ws') :
    word ∈ knownWords := by
  unfold Words.add? at h
  split at h
  · next hword =>
    rcases Bool.or_eq_true_iff.mp hword with hword | hword <;>
      obtain rfl := of_decide_eq_true hword <;> decide
  · split at h
    · next hword =>
      rcases Bool.or_eq_true_iff.mp hword with hword | hword <;>
        obtain rfl := of_decide_eq_true hword <;> decide
    · cases h

theorem mem_knownWords_of_addAll (h : ws.addAll s words = .ok ws') :
    ∀ word ∈ words, word ∈ knownWords := by
  induction words generalizing ws with
  | nil => simp
  | cons word words ih =>
    unfold Words.addAll at h
    split at h
    · next hadd => exact List.forall_mem_cons.mpr ⟨mem_knownWords_of_add? hadd, ih h⟩
    · cases h

theorem not_isDelimiter_of_knownWords :
    ∀ word ∈ knownWords, ∀ c ∈ word, isDelimiter c = false := by
  have hall : (knownWords.all fun word => word.all fun c => !isDelimiter c) = true := rfl
  intro word hword c hc
  simpa using List.all_eq_true.mp (List.all_eq_true.mp hall word hword) c hc

/-- The words of a term and the points before them hold no quote and no bracket. -/
theorem not_isDelimiter_of_words (hwords : splitWords? rest = some words)
    (hadd : ws.addAll s words = .ok ws') : ∀ c ∈ rest, isDelimiter c = false := by
  unfold splitWords? at hwords
  split at hwords
  · simp
  · next rest =>
    cases hwords
    refine List.forall_mem_cons.mpr ⟨rfl, fun c hc => ?_⟩
    by_cases hpoint : c = '.'
    · subst hpoint
      rfl
    · obtain ⟨word, hword, hcword⟩ := Text.exists_mem_splitAll hc hpoint
      have hne : word ≠ [] := List.ne_nil_of_mem hcword
      have hmem : word ∈ (Text.splitAll '.' rest).filter fun w => !w.isEmpty :=
        List.mem_filter.mpr ⟨hword, by simpa using hne⟩
      exact not_isDelimiter_of_knownWords word (mem_knownWords_of_addAll hadd word hmem) c hcword
  · cases hwords

/-- The words of a term are read as they are written. -/
theorem addAll_spellWords (brief : Bool) (d : Direction) (nullsFirst : Option Bool)
    (s : List Char) : ∃ words ws, splitWords? (spellWords brief d nullsFirst) = some words ∧
      ({} : Words).addAll s words = .ok ws ∧ ws.direction.getD .asc = d ∧
      ws.nullsFirst = nullsFirst := by
  have hread : ∃ words, splitWords? (spellWords brief d nullsFirst) = some words ∧
      ({} : Words).addAll s words =
        .ok ⟨if brief && d = .asc then none else some d, nullsFirst⟩ := by
    cases brief <;> cases d <;> rcases nullsFirst with _ | _ | _ <;> exact ⟨_, rfl, rfl⟩
  obtain ⟨words, hwords, hadd⟩ := hread
  refine ⟨words, _, hwords, hadd, ?_, rfl⟩
  cases brief <;> cases d <;> rfl

theorem begins_spellWords (brief : Bool) (d : Direction) (nullsFirst : Option Bool) :
    Begins ['.'] (spellWords brief d nullsFirst) := by
  have hdirection : Begins ['.'] (spellDirection brief d) := by
    unfold spellDirection
    split
    · exact Text.begins_nil
    · exact Text.begins_cons.mpr List.mem_cons_self
  have hnulls : Begins ['.'] (spellNulls nullsFirst) := by
    cases nullsFirst with
    | none => exact Text.begins_nil
    | some nullsFirst => exact Text.begins_cons.mpr List.mem_cons_self
  exact hdirection.append hnulls

theorem spellWords_chars (brief : Bool) (d : Direction) (nullsFirst : Option Bool) :
    ∀ c ∈ spellWords brief d nullsFirst,
      betweenSeparators ',' c = true ∧ Text.isBlank c = false := by
  have hall : ((spellWords brief d nullsFirst).all fun c =>
      betweenSeparators ',' c && !Text.isBlank c) = true := by
    cases brief <;> cases d <;> rcases nullsFirst with _ | _ | _ <;> rfl
  intro c hc
  simpa using List.all_eq_true.mp hall c hc

/-! ## Terms -/

theorem parse_eq_ok_iff : parse s = .ok t ↔ ∃ column rest words ws,
    splitColumn s = (column, rest) ∧ rest.head? ≠ some '(' ∧ splitWords? rest = some words ∧
      isColumn column = true ∧ ({} : Words).addAll s words = .ok ws ∧
      t = ⟨.ofList column, ws.direction.getD .asc, ws.nullsFirst⟩ := by
  unfold parse
  generalize splitColumn s = p
  obtain ⟨column, rest⟩ := p
  dsimp only
  constructor
  · intro h
    split at h
    · cases h
    · next hopen =>
      split at h
      · cases h
      · next words hwords =>
        split at h
        · cases h
        · next hcolumn =>
          split at h
          · cases h
          · next ws hadd =>
            exact ⟨column, rest, words, ws, rfl, hopen, hwords, by simpa using hcolumn, hadd,
              (Except.ok.inj h).symm⟩
  · rintro ⟨column, rest, words, ws, hsplit, hopen, hwords, hcolumn, hadd, rfl⟩
    obtain ⟨rfl, rfl⟩ := Prod.mk.inj hsplit
    rw [if_neg hopen, hwords]
    dsimp only
    rw [hcolumn, hadd]
    rfl

/-- A term is read as it is written. -/
theorem parse_spell (h : IsGiven t.column.toList) : parse (t.spell brief) = .ok t := by
  have hbegins := begins_spellWords brief t.direction t.nullsFirst
  obtain ⟨words, ws, hwords, hadd, hdirection, hnulls⟩ :=
    addAll_spellWords brief t.direction t.nullsFirst (t.spell brief)
  have hopen : (spellWords brief t.direction t.nullsFirst).head? ≠ some '(' := by
    intro hopen
    exact absurd (hbegins '(' hopen) (by decide)
  refine parse_eq_ok_iff.mpr ⟨_, _, words, ws, h.splitColumn_append hbegins, hopen, hwords,
    h.isColumn.1, hadd, ?_⟩
  rw [hdirection, hnulls, String.ofList_toList]

/-- What was read is the column of the term as it is written and words that hold no quote and no
bracket. -/
theorem spellColumn_of_parse (h : parse s = .ok t) : IsGiven t.column.toList ∧
    ∃ rest, s = spellColumn t.column.toList ++ rest ∧ ∀ c ∈ rest, isDelimiter c = false := by
  obtain ⟨column, rest, words, ws, hsplit, hopen, hwords, hcolumn, hadd, rfl⟩ :=
    parse_eq_ok_iff.mp h
  obtain ⟨hgiven, hs⟩ := spellColumn_of_splitColumn hsplit hopen hcolumn
  rw [show (OrderTerm.mk (.ofList column) (ws.direction.getD .asc) ws.nullsFirst).column.toList =
    column from String.toList_ofList]
  exact ⟨hgiven, rest, hs, not_isDelimiter_of_words hwords hadd⟩

theorem trim_spell (h : Spellable t.column.toList)
    (hends : brief = true → ∀ c ∈ (spellColumn t.column.toList).getLast?, Text.isBlank c = false) :
    Text.trim (t.spell brief) = t.spell brief := by
  have hne := h.given.spellColumn_ne_nil
  unfold spell
  refine Text.trim_eq_self ?_ ?_
  · rw [List.head?_append_of_ne_nil _ hne]
    exact h.begins
  · by_cases hwords : spellWords brief t.direction t.nullsFirst = []
    · have hbrief : brief = true := by
        cases brief with
        | true => rfl
        | false => simp [spellWords, spellDirection] at hwords
      rw [hwords, List.append_nil]
      exact hends hbrief
    · rw [List.getLast?_append_of_ne_nil _ hwords]
      intro c hc
      exact (spellWords_chars brief t.direction t.nullsFirst c (List.mem_of_getLast? hc)).2

theorem balanced_spell (h : Spellable t.column.toList) :
    Balanced (betweenSeparators ',') (maxNesting - 1) (t.spell brief) :=
  h.balanced.append
    (.of_forall fun c hc => (spellWords_chars brief t.direction t.nullsFirst c hc).1)

/-! ## Columns that are read back -/

theorem IsName.isNameChar (h : IsName name) : ∀ c ∈ name, isNameChar c = true := by
  intro c hc
  have hdelimiter := (h.chars c hc).1
  refine isNameChar_iff.mpr ⟨?_, ?_, ?_⟩
  · rintro rfl
    exact h.pointless hc
  · rintro rfl
    cases hdelimiter
  · rintro rfl
    cases hdelimiter

/-- A column of names is read back, and does not end with a blank either. -/
theorem NamesColumn.spellable (h : NamesColumn column) : Spellable column ∧
    ∀ c ∈ (spellColumn column).getLast?, Text.isBlank c = false := by
  rcases h with h | ⟨embed, name, hembed, hname, rfl⟩
  · have hspell := spellColumn_of_not_mem h.pointless
    refine ⟨⟨.bare h.nonempty h.isNameChar, ?_, ?_⟩, ?_⟩
    · rw [hspell]
      exact h.begins
    · rw [hspell]
      exact .of_forall h.betweenSeparators
    · rw [hspell]
      exact h.ends
  · have hspell : spellColumn (embed ++ '.' :: name) = embed ++ '(' :: (name ++ [')']) :=
      spellColumn_append hembed.pointless
    have hinner : Balanced (fun c => !isDelimiter c) (maxNesting - 2) name :=
      .of_forall fun c hc => by simp [(hname.chars c hc).1]
    have hgroup : Balanced (betweenSeparators ',') (maxNesting - 1) ('(' :: name ++ ')' :: []) :=
      .group rfl hinner .nil
    refine ⟨⟨.embedded hembed.nonempty hembed.isNameChar hname.nonempty hname.isNameChar,
      ?_, ?_⟩, ?_⟩
    · rw [hspell]
      unfold Stops
      rw [List.head?_append_of_ne_nil _ hembed.nonempty]
      exact hembed.begins
    · rw [hspell]
      exact .run hembed.betweenSeparators hgroup
    · intro c hc
      rw [hspell, ← List.cons_append, ← List.append_assoc, List.getLast?_concat] at hc
      obtain rfl : ')' = c := by simpa using hc
      decide

/-- The column of a term that was read between commas is read back. -/
theorem Spellable.of_parse (h : parse (Text.trim s) = .ok t)
    (hs : Balanced (betweenSeparators ',') (maxNesting - 1) s) : Spellable t.column.toList := by
  obtain ⟨hgiven, rest, hspell, hrest⟩ := spellColumn_of_parse h
  obtain ⟨before, after, htrim, hbefore, hafter⟩ := Text.exists_trim s
  refine ⟨hgiven, ?_, ?_⟩
  · have hstart : Stops Text.isBlank (Text.trim s) := Text.stops_trim
    rw [hspell] at hstart
    exact hstart.of_append
  · -- Around the column stand blanks and the words of the term, and none of these is balanced
    -- against a part of it.
    rw [htrim, hspell, List.append_assoc] at hs
    refine hs.of_append (fun c hc => not_isDelimiter_of_isBlank (hbefore c hc)) fun c hc => ?_
    rcases List.mem_append.mp hc with hc | hc
    · exact hrest c hc
    · exact not_isDelimiter_of_isBlank (hafter c hc)

/-! ## Sort orders -/

theorem parseEach_eq_mapM : parseEach pieces = pieces.mapM fun s => parse (Text.trim s) := by
  induction pieces with
  | nil => rfl
  | cons s pieces ih =>
    rw [List.mapM_cons, ← ih, parseEach]
    cases parse (Text.trim s) with
    | error e => rfl
    | ok t => cases parseEach pieces <;> rfl

/-- Terms are read one by one. -/
theorem parseEach_eq_ok_iff : parseEach pieces = .ok terms ↔
    List.Forall₂ (fun s t => parse (Text.trim s) = .ok t) pieces terms := by
  rw [parseEach_eq_mapM, mapM_eq_ok]

theorem exists_spellAll_cons (p : OrderTerm × Bool) (choices : List (OrderTerm × Bool)) :
    ∃ rest, spellAll (p :: choices) = p.1.spell p.2 ++ rest := by
  cases choices with
  | nil => exact ⟨[], by simp [spellAll, List.intercalate]⟩
  | cons p' choices =>
    exact ⟨',' :: spellAll (p' :: choices), by simp [spellAll, List.intercalate]⟩

/-- A sort order does not begin with a blank. -/
theorem isEmpty_trim_spellAll {choices : List (OrderTerm × Bool)} (hne : choices ≠ [])
    (h : ∀ p ∈ choices, Spellable p.1.column.toList) :
    (Text.trim (spellAll choices)).isEmpty = false := by
  obtain ⟨p, choices, rfl⟩ := List.exists_cons_of_ne_nil hne
  obtain ⟨rest, hspell⟩ := exists_spellAll_cons p choices
  have hp := h p List.mem_cons_self
  have hcolumn := hp.given.spellColumn_ne_nil
  rw [hspell]
  unfold spell
  rw [List.append_assoc]
  refine Text.isEmpty_trim (by simp [hcolumn]) ?_
  unfold Stops
  rw [List.head?_append_of_ne_nil _ hcolumn]
  exact hp.begins

/-- A sort order is read as it is written, with any of its terms brief that do not end with a blank
then. -/
theorem parseAll_of_spellable {choices : List (OrderTerm × Bool)} (hne : choices ≠ [])
    (h : ∀ p ∈ choices, Spellable p.1.column.toList ∧
      (p.2 = true → ∀ c ∈ (spellColumn p.1.column.toList).getLast?, Text.isBlank c = false)) :
    parseAll (spellAll choices) = .ok (choices.map Prod.fst) := by
  have hcut : Value.splitTopLevel ',' (spellAll choices) =
      .ok (choices.map fun p => p.1.spell p.2) := by
    have hbalanced : ∀ s ∈ choices.map fun p => p.1.spell p.2,
        Balanced (betweenSeparators ',') (maxNesting - 1) s := by
      intro s hs
      obtain ⟨p, hp, rfl⟩ := List.mem_map.mp hs
      exact balanced_spell (h p hp).1
    rcases Value.splitTopLevel_intercalate rfl (by simpa using hne) hbalanced with hcut | ⟨hdeep, -⟩
    · exact hcut
    · exact absurd hdeep (by decide)
  unfold parseAll
  rw [isEmpty_trim_spellAll hne fun p hp => (h p hp).1, if_neg Bool.false_ne_true, hcut]
  refine parseEach_eq_ok_iff.mpr ?_
  rw [List.forall₂_map_left_iff, List.forall₂_map_right_iff, List.forall₂_same]
  intro p hp
  obtain ⟨hspellable, hends⟩ := h p hp
  rw [trim_spell hspellable hends]
  exact parse_spell hspellable.given

/-- The columns of terms that were read are read back. -/
theorem spellable_of_parseAll (h : parseAll s = .ok terms) :
    ∀ t ∈ terms, Spellable t.column.toList := by
  unfold parseAll at h
  split at h
  · cases h
    simp
  · split at h
    · cases h
    · next pieces hpieces =>
      obtain ⟨es, rfl, hn, rfl⟩ := Value.exists_elements_of_splitTopLevel rfl hpieces
      have hbalanced : ∀ s ∈ Value.Element.cut ',' es,
          Balanced (betweenSeparators ',') (maxNesting - 1) s :=
        Value.Element.balanced_of_mem_cut hn
      have hread := parseEach_eq_ok_iff.mp h
      intro t ht
      obtain ⟨s, hs, hparse⟩ := exists_mem_of_forall₂ hread t ht
      exact .of_parse hparse (hbalanced s hs)

/-- A sort order of names is read as it is written, with `asc` left out of any of its terms or of
none. A sort order that was read has columns of at most one point with a name on each side of it,
and is read again as it is written. -/
theorem parseAll_spellAll :
    (∀ choices : List (OrderTerm × Bool), choices ≠ [] →
      (∀ p ∈ choices, NamesColumn p.1.column.toList) →
      parseAll (spellAll choices) = .ok (choices.map Prod.fst)) ∧
    ∀ (s : List Char) (terms : List OrderTerm), parseAll s = .ok terms → terms ≠ [] →
      (∀ t ∈ terms, t.column.toList ≠ [] ∧ t.column.toList.count '.' ≤ 1 ∧
        t.column.toList.head? ≠ some '.' ∧ t.column.toList.getLast? ≠ some '.') ∧
      parseAll (spellAll (terms.map fun t => (t, false))) = .ok terms := by
  refine ⟨fun choices hne h => ?_, fun s terms h hne => ⟨fun t ht => ?_, ?_⟩⟩
  · exact parseAll_of_spellable hne fun p hp =>
      ⟨(h p hp).spellable.1, fun _ => (h p hp).spellable.2⟩
  · obtain ⟨hcolumn, hcount⟩ := (spellable_of_parseAll h t ht).given.isColumn
    obtain ⟨hcolumnNe, hhead, hlast⟩ := isColumn_iff.mp hcolumn
    exact ⟨hcolumnNe, hcount, hhead, hlast⟩
  · have hread : parseAll (spellAll (terms.map fun t => (t, false))) =
        .ok ((terms.map fun t => (t, false)).map Prod.fst) := by
      refine parseAll_of_spellable (by simpa using hne) fun p hp => ?_
      obtain ⟨t, ht, rfl⟩ := List.mem_map.mp hp
      exact ⟨spellable_of_parseAll h t ht, fun hbrief => by cases hbrief⟩
    rwa [List.map_map, show Prod.fst ∘ (fun t : OrderTerm => (t, false)) = id from rfl,
      List.map_id] at hread

/-- Names are read back, and so are a comma between quotes and a blank, which no name has. -/
theorem parseAll_spellAll_quoted :
    parseAll (spellAll [(⟨"name", .asc, none⟩, true), (⟨"pets.age", .desc, some true⟩, false)]) =
        .ok [⟨"name", .asc, none⟩, ⟨"pets.age", .desc, some true⟩] ∧
      parseAll (spellAll [(⟨"\"a,b\"", .asc, none⟩, false), (⟨"e. c", .asc, none⟩, false)]) =
        .ok [⟨"\"a,b\"", .asc, none⟩, ⟨"e. c", .asc, none⟩] := by
  have hname (s : List Char) (hne : s ≠ []) (hs : (s.all fun c =>
      betweenSeparators ',' c && !Text.isBlank c && c != '.') = true) : IsName s := by
    have hchars : ∀ c ∈ s, (betweenSeparators ',' c = true ∧ Text.isBlank c = false) ∧ c ≠ '.' := by
      simpa using hs
    refine ⟨⟨fun c hc => (hchars c (List.mem_of_head? hc)).1.2,
      fun c hc => (hchars c (List.mem_of_getLast? hc)).1.2, fun c hc => ?_⟩, hne,
      fun hpoint => (hchars '.' hpoint).2 rfl⟩
    simpa [betweenSeparators, and_comm] using (hchars c hc).1.1
  have hcut : Value.splitTopLevel ',' "\"a,b\",e( c)".toList =
      .ok ["\"a,b\"".toList, "e( c)".toList] := by
    have hcomma : isDelimiter ',' = false := rfl
    rcases Value.splitTopLevel_spellAll hcomma [
      .quoted [.bare 'a' (by decide), .bare ',' (by decide), .bare 'b' (by decide)],
      .char ',' rfl, .char 'e' rfl, .group .round [.char ' ' rfl, .char 'c' rfl]] with h | ⟨h, -⟩
    · exact h
    · exact absurd h (by decide)
  have hread : parseAll "\"a,b\",e( c)".toList =
      .ok [⟨"\"a,b\"", .asc, none⟩, ⟨"e. c", .asc, none⟩] := by
    unfold parseAll
    rw [hcut]
    rfl
  refine ⟨parseAll_spellAll.1 _ (by simp) (List.forall_mem_cons.mpr ⟨.inl ?_,
    List.forall_mem_singleton.mpr (.inr ⟨"pets".toList, "age".toList, ?_, ?_, rfl⟩)⟩),
    (parseAll_spellAll.2 _ _ hread (by simp)).2⟩
  · exact hname "name".toList (List.cons_ne_nil _ _) rfl
  · exact hname "pets".toList (List.cons_ne_nil _ _) rfl
  · exact hname "age".toList (List.cons_ne_nil _ _) rfl

end RestQuery.OrderTerm
