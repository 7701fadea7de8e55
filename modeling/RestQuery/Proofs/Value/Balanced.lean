import Mathlib.Tactic.Common
import RestQuery.Proofs.Text.Scanning
import RestQuery.Value.Delimited

/-!
# Balanced texts

What the readers of delimited text accept, said as a grammar. A balanced text is read over whatever
follows it, and a reader reads nothing else. So a text is cut at the separators that are put between
balanced pieces, and at no others.
-/

namespace RestQuery.Value

/-- A text of characters that are `plain`, quoted texts, and groups that are closed by the bracket
of their own kind and nest at most `n` deep. In a group all characters but quotes and brackets are
plain. -/
inductive Balanced : (Char → Bool) → Nat → List Char → Prop where
  | nil {plain : Char → Bool} {n : Nat} : Balanced plain n []
  | plain {plain : Char → Bool} {n : Nat} {c : Char} {s : List Char} (hc : plain c = true)
      (hs : Balanced plain n s) : Balanced plain n (c :: s)
  | quoted {plain : Char → Bool} {n : Nat} {q t s : List Char} (hq : quoted? q = some (t, []))
      (hs : Balanced plain n s) : Balanced plain n (q ++ s)
  | group {plain : Char → Bool} {n : Nat} {c close : Char} {inner s : List Char}
      (hc : closer? c = some close) (hinner : Balanced (fun c => !isDelimiter c) n inner)
      (hs : Balanced plain (n + 1) s) : Balanced plain (n + 1) (c :: inner ++ close :: s)

variable {plain more : Char → Bool} {n m levels : Nat} {c close sep : Char}
  {s t q rest : List Char}

/-! ## Putting balanced texts together -/

theorem Balanced.run (h : ∀ c ∈ s, plain c = true) (ht : Balanced plain n t) :
    Balanced plain n (s ++ t) := by
  induction s with
  | nil => exact ht
  | cons c s ih =>
    obtain ⟨hc, hs⟩ := List.forall_mem_cons.mp h
    exact .plain hc (ih hs)

theorem Balanced.of_forall (h : ∀ c ∈ s, plain c = true) : Balanced plain n s := by
  rw [← List.append_nil s]
  exact .run h .nil

theorem Balanced.append (hs : Balanced plain n s) (ht : Balanced plain n t) :
    Balanced plain n (s ++ t) := by
  induction hs with
  | nil => exact ht
  | plain hc _ ih => exact .plain hc (ih ht)
  | quoted hq _ ih =>
    rw [List.append_assoc]
    exact .quoted hq (ih ht)
  | group hc hinner _ _ ih =>
    rw [List.append_assoc, List.cons_append]
    exact .group hc hinner (ih ht)

theorem Balanced.intercalate {pieces : List (List Char)} (hsep : plain sep = true)
    (h : ∀ s ∈ pieces, Balanced plain n s) : Balanced plain n ([sep].intercalate pieces) := by
  induction pieces with
  | nil => exact .nil
  | cons s pieces ih =>
    obtain ⟨hs, hpieces⟩ := List.forall_mem_cons.mp h
    cases pieces with
    | nil => simpa [List.intercalate] using hs
    | cons s' pieces =>
      have hcons : [sep].intercalate (s :: s' :: pieces) =
          s ++ sep :: [sep].intercalate (s' :: pieces) := by
        simp [List.intercalate]
      rw [hcons]
      exact hs.append (.plain hsep (ih hpieces))

/-- More characters may be plain, and groups may nest deeper. -/
theorem Balanced.mono (h : Balanced plain n s) (hplain : ∀ c, plain c = true → more c = true)
    (hn : n ≤ m) : Balanced more m s := by
  induction h generalizing more m with
  | nil => exact .nil
  | plain hc _ ih => exact .plain (hplain _ hc) (ih hplain hn)
  | quoted hq _ ih => exact .quoted hq (ih hplain hn)
  | group hc _ _ ihinner ih =>
    cases m with
    | zero => cases hn
    | succ m =>
      have hinner : Balanced (fun c => !isDelimiter c) m _ :=
        ihinner (fun _ hc => hc) (Nat.le_of_succ_le_succ hn)
      exact .group hc hinner (ih hplain hn)

/-! ## Quotes and brackets -/

theorem quotedTail?_append {left : List Char} (h : quotedTail? q = some (t, left)) :
    quotedTail? (q ++ rest) = some (t, left ++ rest) := by
  fun_induction quotedTail? q generalizing t with
  | case1 => cases h
  | case2 s =>
    cases h
    rfl
  | case3 => cases h
  | case4 c s ih =>
    obtain ⟨⟨t', left'⟩, hs, he⟩ := Option.map_eq_some_iff.mp h
    cases he
    simp [quotedTail?, ih hs]
  | case5 c s hquote hlast hescape ih =>
    obtain ⟨⟨t', left'⟩, hs, he⟩ := Option.map_eq_some_iff.mp h
    cases he
    have hc : c ≠ '\\' := by
      rintro rfl
      cases s with
      | nil => exact hlast rfl rfl
      | cons d s => exact hescape d s rfl rfl
    simp [quotedTail?, hc, ih hs]

theorem quotedTail?_eq_some (h : quotedTail? s = some (t, rest)) :
    ∃ q, s = q ++ rest ∧ quotedTail? q = some (t, []) := by
  fun_induction quotedTail? s generalizing t with
  | case1 => cases h
  | case2 s =>
    cases h
    exact ⟨['"'], rfl, rfl⟩
  | case3 => cases h
  | case4 c s ih =>
    obtain ⟨⟨t', left⟩, hs, he⟩ := Option.map_eq_some_iff.mp h
    cases he
    obtain ⟨q, rfl, hq⟩ := ih hs
    exact ⟨'\\' :: c :: q, rfl, by simp [quotedTail?, hq]⟩
  | case5 c s hquote hlast hescape ih =>
    obtain ⟨⟨t', left⟩, hs, he⟩ := Option.map_eq_some_iff.mp h
    cases he
    obtain ⟨q, rfl, hq⟩ := ih hs
    have hc : c ≠ '\\' := by
      rintro rfl
      cases q with
      | nil => cases hq
      | cons d q => exact hescape d _ rfl rfl
    exact ⟨c :: q, rfl, by simp [quotedTail?, hc, hq]⟩

/-- A quoted text is read off the front of a text. -/
theorem quoted?_append (h : quoted? q = some (t, [])) : quoted? (q ++ rest) = some (t, rest) := by
  unfold quoted? at h
  split at h
  · exact quotedTail?_append h
  · cases h

/-- What is read off the front of a text is a quoted text. -/
theorem quoted?_eq_some (h : quoted? s = some (t, rest)) :
    ∃ q, s = q ++ rest ∧ quoted? q = some (t, []) := by
  unfold quoted? at h
  split at h
  · obtain ⟨q, rfl, hq⟩ := quotedTail?_eq_some h
    exact ⟨'"' :: q, rfl, hq⟩
  · cases h

theorem ne_nil_of_quoted? (h : quoted? q = some (t, rest)) : q ≠ [] := by
  rintro rfl
  cases h

theorem getLast?_of_quotedTail? (h : quotedTail? q = some (t, [])) : q.getLast? = some '"' := by
  fun_induction quotedTail? q generalizing t with
  | case1 => cases h
  | case2 s =>
    cases h
    rfl
  | case3 => cases h
  | case4 c s ih =>
    obtain ⟨⟨t', left⟩, hs, he⟩ := Option.map_eq_some_iff.mp h
    cases he
    rw [List.getLast?_cons, List.getLast?_cons, ih hs]
    rfl
  | case5 c s hquote hlast hescape ih =>
    obtain ⟨⟨t', left⟩, hs, he⟩ := Option.map_eq_some_iff.mp h
    cases he
    rw [List.getLast?_cons, ih hs]
    rfl

/-- A quoted text ends with the quote that closes it. -/
theorem getLast?_of_quoted? (h : quoted? q = some (t, [])) : q.getLast? = some '"' := by
  unfold quoted? at h
  split at h
  · rw [List.getLast?_cons, getLast?_of_quotedTail? h]
    rfl
  · cases h

theorem quoted?_cons_of_ne (h : c ≠ '"') : quoted? (c :: s) = none := by
  unfold quoted?
  split
  · next heq => exact absurd (List.cons.inj heq).1 h
  · rfl

theorem ne_quote_of_not_isDelimiter (h : isDelimiter c = false) : c ≠ '"' := by
  rintro rfl
  cases h

theorem not_isDelimiter_of_isBlank (h : Text.isBlank c = true) : isDelimiter c = false := by
  have hall : ("\"()\x7b\x7d[]".toList.all fun c => !Text.isBlank c) = true := rfl
  cases hc : isDelimiter c with
  | false => rfl
  | true =>
    have hblank := List.all_eq_true.mp hall c (List.contains_iff_mem.mp hc)
    rw [h] at hblank
    cases hblank

theorem closer?_of_not_isDelimiter (h : isDelimiter c = false) : closer? c = none := by
  unfold closer?
  split_ifs with h₁ h₂ h₃
  · subst h₁
    cases h
  · subst h₂
    cases h
  · subst h₃
    cases h
  · rfl

/-- An opening bracket is no quote, and the bracket that closes it opens nothing. -/
theorem closer?_eq_some (h : closer? c = some close) :
    c ≠ '"' ∧ isDelimiter close = true ∧ close ≠ '"' ∧ closer? close = none := by
  unfold closer? at h
  split_ifs at h with h₁ h₂ h₃
  · cases h
    subst h₁
    decide
  · cases h
    subst h₂
    decide
  · cases h
    subst h₃
    decide

/-! ## Without the ends -/

theorem Balanced.of_cons (h : Balanced plain n (c :: s)) (hc : isDelimiter c = false) :
    Balanced plain n s := by
  generalize hx : c :: s = x at h
  cases h with
  | nil => cases hx
  | plain _ hs =>
    cases hx
    exact hs
  | quoted hq _ =>
    obtain ⟨d, q, rfl⟩ := List.exists_cons_of_ne_nil (ne_nil_of_quoted? hq)
    cases hx
    rw [quoted?_cons_of_ne (ne_quote_of_not_isDelimiter hc)] at hq
    cases hq
  | group hopen _ _ =>
    cases hx
    rw [closer?_of_not_isDelimiter hc] at hopen
    cases hopen

/-- A text that ends with another character than the whole is a beginning of what is before the
last character. -/
theorem exists_of_concat_eq {s x y : List Char} {d : Char} (h : s ++ [c] = x ++ y)
    (hx : x.getLast? = some d) (hd : d ≠ c) : ∃ z, s = x ++ z ∧ y = z ++ [c] := by
  rcases List.append_eq_append_iff.mp h with ⟨z, rfl, hz⟩ | ⟨z, rfl, hz⟩
  · rcases List.append_eq_singleton_iff.mp hz.symm with ⟨rfl, rfl⟩ | ⟨rfl, rfl⟩
    · exact ⟨[], by simp, rfl⟩
    · rw [List.getLast?_concat] at hx
      exact absurd (Option.some.inj hx).symm hd
  · exact ⟨z, rfl, hz⟩

theorem Balanced.of_concat (h : Balanced plain n (s ++ [c])) (hc : isDelimiter c = false) :
    Balanced plain n s := by
  generalize hx : s ++ [c] = x at h
  induction h generalizing s with
  | nil => simp at hx
  | plain hd _ ih =>
    cases s with
    | nil => exact .nil
    | cons d' s =>
      cases hx
      exact .plain hd (ih rfl)
  | quoted hq _ ih =>
    obtain ⟨z, rfl, hz⟩ := exists_of_concat_eq hx (getLast?_of_quoted? hq)
      (ne_quote_of_not_isDelimiter hc).symm
    exact .quoted hq (ih hz.symm)
  | @group _ _ d close inner x hopen hinner _ _ ih =>
    have hclose : close ≠ c := by
      rintro rfl
      rw [(closer?_eq_some hopen).2.1] at hc
      cases hc
    have hgroup : s ++ [c] = (d :: inner ++ [close]) ++ x := by simpa using hx
    obtain ⟨z, rfl, hz⟩ := exists_of_concat_eq hgroup List.getLast?_concat hclose
    rw [List.append_assoc]
    exact .group hopen hinner (ih hz.symm)

/-- What is balanced stays so without characters at its ends that are no quotes and no brackets. -/
theorem Balanced.of_append {before after : List Char}
    (h : Balanced plain n (before ++ (s ++ after)))
    (hbefore : ∀ c ∈ before, isDelimiter c = false) (hafter : ∀ c ∈ after, isDelimiter c = false) :
    Balanced plain n s := by
  have hstart : Balanced plain n (s ++ after) := by
    induction before with
    | nil => exact h
    | cons c before ih =>
      obtain ⟨hc, hbefore⟩ := List.forall_mem_cons.mp hbefore
      exact ih (h.of_cons hc) hbefore
  clear h
  induction after generalizing s with
  | nil => rwa [List.append_nil] at hstart
  | cons c after ih =>
    obtain ⟨hc, hafter⟩ := List.forall_mem_cons.mp hafter
    rw [List.append_cons] at hstart
    exact (ih hafter hstart).of_concat hc

/-! ## Reading a piece -/

/-- Where no piece can begin none is read. -/
theorem piece?_stop (hquote : c ≠ '"') (hopen : closer? c = none) (hplain : plain c = false) :
    piece? (group? (levels + 1)) plain (c :: s) = .ok none := by
  have hgroup : group? (levels + 1) (c :: s) = .ok none := by
    unfold group?
    rw [hopen]
  unfold piece?
  rw [quoted?_cons_of_ne hquote, hgroup]
  simp [hplain]

theorem piece?_nil : piece? (group? (levels + 1)) plain [] = .ok none := rfl

theorem piece?_plain (hdelimiter : isDelimiter c = false) (hc : plain c = true) :
    piece? (group? (levels + 1)) plain (c :: s) = .ok (some ((c :: s).dropWhile plain)) := by
  have hgroup : group? (levels + 1) (c :: s) = .ok none := by
    unfold group?
    rw [closer?_of_not_isDelimiter hdelimiter]
  unfold piece?
  rw [quoted?_cons_of_ne (ne_quote_of_not_isDelimiter hdelimiter), hgroup]
  simp [hc]

theorem piece?_quoted {group? : List Char → Except Fault (Option (List Char))}
    (h : quoted? s = some (t, rest)) : piece? group? plain s = .ok (some rest) := by
  unfold piece?
  rw [h]

/-! ## Reading balanced texts -/

/-- A run of plain characters is read over. -/
theorem skip_run (hplain : ∀ c, plain c = true → isDelimiter c = false) :
    Text.skipMany (piece? (group? (levels + 1)) plain) s =
      Text.skipMany (piece? (group? (levels + 1)) plain) (s.dropWhile plain) := by
  cases s with
  | nil => rfl
  | cons c s =>
    cases hc : plain c with
    | false => rw [List.dropWhile_cons_of_neg (by simp [hc])]
    | true =>
      refine Text.skipMany_some (piece?_plain (hplain c hc) hc) ?_
      rw [List.dropWhile_cons_of_pos hc]
      exact Nat.lt_succ_of_le (List.dropWhile_sublist plain).length_le

/-- Plain characters are read one by one as well as in a run. -/
theorem skip_plain (hplain : ∀ c, plain c = true → isDelimiter c = false) (hc : plain c = true) :
    Text.skipMany (piece? (group? (levels + 1)) plain) (c :: s) =
      Text.skipMany (piece? (group? (levels + 1)) plain) s := by
  rw [skip_run hplain, List.dropWhile_cons_of_pos hc, ← skip_run hplain]

/-- A group is read whose contents are read over. -/
theorem group?_closed (hc : closer? c = some close)
    (hinner : Text.skipMany (piece? (group? levels) fun c => !isDelimiter c) (s ++ close :: rest) =
      .ok (close :: rest)) :
    group? (levels + 1) (c :: s ++ close :: rest) = .ok (some rest) := by
  rw [List.cons_append, group?, hc]
  dsimp only
  rw [hinner]
  simp

theorem group?_error {e : Fault} (hc : closer? c = some close)
    (hinner : Text.skipMany (piece? (group? levels) fun c => !isDelimiter c) s = .error e) :
    group? (levels + 1) (c :: s) = .error e := by
  rw [group?, hc]
  dsimp only
  rw [hinner]

theorem skip_of_group?_error {group? : List Char → Except Fault (Option (List Char))} {e : Fault}
    (hquoted : quoted? s = none) (hgroup : group? s = .error e) :
    Text.skipMany (piece? group? plain) s = .error e := by
  refine Text.skipMany_error ?_
  unfold piece?
  rw [hquoted, hgroup]

/-- Without levels nothing is read where no quote stands. -/
theorem skip_zero_cons (hquote : c ≠ '"') :
    Text.skipMany (piece? (group? 0) plain) (c :: s) = .error .tooDeep :=
  skip_of_group?_error (quoted?_cons_of_ne hquote) rfl

/-- A balanced text is read over, unless its groups nest too deep. -/
theorem Balanced.skip_cases (h : Balanced plain n s)
    (hplain : ∀ c, plain c = true → isDelimiter c = false) (levels : Nat) (rest : List Char) :
    Text.skipMany (piece? (group? levels) plain) (s ++ rest) =
        Text.skipMany (piece? (group? levels) plain) rest ∨
      levels ≤ n ∧ Text.skipMany (piece? (group? levels) plain) (s ++ rest) = .error .tooDeep := by
  -- By the grammar. Only a bracket takes a level; without levels any character ends the reading.
  induction h generalizing levels rest with
  | nil => exact .inl rfl
  | plain hc _ ih =>
    cases levels with
    | zero =>
      exact .inr ⟨Nat.zero_le _, skip_zero_cons (ne_quote_of_not_isDelimiter (hplain _ hc))⟩
    | succ levels =>
      rw [List.cons_append, skip_plain hplain hc]
      exact ih hplain (levels + 1) rest
  | @quoted _ _ q _ s hq _ ih =>
    have hlength : (s ++ rest).length < (q ++ (s ++ rest)).length := by
      have hpositive := List.length_pos_iff.mpr (ne_nil_of_quoted? hq)
      simp only [List.length_append]
      omega
    rw [List.append_assoc, Text.skipMany_some (piece?_quoted (quoted?_append hq)) hlength]
    exact ih hplain levels rest
  | @group plain n c close inner s hc _ _ ihinner ih =>
    obtain ⟨hquote, hdelimiter, hquote', hopen⟩ := closer?_eq_some hc
    rw [List.append_assoc, show close :: s ++ rest = close :: (s ++ rest) from rfl]
    cases levels with
    | zero => exact .inr ⟨Nat.zero_le _, skip_zero_cons hquote⟩
    | succ levels =>
      have hinner : Text.skipMany (piece? (group? levels) fun c => !isDelimiter c)
            (inner ++ close :: (s ++ rest)) = .ok (close :: (s ++ rest)) ∨
          levels ≤ n ∧ Text.skipMany (piece? (group? levels) fun c => !isDelimiter c)
            (inner ++ close :: (s ++ rest)) = .error .tooDeep := by
        rcases ihinner (by simp) levels (close :: (s ++ rest)) with hskip | hdeep
        · rw [hskip]
          cases levels with
          | zero => exact .inr ⟨Nat.zero_le _, skip_zero_cons hquote'⟩
          | succ levels =>
            exact .inl (Text.skipMany_none (piece?_stop hquote' hopen (by simp [hdelimiter])))
        · exact .inr hdeep
      rcases hinner with hinner | ⟨hlevels, hinner⟩
      · have hpiece : piece? (group? (levels + 1)) plain (c :: inner ++ close :: (s ++ rest)) =
            .ok (some (s ++ rest)) := by
          unfold piece?
          rw [group?_closed hc hinner, List.cons_append, quoted?_cons_of_ne hquote]
        have hlength : (s ++ rest).length < (c :: inner ++ close :: (s ++ rest)).length := by
          simp only [List.length_append, List.length_cons]
          omega
        rw [Text.skipMany_some hpiece hlength]
        exact ih hplain (levels + 1) rest
      · exact .inr ⟨Nat.succ_le_succ hlevels,
          skip_of_group?_error (quoted?_cons_of_ne hquote) (group?_error hc hinner)⟩

/-! ## What is read is balanced -/

/-- All that a piece can be: a quoted text, a group, or a run of plain characters. -/
theorem piece?_cases {group? : List Char → Except Fault (Option (List Char))}
    (h : piece? group? plain s = .ok (some rest)) :
    (∃ t, quoted? s = some (t, rest)) ∨ group? s = .ok (some rest) ∨
      s = s.takeWhile plain ++ rest := by
  unfold piece? at h
  split at h
  · next t later hquoted =>
    cases h
    exact .inl ⟨t, hquoted⟩
  · split at h
    · cases h
    · next hgroup =>
      cases h
      exact .inr (.inl hgroup)
    · split at h
      · cases h
      · split at h
        · cases h
          exact .inr (.inr (List.takeWhile_append_dropWhile).symm)
        · cases h

/-- A group that is read is closed by the bracket of its own kind. -/
theorem group?_eq_some (h : group? (levels + 1) s = .ok (some rest)) :
    ∃ c close inner, s = c :: inner ∧ closer? c = some close ∧
      Text.skipMany (piece? (group? levels) fun c => !isDelimiter c) inner =
        .ok (close :: rest) := by
  unfold group? at h
  split at h
  · cases h
  · cases h
  · next levels' c inner hs =>
    cases hs
    split at h
    · cases h
    · next close hclose =>
      split at h
      · cases h
      · cases h
      · next d later hskip =>
        split at h
        · next hd =>
          cases h
          subst hd
          exact ⟨c, _, inner, rfl, hclose, hskip⟩
        · cases h

theorem length_lt_of_quoted? (h : quoted? s = some (t, rest)) : rest.length < s.length := by
  obtain ⟨q, rfl, hq⟩ := quoted?_eq_some h
  have hpositive := List.length_pos_iff.mpr (ne_nil_of_quoted? hq)
  rw [List.length_append]
  omega

/-- Without levels nothing is read but quoted texts, and no text is read to its end. -/
theorem skip_zero (h : Text.skipMany (piece? (group? 0) plain) s = .ok rest) : False := by
  have hpiece (s : List Char) (read : Option (List Char))
      (h : piece? (group? 0) plain s = .ok read) : ∃ later ∈ read, later.length < s.length := by
    unfold piece? at h
    split at h
    · next hquoted =>
      cases h
      exact ⟨_, rfl, length_lt_of_quoted? hquoted⟩
    · cases h
  induction hlength : s.length using Nat.strongRecOn generalizing s with
  | ind length ih =>
    rcases Text.skipMany_cases h with ⟨-, read, hread, hstays⟩ | ⟨later, -, hlt, hlater⟩
    · obtain ⟨later, hmem, hlt⟩ := hpiece s read hread
      exact Nat.not_lt.mpr (hstays later hmem) hlt
    · exact ih later.length (hlength ▸ hlt) hlater rfl

/-- What is read over is balanced, if groups are. -/
theorem balanced_of_pieces {group? : List Char → Except Fault (Option (List Char))}
    (hgroup : ∀ s rest, group? s = .ok (some rest) →
      ∃ x, s = x ++ rest ∧ ∀ t, Balanced plain n t → Balanced plain n (x ++ t))
    (h : Text.skipMany (piece? group? plain) s = .ok rest) :
    ∃ x, s = x ++ rest ∧ Balanced plain n x := by
  induction hlength : s.length using Nat.strongRecOn generalizing s with
  | ind length ih =>
    rcases Text.skipMany_cases h with ⟨rfl, -⟩ | ⟨later, hpiece, hlt, hlater⟩
    · exact ⟨[], rfl, .nil⟩
    · obtain ⟨x, rfl, hx⟩ := ih later.length (hlength ▸ hlt) hlater rfl
      rcases piece?_cases hpiece with ⟨t, hquoted⟩ | hread | hrun
      · obtain ⟨q, rfl, hq⟩ := quoted?_eq_some hquoted
        exact ⟨q ++ x, (List.append_assoc ..).symm, .quoted hq hx⟩
      · obtain ⟨y, rfl, hy⟩ := hgroup _ _ hread
        exact ⟨y ++ x, (List.append_assoc ..).symm, hy x hx⟩
      · refine ⟨s.takeWhile plain ++ x, by rw [List.append_assoc]; exact hrun, .run ?_ hx⟩
        exact List.all_eq_true.mp List.all_takeWhile

/-- What is read over is balanced. -/
theorem balanced_of_skip (h : Text.skipMany (piece? (group? (n + 1)) plain) s = .ok rest) :
    ∃ x, s = x ++ rest ∧ Balanced plain n x := by
  -- By the levels: what stands in a group is read with one level less.
  induction n generalizing plain s rest with
  | zero =>
    refine balanced_of_pieces (fun s rest hread => ?_) h
    obtain ⟨c, close, inner, -, -, hinner⟩ := group?_eq_some hread
    exact (skip_zero hinner).elim
  | succ n ih =>
    refine balanced_of_pieces (fun s rest hread => ?_) h
    obtain ⟨c, close, inner, rfl, hc, hinner⟩ := group?_eq_some hread
    obtain ⟨x, rfl, hx⟩ := ih hinner
    refine ⟨c :: x ++ [close], by simp, fun t ht => ?_⟩
    have hclosed := Balanced.group hc hx ht
    simpa using hclosed

/-! ## Cutting at separators -/

/-- The characters that a text may have between separators, outside quotes and groups. -/
def betweenSeparators (sep c : Char) : Bool := c != sep && !isDelimiter c

theorem not_isDelimiter_of_betweenSeparators (h : betweenSeparators sep c = true) :
    isDelimiter c = false := by
  unfold betweenSeparators at h
  simp at h
  simpa using h.2

/-- Where a separator stands no piece begins. -/
theorem piece?_separator (hsep : isDelimiter sep = false) :
    piece? (group? (levels + 1)) (betweenSeparators sep) (sep :: rest) = .ok none :=
  piece?_stop (ne_quote_of_not_isDelimiter hsep) (closer?_of_not_isDelimiter hsep)
    (by simp [betweenSeparators])

/-- A balanced text is read up to a place where no piece begins, unless its groups nest too deep. -/
theorem segment_append (h : Balanced (betweenSeparators sep) n s)
    (hrest : piece? (group? (levels + 1)) (betweenSeparators sep) rest = .ok none) :
    segment (levels + 1) sep (s ++ rest) = .ok (s, rest) ∨
      levels + 1 ≤ n ∧ segment (levels + 1) sep (s ++ rest) = .error .tooDeep := by
  have hstop := Text.skipMany_none hrest
  have hskip := h.skip_cases (fun _ => not_isDelimiter_of_betweenSeparators) (levels + 1) rest
  unfold betweenSeparators at hskip hstop
  unfold segment
  rcases hskip with hskip | ⟨hlevels, hskip⟩
  · rw [hskip, hstop]
    simp [Text.consumed_append]
  · rw [hskip]
    exact .inr ⟨hlevels, rfl⟩

/-- Balanced texts with separators between them are read one by one, up to a place where no piece
begins, unless their groups nest too deep. -/
theorem sepBy_intercalate {pieces : List (List Char)} (hsep : isDelimiter sep = false)
    (hne : pieces ≠ []) (h : ∀ s ∈ pieces, Balanced (betweenSeparators sep) n s)
    (hrest : piece? (group? (levels + 1)) (betweenSeparators sep) rest = .ok none)
    (hlast : rest.head? ≠ some sep) :
    Text.sepBy (segment (levels + 1) sep) sep ([sep].intercalate pieces ++ rest) =
        .ok (pieces, rest) ∨
      levels + 1 ≤ n ∧
        Text.sepBy (segment (levels + 1) sep) sep ([sep].intercalate pieces ++ rest) =
          .error .tooDeep := by
  induction pieces with
  | nil => exact absurd rfl hne
  | cons s pieces ih =>
    obtain ⟨hs, hpieces⟩ := List.forall_mem_cons.mp h
    cases pieces with
    | nil =>
      rw [show [sep].intercalate [s] = s by simp [List.intercalate]]
      rcases segment_append hs hrest with hread | ⟨hdeep, hread⟩
      · exact .inl (Text.sepBy_last hread hlast)
      · exact .inr ⟨hdeep, Text.sepBy_error hread⟩
    | cons s' pieces =>
      have hcons : [sep].intercalate (s :: s' :: pieces) ++ rest =
          s ++ sep :: ([sep].intercalate (s' :: pieces) ++ rest) := by
        simp [List.intercalate]
      have hshorter : ([sep].intercalate (s' :: pieces) ++ rest).length <
          (s ++ sep :: ([sep].intercalate (s' :: pieces) ++ rest)).length := by
        simp only [List.length_append, List.length_cons]
        omega
      rw [hcons]
      rcases segment_append hs (piece?_separator hsep) with hfirst | ⟨hdeep, hfirst⟩
      · rw [Text.sepBy_more hfirst hshorter]
        rcases ih (by simp) hpieces with hlater | ⟨hdeep, hlater⟩
        · rw [hlater]
          exact .inl rfl
        · rw [hlater]
          exact .inr ⟨hdeep, rfl⟩
      · exact .inr ⟨hdeep, Text.sepBy_error hfirst⟩

/-- Balanced texts with separators between them are cut into themselves, unless their groups nest
too deep. -/
theorem splitTopLevel_intercalate {pieces : List (List Char)} (hsep : isDelimiter sep = false)
    (hne : pieces ≠ []) (h : ∀ s ∈ pieces, Balanced (betweenSeparators sep) n s) :
    splitTopLevel sep ([sep].intercalate pieces) = .ok pieces ∨
      maxNesting ≤ n ∧ splitTopLevel sep ([sep].intercalate pieces) = .error .tooDeep := by
  have hsepBy : Text.sepBy (segment maxNesting sep) sep ([sep].intercalate pieces ++ []) =
        .ok (pieces, []) ∨
      maxNesting ≤ n ∧ Text.sepBy (segment maxNesting sep) sep ([sep].intercalate pieces ++ []) =
        .error .tooDeep :=
    sepBy_intercalate hsep hne h piece?_nil (by simp)
  rw [List.append_nil] at hsepBy
  unfold splitTopLevel
  rcases hsepBy with hsepBy | ⟨hdeep, hsepBy⟩
  · rw [hsepBy]
    exact .inl rfl
  · rw [hsepBy]
    exact .inr ⟨hdeep, rfl⟩

/-! ## What is cut is balanced -/

theorem Balanced.of_betweenSeparators (h : Balanced (betweenSeparators sep) n s) :
    Balanced (fun c => !isDelimiter c) n s :=
  h.mono (fun c hc => by simp [not_isDelimiter_of_betweenSeparators hc]) (Nat.le_refl n)

/-- The text that is read as pieces with separators between them is balanced. -/
theorem balanced_of_sepBy {pieces : List (List Char)} (hsep : isDelimiter sep = false)
    (h : Text.sepBy (segment (n + 1) sep) sep s = .ok (pieces, rest)) :
    ∃ x, s = x ++ rest ∧ Balanced (fun c => !isDelimiter c) n x := by
  induction pieces generalizing s with
  | nil =>
    obtain ⟨_, _, -, ⟨hnil, -⟩ | ⟨_, _, -, -, -, hnil⟩⟩ := Text.sepBy_cases h <;> cases hnil
  | cons p pieces ih =>
    obtain ⟨q, left, hq, hcases⟩ := Text.sepBy_cases h
    have hpiece : ∃ x, s = x ++ left ∧ Balanced (betweenSeparators sep) n x := by
      unfold segment at hq
      split at hq
      · cases hq
      · next hskip =>
        cases hq
        exact balanced_of_skip hskip
    obtain ⟨x, rfl, hx⟩ := hpiece
    rcases hcases with ⟨-, rfl⟩ | ⟨more, later, rfl, -, hlater, hpieces⟩
    · exact ⟨x, rfl, hx.of_betweenSeparators⟩
    · cases hpieces
      obtain ⟨y, rfl, hy⟩ := ih hlater
      refine ⟨x ++ sep :: y, by simp, hx.of_betweenSeparators.append (.plain ?_ hy)⟩
      simp [hsep]

/-- A text that is cut is balanced. -/
theorem balanced_of_splitTopLevel {pieces : List (List Char)} (hsep : isDelimiter sep = false)
    (h : splitTopLevel sep s = .ok pieces) :
    Balanced (fun c => !isDelimiter c) (maxNesting - 1) s := by
  unfold splitTopLevel at h
  split at h
  · cases h
  · next hread =>
    obtain ⟨x, rfl, hx⟩ := balanced_of_sepBy hsep hread
    rwa [List.append_nil]
  · cases h

end RestQuery.Value
