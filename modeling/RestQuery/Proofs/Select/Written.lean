import RestQuery.Proofs.Select.Pieces

/-!
# What select lists are read from

How an embed is written, and with it the join that it declares: its table, the words after the
exclamation marks and the name in front. Main statement: a list that is read is well-formed at every
level, and under a name stands the join that the first embed of that name is written with
(`parse_written`).
-/

namespace RestQuery.Select

open Value (Balanced betweenSeparators)

variable {n maxDepth levels : Nat} {nested : Option ListReader} {s x y left rest inner : List Char}
  {name : Option String} {source given : String} {join : Join} {node : Node} {t : Select}

/-! ## Embeds as they are written -/

/-- Whether a word is a join type. -/
def isJoinType (word : String) : Bool := word = "inner" || word = "left"

/-- `x` is written for the type and the hint of a join: words after exclamation marks, of which at
most one is a join type and at most one is not. -/
def IsModifiers (join : Join) (x : List Char) : Prop :=
  ∃ (words : List String) (texts : List (List Char)) (type : Option JoinType),
    x = texts.flatMap ('!' :: ·) ∧ List.Forall₂ IsName words texts ∧
    words.filter isJoinType = type.toList.map JoinType.name ∧ join.type = type.getD .left ∧
    words.filter (!isJoinType ·) = join.hint.toList

/-- `x` is written for an embed without a name of its own: the table and modifiers of its join, and
the text of its list between brackets. -/
def IsUnnamed (join : Join) (inner x : List Char) : Prop :=
  ∃ table modifiers blanks, x = table ++ modifiers ++ '(' :: (inner ++ blanks ++ [')']) ∧
    IsName join.table table ∧ IsModifiers join modifiers ∧ ∀ c ∈ blanks, isSpace c = true

/-- `x` is written for an embed that is called `name`, as its table is or by a name before a
colon. -/
def IsEmbed (name : String) (join : Join) (inner x : List Char) : Prop :=
  (name = join.table ∧ IsUnnamed join inner x) ∨
    ∃ word blanks body, x = word ++ ':' :: (blanks ++ body) ∧ IsName name word ∧
      (∀ c ∈ blanks, isSpace c = true) ∧ IsUnnamed join inner body

mutual

/-- `x` is written for a node, of which only embeds are told apart. -/
inductive Node.Written : List Char → Node → Prop where
  /-- An embed declares the join that it is written with, and has the list in its brackets. -/
  | embed {x before after inner : List Char} {name : String} {spread : Bool} {join : Join}
      {t : Select} (hbefore : ∀ c ∈ before, isSpace c = true)
      (hafter : ∀ c ∈ after, isSpace c = true) (hembed : IsEmbed name join inner x)
      (hlist : Written inner t) :
      Node.Written (before ++ (if spread then ['.', '.', '.'] else []) ++ x ++ after)
        ⟨.embed name spread {} t.entries t.joins, some (name, join)⟩
  /-- What is no embed declares no join. -/
  | other {x : List Char} {e : SelectEntry} (h : ∀ given, ¬ e.Embeds given) :
      Node.Written x ⟨e, none⟩

/-- `x` is written for a list: nothing, or nodes with commas between them. Under a name the list has
the join of the first node that declares one. -/
inductive Written : List Char → Select → Prop where
  /-- A list without entries. -/
  | empty {x : List Char} (h : ∀ c ∈ x, isSpace c = true) : Written x {}
  /-- A list with entries. -/
  | nodes {n : Nat} {texts : List (List Char)} {nodes : List Node} {t : Select}
      (hbalanced : ∀ text ∈ texts, Balanced (betweenSeparators ',') n text)
      (hnodes : List.Forall₂ Node.Written texts nodes)
      (hentries : t.entries = nodes.map (·.entry))
      (hjoins : ∀ given, Keyed.find? t.joins given = nodes.findSome? (Node.declared? given)) :
      Written ([','].intercalate texts) t

end

/-! ## Modifiers -/

/-- The words that are read are added to the type and the hint that were given before them. -/
theorem readModifiersWithin_words {fuel : Nat} {join' : Join} {type type' : Option JoinType}
    (h : readModifiersWithin fuel join type s = .ok ((join', type'), left)) :
    ∃ words texts, s = texts.flatMap ('!' :: ·) ++ left ∧ List.Forall₂ IsName words texts ∧
      type.toList.map JoinType.name ++ words.filter isJoinType =
        type'.toList.map JoinType.name ∧
      join.hint.toList ++ words.filter (!isJoinType ·) = join'.hint.toList ∧
      join'.table = join.table := by
  induction fuel generalizing s join type with
  | zero =>
    cases h
    exact ⟨[], [], by simp, .nil, by simp, by simp, rfl⟩
  | succ fuel ih =>
    unfold readModifiersWithin at h
    split at h
    · next rest =>
      obtain ⟨⟨word, after⟩, hword, hthen⟩ := bind_eq_ok.mp h
      obtain ⟨x, rfl, hname, -⟩ := exists_isName hword
      dsimp only at hthen
      split at hthen
      · next hkind =>
        split at hthen
        · cases hthen
        · next hfree =>
          obtain ⟨words, texts, rfl, hwords, htypes, hhints, htable⟩ := ih hthen
          have hjoinType : isJoinType word = true := hkind
          obtain rfl : type = none := by simpa using hfree
          have hword : word = (if word = "inner" then JoinType.inner else .left).name := by
            simp only [Bool.or_eq_true, decide_eq_true_eq] at hkind
            rcases hkind with rfl | rfl <;> rfl
          refine ⟨word :: words, x :: texts, by simp, .cons hname hwords, ?_, ?_, htable⟩
          · rw [List.filter_cons_of_pos hjoinType, ← htypes]
            simpa using hword
          · rw [List.filter_cons_of_neg (by simp [hjoinType]), hhints]
      · next hkind =>
        split at hthen
        · cases hthen
        · next hfree =>
          obtain ⟨words, texts, rfl, hwords, htypes, hhints, htable⟩ := ih hthen
          have hjoinType : isJoinType word = false := by simpa [isJoinType] using hkind
          have hnone : join.hint = none := by simpa using hfree
          refine ⟨word :: words, x :: texts, by simp, .cons hname hwords, ?_, ?_, htable⟩
          · rw [List.filter_cons_of_neg (by simp [hjoinType]), htypes]
          · rw [List.filter_cons_of_pos (by simp [hjoinType]), ← hhints, hnone]
            rfl
    · cases h
      exact ⟨[], [], by simp, .nil, by simp, by simp, rfl⟩

theorem exists_isModifiers (h : readJoin source s = .ok (join, left)) :
    join.table = source ∧ ∃ x, s = x ++ left ∧ IsModifiers join x := by
  unfold readJoin at h
  obtain ⟨⟨⟨join', type⟩, after⟩, hmodifiers, hend⟩ := bind_eq_ok.mp h
  cases hend
  obtain ⟨words, texts, rfl, hwords, htypes, hhints, htable⟩ := readModifiersWithin_words hmodifiers
  exact ⟨htable, _, rfl, words, texts, type, rfl, hwords, by simpa using htypes, rfl,
    by simpa using hhints⟩

/-! ## Nodes -/

/-- The lists in embeds are read from what is written for them. -/
def NestedWritten (nested : Option ListReader) : Prop :=
  ∀ read ∈ nested, ∀ x t, read x = .ok (t, []) → Written x t

/-- What is no embed, and so declares no join. -/
def Node.IsOther (node : Node) : Prop := node.join = none ∧ ∀ given, ¬ node.entry.Embeds given

theorem isOther_toEntry (f : Field) : Node.IsOther ⟨f.toEntry, none⟩ := by
  refine ⟨rfl, ?_⟩
  rintro given ⟨spread, clauses, entries, joins, he⟩
  unfold Field.toEntry at he
  split at he <;> cases he

/-- An embed is read from the text of its join and the text of its list. -/
theorem exists_isUnnamed_of_readEmbed (hfront : NestedFront n nested)
    (hwritten : NestedWritten nested)
    (hx : IsName source x) (h : readEmbed maxDepth nested source name s = .ok (node, left)) :
    ∃ join inner y t, s = y ++ left ∧ IsUnnamed join inner (x ++ y) ∧ Written inner t ∧
      join.table = source ∧ node = ⟨.embed (name.getD source) false {} t.entries t.joins,
        some (name.getD source, join)⟩ := by
  obtain ⟨join, inner, read, t, after, hjoin, rfl, hread, hafter, rfl⟩ := readEmbed_eq_ok.mp h
  obtain ⟨htable, modifiers, rfl, hmodifiers⟩ := exists_isModifiers hjoin
  obtain ⟨list, rfl, -, hcut⟩ := hfront read rfl _ _ _ hread
  have hlist : read list = .ok (t, []) := by simpa using hcut [] after rfl
  obtain ⟨blanks, hblanks, hspace⟩ := exists_skipBlanks after
  rw [hafter] at hblanks
  subst hblanks
  refine ⟨join, list, modifiers ++ '(' :: (list ++ blanks ++ [')']), t, by simp, ?_,
    hwritten read rfl list t hlist, htable, rfl⟩
  exact ⟨x, modifiers, blanks, by simp, htable ▸ hx, hmodifiers, hspace⟩

theorem exists_isUnnamed_of_readNamed (hfront : NestedFront n nested)
    (hwritten : NestedWritten nested)
    (h : readNamed maxDepth nested name s = .ok (node, left)) :
    node.IsOther ∨ ∃ join inner x t, s = x ++ left ∧ IsUnnamed join inner x ∧ Written inner t ∧
      node = ⟨.embed (name.getD join.table) false {} t.entries t.joins,
        some (name.getD join.table, join)⟩ := by
  obtain ⟨source, rest, hs, hcases⟩ := readNamed_cases h
  obtain ⟨x, rfl, hx, -⟩ := exists_isName hs
  rcases hcases with ⟨rfl, t, rfl, hread⟩ | ⟨hopens, hcount, hread⟩ | ⟨hopens, hread⟩
  · obtain ⟨⟨cast, after⟩, -, hend⟩ := bind_eq_ok.mp hread
    cases hend
    exact .inl ⟨rfl, by rintro given ⟨_, _, _, _, he⟩; cases he⟩
  · obtain ⟨join, inner, y, t, rfl, hunnamed, hlist, rfl, hnode⟩ :=
      exists_isUnnamed_of_readEmbed hfront hwritten hx hread
    exact .inr ⟨join, inner, x ++ y, t, by simp, hunnamed, hlist, hnode⟩
  · obtain ⟨f, rfl⟩ := exists_field_of_readField hread
    exact .inl (isOther_toEntry f)

theorem exists_isEmbed_of_readAliased (hfront : NestedFront n nested)
    (hwritten : NestedWritten nested)
    (h : readAliased maxDepth nested s = .ok (node, left)) :
    node.IsOther ∨ ∃ name join inner x t, s = x ++ left ∧ IsEmbed name join inner x ∧
      Written inner t ∧ node = ⟨.embed name false {} t.entries t.joins, some (name, join)⟩ := by
  obtain ⟨given, rest, hs, hcases⟩ := readAliased_cases h
  rcases hcases with ⟨after, rfl, -, hread⟩ | ⟨-, hread⟩
  · obtain ⟨word, rfl, hword, -⟩ := exists_isName hs
    obtain ⟨blanks, hblanks, hspace⟩ := exists_skipBlanks after
    rcases exists_isUnnamed_of_readNamed hfront hwritten hread with
      hother | ⟨join, inner, body, t, hbody, hunnamed, hlist, rfl⟩
    · exact .inl hother
    · rw [hbody] at hblanks
      subst hblanks
      exact .inr ⟨given, join, inner, word ++ ':' :: (blanks ++ body), t, by simp,
        .inr ⟨word, blanks, body, rfl, hword, hspace, hunnamed⟩, hlist, rfl⟩
  · rcases exists_isUnnamed_of_readNamed hfront hwritten hread with
      hother | ⟨join, inner, x, t, rfl, hunnamed, hlist, rfl⟩
    · exact .inl hother
    · exact .inr ⟨join.table, join, inner, x, t, rfl, .inl ⟨rfl, hunnamed⟩, hlist, rfl⟩

theorem exists_isEmbed_of_readBare (hfront : NestedFront n nested) (hwritten : NestedWritten nested)
    (h : readBare maxDepth nested s = .ok (node, left)) :
    node.IsOther ∨ ∃ (spread : Bool) (name : String) (join : Join) (inner x : List Char)
      (t : Select), s = (if spread then ['.', '.', '.'] else []) ++ x ++ left ∧
      IsEmbed name join inner x ∧ Written inner t ∧
      node = ⟨.embed name spread {} t.entries t.joins, some (name, join)⟩ := by
  rcases readBare_eq_ok.mp h with ⟨after, rfl, hread⟩ | ⟨-, rfl⟩ | hread
  · obtain ⟨name, spread, clauses, entries, joins, join, halias, rfl⟩ := readSpread_eq_ok.mp hread
    rcases exists_isEmbed_of_readAliased hfront hwritten halias with
      ⟨-, hother⟩ | ⟨name', join', inner, x, t, rfl, hembed, hlist, hnode⟩
    · exact absurd ⟨_, _, _, _, rfl⟩ (hother name)
    · cases hnode
      exact .inr ⟨true, name, join', inner, x, t, rfl, hembed, hlist, rfl⟩
  · exact .inl ⟨rfl, by rintro given ⟨_, _, _, _, he⟩; cases he⟩
  · rcases exists_isEmbed_of_readAliased hfront hwritten hread with
      hother | ⟨name, join, inner, x, t, rfl, hembed, hlist, rfl⟩
    · exact .inl hother
    · exact .inr ⟨false, name, join, inner, x, t, rfl, hembed, hlist, rfl⟩

theorem written_of_readNode (hfront : NestedFront n nested) (hwritten : NestedWritten nested)
    (h : readNode maxDepth nested x = .ok (node, [])) : node.Written x := by
  rw [readNode_eq_bind] at h
  obtain ⟨⟨node', after⟩, hread, hend⟩ := bind_eq_ok.mp h
  obtain ⟨rfl, hafter⟩ := Prod.mk.inj (Except.ok.inj hend)
  obtain ⟨before, hbefore, hspaceBefore⟩ := exists_skipBlanks x
  obtain ⟨blanks, hblanks, hspace⟩ := exists_skipBlanks after
  rcases exists_isEmbed_of_readBare hfront hwritten hread with
    ⟨hjoin, hother⟩ | ⟨spread, name, join, inner, y, t, hs, hembed, hlist, rfl⟩
  · obtain ⟨entry, join⟩ := node'
    cases hjoin
    exact .other hother
  · have htext : x = before ++ (if spread then ['.', '.', '.'] else []) ++ y ++ blanks := by
      rw [hbefore, hs, hblanks, hafter]
      simp
    rw [htext]
    exact .embed hspaceBefore hspace hembed hlist

/-! ## Lists -/

theorem written_of_readListWith (hfront : NestedFront n nested) (hwritten : NestedWritten nested)
    (h : readListWith maxDepth nested x = .ok (t, [])) : Written x t := by
  rcases readListWith_empty_or_nodes hfront h with ⟨rfl, hleft, -⟩ | ⟨nodes, hnodes, rfl⟩
  · obtain ⟨blanks, hx, hspace⟩ := exists_skipBlanks x
    rw [← hleft, List.append_nil] at hx
    exact .empty (hx ▸ hspace)
  · obtain ⟨texts, rfl, htexts⟩ := exists_pieces (readsFront_readNode hfront) hnodes
    -- Nothing is left behind the nodes, so each piece is all that is written for its node.
    have hpiece : List.Forall₂ (fun text node => Balanced (betweenSeparators ',') (n + 1) text ∧
        Node.Written text node) texts nodes := by
      refine htexts.imp fun text node htext => ?_
      obtain ⟨y, after, rfl, hbalanced, hafter, hnode⟩ := htext
      obtain rfl : after = [] := by simpa using hafter
      rw [List.append_nil] at hnode ⊢
      exact ⟨hbalanced, written_of_readNode hfront hwritten hnode⟩
    obtain ⟨hbalanced, hnodes⟩ := (List.forall₂_and_left _ _).mp hpiece
    exact .nodes hbalanced hnodes rfl (find?_ofNodes nodes)

theorem nestedWritten_nestedReader : NestedWritten (nestedReader maxDepth levels) := by
  induction levels with
  | zero =>
    intro read hread
    cases hread
  | succ levels ih =>
    intro read hread x t h
    cases hread
    rw [readList_eq] at h
    exact written_of_readListWith nestedFront_nestedReader ih h

/-- A list that is read is well-formed, and so is every list in it. It is written at the front of
the text, with nothing but blanks behind it; at every level, under a name stands the join that the
first embed of that name is written with. -/
theorem parse_written (h : parse maxDepth s = .ok t) :
    t.WellFormed ∧ ∃ x after, s = x ++ after ∧ (∀ c ∈ after, Text.isBlank c = true) ∧
      Written x t := by
  obtain ⟨after, hread, hblank⟩ := parse_eq_ok.mp h
  rw [readList_eq] at hread
  obtain ⟨x, rfl, -, hcut⟩ := readsFront_readListWith nestedFront_nestedReader s t after hread
  have hlist := hcut [] after rfl
  rw [List.append_nil] at hlist
  exact ⟨(parse_within h).wellFormed, x, after, rfl, hblank,
    written_of_readListWith nestedFront_nestedReader nestedWritten_nestedReader hlist⟩

/-- Of two embeds of one name the first declares the join, also in the list of an embed. -/
theorem parse_written_twice :
    ∃ t, parse 2 "a(b:x!left!k(id),...b:y!inner(),*) , count()\u00a0".toList = .ok t ∧
      t.WellFormed ∧ ∃ x after,
        "a(b:x!left!k(id),...b:y!inner(),*) , count()\u00a0".toList = x ++ after ∧
        (∀ c ∈ after, Text.isBlank c = true) ∧ Written x t := by
  have h : parse 2 "a(b:x!left!k(id),...b:y!inner(),*) , count()\u00a0".toList =
      .ok ⟨[.embed "a" false {}
          [.embed "b" false {} [.column "id"] [], .embed "b" true {} [] [], .wildcard]
          [("b", { table := "x", hint := some "k" })],
        .field Field.rowCount], [("a", { table := "a" })]⟩ :=
    parse_eq_of_agrees (by decide +kernel)
  exact ⟨_, h, parse_written h⟩

end RestQuery.Select
