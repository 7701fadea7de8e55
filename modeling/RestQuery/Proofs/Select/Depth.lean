import RestQuery.Proofs.Select.Pieces

/-!
# Select lists with fewer levels allowed

What a text is read as does not depend on how deep embeds may nest, only whether it is read. Main
statement: where fewer levels are allowed than a list has, the reading stops at the bracket of an
embed that lies too deep, and everywhere else the same list is read (`parse_depth`).
-/

namespace RestQuery.Select

variable {α β : Type} {n m maxDepth deeper levels depth : Nat} {nested nested' : Option ListReader}
  {s x left rest : List Char} {name : Option String} {source : String} {node : Node}

/-- What the reading of `s` gives where `levels` levels may follow, if it gives `r` where enough may
and `r` has `depth` of them: `r` again, or a stop at the bracket of an embed. -/
def CutAt (maxDepth levels depth : Nat) (s : List Char) (r : α) (outcome : Reading α) : Prop :=
  (depth ≤ levels ∧ outcome = .ok r) ∨
    (levels < depth ∧ ∃ before inner, s = before ++ '(' :: inner ∧
      outcome = stop ('(' :: inner) (.tooDeep maxDepth))

theorem CutAt.ok {r : α} {outcome : Reading α} (h : outcome = .ok r) :
    CutAt maxDepth levels 0 s r outcome :=
  .inl ⟨Nat.zero_le _, h⟩

theorem CutAt.append {r : α} {outcome : Reading α} (x : List Char)
    (h : CutAt maxDepth levels depth s r outcome) :
    CutAt maxDepth levels depth (x ++ s) r outcome := by
  rcases h with hok | ⟨hlevels, before, inner, rfl, hstop⟩
  · exact .inl hok
  · exact .inr ⟨hlevels, x ++ before, inner, by simp, hstop⟩

/-- What is read further does not matter where the reading stops before it. -/
theorem CutAt.bind {r : α} {outcome : Reading α} {b : β} {next : α → Reading β}
    (h : CutAt maxDepth levels depth s r outcome) (hnext : next r = .ok b) :
    CutAt maxDepth levels depth s b (outcome >>= next) := by
  rcases h with ⟨hlevels, rfl⟩ | ⟨hlevels, before, inner, hs, rfl⟩
  · exact .inl ⟨hlevels, hnext⟩
  · exact .inr ⟨hlevels, before, inner, hs, rfl⟩

/-- The lists in embeds that `nested'` reads are read by `nested` as far as `levels` allows, and not
at all if that is none. -/
def CutsLists (maxDepth levels : Nat) (nested' nested : Option ListReader) : Prop :=
  ∀ read' ∈ nested', (levels = 0 ∧ nested = none) ∨ ∃ n read, levels = n + 1 ∧ nested = some read ∧
    ∀ s t left, read' s = .ok (t, left) →
      CutAt maxDepth n (SelectEntry.depthAll t.entries) s (t, left) (read s)

/-! ## Nodes -/

theorem closeEmbed_eq_ok {after : List Char} (select : Select) (given : String) (join : Join)
    (hafter : skipBlanks after = ')' :: left) :
    closeEmbed given join (select, after) =
      .ok (⟨.embed given false {} select.entries select.joins, some (given, join)⟩, left) := by
  unfold closeEmbed
  rw [hafter]
  rfl

theorem readEmbed_cut (hlists : CutsLists maxDepth levels nested' nested)
    (h : readEmbed deeper nested' source name s = .ok (node, left)) :
    CutAt maxDepth levels node.entry.depth s (node, left)
      (readEmbed maxDepth nested source name s) := by
  obtain ⟨join, inner, read', select, after, hjoin, rfl, hread, hafter, rfl⟩ := readEmbed_eq_ok.mp h
  obtain ⟨x, rfl, -⟩ := readsFront_readJoin (n := 0) _ _ _ _ hjoin
  rcases hlists read' rfl with ⟨rfl, rfl⟩ | ⟨n, read, rfl, rfl, hcut⟩
  · exact .inr ⟨Nat.succ_pos _, x, inner, rfl, readEmbed_none hjoin⟩
  · rw [readEmbed_of_readJoin hjoin]
    have hlist : CutAt maxDepth (n + 1) (SelectEntry.depthAll select.entries + 1) inner
        (select, after) (read inner) := by
      rcases hcut _ _ _ hread with ⟨hlevels, hok⟩ | ⟨hlevels, hstop⟩
      · exact .inl ⟨Nat.succ_le_succ hlevels, hok⟩
      · exact .inr ⟨Nat.succ_lt_succ hlevels, hstop⟩
    have hclose := closeEmbed_eq_ok select (name.getD source) join hafter
    have hinner := (hlist.bind hclose).append (x ++ ['('])
    rwa [List.append_assoc] at hinner

theorem depth_toEntry (f : Field) : f.toEntry.depth = 0 := by
  unfold Field.toEntry
  split <;> rfl

theorem depth_of_readRowCount (h : readRowCount name s = .ok (node, left)) :
    node.entry.depth = 0 := by
  obtain ⟨⟨cast, rest⟩, -, hend⟩ := bind_eq_ok.mp h
  cases hend
  rfl

theorem depth_of_readField {column : String} (h : readField column name s = .ok (node, left)) :
    node.entry.depth = 0 := by
  obtain ⟨f, rfl⟩ := exists_field_of_readField h
  exact depth_toEntry f

theorem readNamed_cut (hlists : CutsLists maxDepth levels nested' nested)
    (h : readNamed deeper nested' name s = .ok (node, left)) :
    CutAt maxDepth levels node.entry.depth s (node, left) (readNamed maxDepth nested name s) := by
  obtain ⟨source, rest, hs, hcases⟩ := readNamed_cases h
  rcases hcases with ⟨rfl, t, rfl, hread⟩ | ⟨hopens, hcount, hread⟩ | ⟨hopens, hread⟩
  · rw [depth_of_readRowCount hread, readNamed_of_isCount hs]
    exact .ok hread
  · obtain ⟨x, rfl, -⟩ := exists_isName hs
    rw [readNamed_of_opensEmbed hs hopens hcount]
    exact (readEmbed_cut hlists hread).append x
  · rw [depth_of_readField hread, readNamed_of_not_opensEmbed hs hopens]
    exact .ok hread

theorem readAliased_cut (hlists : CutsLists maxDepth levels nested' nested)
    (h : readAliased deeper nested' s = .ok (node, left)) :
    CutAt maxDepth levels node.entry.depth s (node, left) (readAliased maxDepth nested s) := by
  obtain ⟨given, rest, hs, hcases⟩ := readAliased_cases h
  rcases hcases with ⟨t, rfl, ht, hread⟩ | ⟨hcolon, hread⟩
  · obtain ⟨x, rfl, -⟩ := exists_isName hs
    obtain ⟨blanks, hblanks, -⟩ := exists_skipBlanks t
    have hcut := (readNamed_cut hlists hread).append (x ++ ':' :: blanks)
    rw [readAliased_of_colon hs ht]
    rwa [List.append_assoc, List.cons_append, ← hblanks] at hcut
  · rw [readAliased_of_no_colon hs hcolon]
    exact readNamed_cut hlists hread

theorem readSpread_cut (hlists : CutsLists maxDepth levels nested' nested)
    (h : readSpread deeper nested' s rest = .ok (node, left)) :
    CutAt maxDepth levels node.entry.depth rest (node, left)
      (readSpread maxDepth nested s rest) := by
  obtain ⟨name, spread, clauses, entries, joins, join, halias, rfl⟩ := readSpread_eq_ok.mp h
  have hcut := readAliased_cut hlists halias
  unfold readSpread
  exact hcut.bind rfl

theorem readBare_cut (hlists : CutsLists maxDepth levels nested' nested)
    (h : readBare deeper nested' s = .ok (node, left)) :
    CutAt maxDepth levels node.entry.depth s (node, left) (readBare maxDepth nested s) := by
  rcases readBare_eq_ok.mp h with ⟨t, rfl, hread⟩ | ⟨rfl, rfl⟩ | hread
  · exact (readSpread_cut hlists hread).append ['.', '.', '.']
  · exact .ok rfl
  · obtain ⟨c, t, rfl, hpoint, hstar⟩ := readAliased_eq_ok_cons hread
    rw [readBare_cons hpoint hstar]
    exact readAliased_cut hlists hread

theorem readNode_cut (hlists : CutsLists maxDepth levels nested' nested)
    (h : readNode deeper nested' s = .ok (node, left)) :
    CutAt maxDepth levels node.entry.depth s (node, left) (readNode maxDepth nested s) := by
  rw [readNode_eq_bind] at h ⊢
  obtain ⟨⟨node', after⟩, hread, hend⟩ := bind_eq_ok.mp h
  cases hend
  obtain ⟨blanks, hblanks, -⟩ := exists_skipBlanks s
  have hcut := (readBare_cut hlists hread).append blanks
  rw [← hblanks] at hcut
  exact hcut.bind rfl

/-! ## Lists -/

/-- Nodes are read up to the first of them that nests too deep. -/
theorem sepBy_cut {nodes : List Node} (hnested' : NestedFront m nested')
    (hnested : NestedFront n nested) (hlists : CutsLists maxDepth levels nested' nested)
    (h : Text.sepBy (readNode deeper nested') ',' s = .ok (nodes, left)) :
    CutAt maxDepth levels (SelectEntry.depthAll (nodes.map (·.entry))) s (nodes, left)
      (Text.sepBy (readNode maxDepth nested) ',' s) := by
  induction nodes generalizing s with
  | nil => exact absurd rfl (ne_nil_of_sepBy h)
  | cons node nodes ih =>
    obtain ⟨a, rest, ha, hcases⟩ := sepBy_front (readsFront_readNode hnested') h
    obtain ⟨x, rfl, -⟩ := readsFront_readNode hnested' _ _ _ ha
    rcases readNode_cut hlists ha with ⟨hlevels, hok⟩ | ⟨hlevels, before, inner, hs, hstop⟩
    · rcases hcases with ⟨hnodes, rfl, hlast⟩ | ⟨more, later, rfl, hmore, hnodes⟩
      · cases hnodes
        exact .inl ⟨Nat.max_le.mpr ⟨hlevels, Nat.zero_le _⟩, Text.sepBy_last hok hlast⟩
      · cases hnodes
        rw [sepBy_separator (readsFront_readNode hnested) hok]
        rcases ih hmore with ⟨hdepth, hlater⟩ | ⟨hdepth, before, inner, rfl, hstop⟩
        · exact .inl ⟨Nat.max_le.mpr ⟨hlevels, hdepth⟩, by rw [hlater]; rfl⟩
        · exact .inr ⟨Nat.lt_of_lt_of_le hdepth (Nat.le_max_right _ _), x ++ ',' :: before, inner,
            by simp, by rw [hstop]; rfl⟩
    · obtain rfl : node = a := by
        rcases hcases with ⟨hnodes, -⟩ | ⟨_, _, -, -, hnodes⟩ <;> exact (List.cons.inj hnodes).1
      exact .inr ⟨Nat.lt_of_lt_of_le hlevels (Nat.le_max_left _ _), before, inner, hs,
        Text.sepBy_error hstop⟩

theorem readListWith_cut {t : Select} (hnested' : NestedFront m nested')
    (hnested : NestedFront n nested) (hlists : CutsLists maxDepth levels nested' nested)
    (h : readListWith deeper nested' s = .ok (t, left)) :
    CutAt maxDepth levels (SelectEntry.depthAll t.entries) s (t, left)
      (readListWith maxDepth nested s) := by
  rcases readListWith_cases h with ⟨rfl, rfl, hend⟩ | ⟨nodes, hnodes, rfl⟩
  · exact .ok (readListWith_of_end hend)
  · obtain ⟨node, rest, hnode, -⟩ := Text.sepBy_cases hnodes
    obtain ⟨c, u, hs, hc⟩ := readNode_eq_ok_cons hnode
    rw [skipBlanks_skipBlanks] at hs
    obtain ⟨blanks, hblanks, -⟩ := exists_skipBlanks s
    have hcut := (sepBy_cut hnested' hnested hlists hnodes).append blanks
    rw [← hblanks] at hcut
    rw [readListWith_of_cons hs hc]
    exact hcut.bind rfl

/-- On the levels that are read where enough may follow: a list in an embed is read with one fewer,
on both sides. -/
theorem cutsLists_nestedReader :
    CutsLists maxDepth levels (nestedReader deeper m) (nestedReader maxDepth levels) := by
  induction m generalizing levels with
  | zero =>
    intro read' hread'
    cases hread'
  | succ m ih =>
    intro read' hread'
    cases hread'
    cases levels with
    | zero => exact .inl ⟨rfl, rfl⟩
    | succ levels =>
      refine .inr ⟨levels, _, rfl, rfl, fun s t left h => ?_⟩
      rw [readList_eq] at h ⊢
      exact readListWith_cut nestedFront_nestedReader nestedFront_nestedReader ih h

/-- A list that is read where enough levels may follow is read again, or stops at the bracket of an
embed. -/
theorem parse_cut {t : Select} (h : parse deeper s = .ok t) (maxDepth : Nat) :
    (SelectEntry.depthAll t.entries ≤ maxDepth ∧ parse maxDepth s = .ok t) ∨
      (maxDepth < SelectEntry.depthAll t.entries ∧ ∃ before inner, s = before ++ '(' :: inner ∧
        parse maxDepth s = .error ⟨before.length, .tooDeep maxDepth⟩) := by
  obtain ⟨rest, hread, hrest⟩ := parse_eq_ok.mp h
  rw [readList_eq] at hread
  have hcut : CutAt maxDepth maxDepth (SelectEntry.depthAll t.entries) s (t, rest)
      (readList maxDepth maxDepth s) := by
    rw [readList_eq]
    exact readListWith_cut nestedFront_nestedReader nestedFront_nestedReader cutsLists_nestedReader
      hread
  rcases hcut with ⟨hdepth, hok⟩ | ⟨hdepth, before, inner, rfl, hstop⟩
  · exact .inl ⟨hdepth, parse_eq_ok.mpr ⟨rest, hok, hrest⟩⟩
  · refine .inr ⟨hdepth, before, inner, rfl, ?_⟩
    unfold parse
    rw [hstop]
    simp [stop]

theorem depthAll_eq_zero {entries : List SelectEntry}
    (h : ∀ e ∈ entries, ∀ given, ¬ e.Embeds given) : SelectEntry.depthAll entries = 0 := by
  have hle : SelectEntry.depthAll entries ≤ 0 := by
    refine SelectEntry.depthAll_le_iff.mpr fun e he => ?_
    cases e with
    | embed given spread clauses inner joins => exact absurd ⟨_, _, _, _, rfl⟩ (h _ he given)
    | _ => exact Nat.le_refl 0
  exact Nat.le_zero.mp hle

/-- A list that is read nests no deeper than allowed. More levels change nothing; with fewer the
list is read as before if it nests no deeper than those, and otherwise the reading stops at the
bracket of an embed. A list without embeds needs no level. -/
theorem parse_depth {t : Select} (h : parse depth s = .ok t) :
    SelectEntry.depthAll t.entries ≤ depth ∧
      (∀ deeper, depth ≤ deeper → parse deeper s = .ok t) ∧
      (∀ maxDepth, maxDepth ≤ depth →
        (SelectEntry.depthAll t.entries ≤ maxDepth → parse maxDepth s = .ok t) ∧
        (maxDepth < SelectEntry.depthAll t.entries → ∃ before inner, s = before ++ '(' :: inner ∧
          parse maxDepth s = .error ⟨before.length, .tooDeep maxDepth⟩)) ∧
      ((∀ e ∈ t.entries, ∀ given, ¬ e.Embeds given) → parse 0 s = .ok t) := by
  have hdepth : SelectEntry.depthAll t.entries ≤ depth := (parse_within h).depth
  have hagain (maxDepth : Nat) (hle : SelectEntry.depthAll t.entries ≤ maxDepth) :
      parse maxDepth s = .ok t := by
    rcases parse_cut h maxDepth with ⟨-, hok⟩ | ⟨hlt, -⟩
    · exact hok
    · exact absurd hle (Nat.not_le.mpr hlt)
  refine ⟨hdepth, fun deeper hle => hagain deeper (Nat.le_trans hdepth hle),
    fun maxDepth _ => ⟨hagain maxDepth, fun hlt => ?_⟩,
    fun hnone => hagain 0 (Nat.le_of_eq (depthAll_eq_zero hnone))⟩
  rcases parse_cut h maxDepth with ⟨hle, -⟩ | ⟨-, hstop⟩
  · exact absurd hle (Nat.not_le.mpr hlt)
  · exact hstop

/-- An embed in an embed needs two levels; aggregates, casts and the count of rows need none. -/
theorem parse_depth_nested :
    ∃ t, parse 3 "a(x::int[],...b:c!inner(z->k.sum())),count()".toList = .ok t ∧
      parse 2 "a(x::int[],...b:c!inner(z->k.sum())),count()".toList = .ok t ∧
      parse 9 "a(x::int[],...b:c!inner(z->k.sum())),count()".toList = .ok t ∧
      ∃ before inner,
        "a(x::int[],...b:c!inner(z->k.sum())),count()".toList = before ++ '(' :: inner ∧
        parse 1 "a(x::int[],...b:c!inner(z->k.sum())),count()".toList =
          .error ⟨before.length, .tooDeep 1⟩ := by
  have h : parse 3 "a(x::int[],...b:c!inner(z->k.sum())),count()".toList =
      .ok ⟨[.embed "a" false {}
          [.field { name := "x", column := some "x", cast := some "int[]" },
            .embed "b" true {}
              [.field ⟨"sum", some "z", [.key "k"], false, none, some .sum, none⟩] []]
          [("b", { table := "c", type := .inner })],
        .field Field.rowCount], [("a", { table := "a" })]⟩ :=
    parse_eq_of_agrees (by decide +kernel)
  obtain ⟨-, hmore, hfewer, -⟩ := parse_depth h
  exact ⟨_, h, (hfewer 2 (by decide)).1 (by decide), hmore 9 (by decide),
    (hfewer 1 (by decide)).2 (by decide)⟩

end RestQuery.Select
