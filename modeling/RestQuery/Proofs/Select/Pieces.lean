import RestQuery.Proofs.Select.Agreement
import RestQuery.Proofs.Select.Extents
import RestQuery.Proofs.Select.Reading

/-!
# Select lists cut at their commas

The commas between the entries of a select list are those that stand in no group and in no quoted
text, so whoever knows nothing of the grammar but brackets and quotes finds the same ones. Main
statement: a list is cut there into one piece for each entry, and each piece read alone is a list of
that entry (`splitTopLevel_of_parse`).
-/

namespace RestQuery.Select

open Text (Stops)
open Value (Balanced betweenSeparators isDelimiter)

variable {α : Type} {n maxDepth levels : Nat} {nested : Option ListReader}
  {s x left rest : List Char} {name : Option String} {source : String} {node : Node}

/-! ## Nodes -/

theorem balanced_of_isSpace (h : ∀ c ∈ x, isSpace c = true) :
    Balanced (betweenSeparators ',') n x :=
  .of_forall fun c hc => betweenSeparators_of_class (by decide) (h c hc)

/-- The lists in embeds are read off the front of a text. -/
def NestedFront (n : Nat) (nested : Option ListReader) : Prop :=
  ∀ read ∈ nested, ReadsFront (fun c => !isDelimiter c) n read

theorem readsFront_readEmbed (hnested : NestedFront n nested) :
    ReadsFront (betweenSeparators ',') (n + 1) (readEmbed maxDepth nested source name) := by
  intro s node left h
  obtain ⟨join, inner, read, select, after, hjoin, rfl, hread, hafter, rfl⟩ := readEmbed_eq_ok.mp h
  obtain ⟨x, rfl, hx, hcutJoin⟩ := readsFront_readJoin (n := n + 1) source _ _ _ hjoin
  obtain ⟨y, rfl, hy, hcutList⟩ := hnested read rfl _ _ _ hread
  obtain ⟨blanks, hblanks, hspace⟩ := exists_skipBlanks after
  rw [hafter] at hblanks
  subst hblanks
  have hgroup : Balanced (betweenSeparators ',') (n + 1) ('(' :: (y ++ blanks) ++ [')']) :=
    .group rfl (hy.append (balanced_of_isSpace hspace).of_betweenSeparators) .nil
  refine ⟨x ++ ('(' :: (y ++ blanks) ++ [')']), by simp, hx.append hgroup, fun z more hz => ?_⟩
  have hopen := hcutJoin ('(' :: (y ++ (blanks ++ ')' :: z))) more (by simp [hz])
  have hlist := hcutList (blanks ++ ')' :: z) more (by simp [hz])
  have hclose : skipBlanks (blanks ++ ')' :: z) = ')' :: z :=
    skipBlanks_run hspace (by simp; decide)
  have htext : x ++ ('(' :: (y ++ blanks) ++ [')']) ++ z =
      x ++ '(' :: (y ++ (blanks ++ ')' :: z)) := by simp
  rw [htext]
  exact readEmbed_eq_ok.mpr ⟨join, _, read, select, _, hopen, rfl, hlist, hclose, rfl⟩

theorem readsFront_readRowCount :
    ReadsFront (betweenSeparators ',') (n + 1) (readRowCount name) := by
  unfold readRowCount
  refine readsFront_readCast.bind fun cast => ?_
  exact ReadsFront.pure (⟨.field { Field.rowCount with
    name := name.getD Field.rowCount.name, cast }, none⟩ : Node)

theorem readEmbed_nil : readEmbed maxDepth nested source name [] ≠ .ok (node, left) := by
  intro h
  obtain ⟨join, inner, read, select, after, hjoin, -⟩ := readEmbed_eq_ok.mp h
  cases hjoin

theorem readsFront_readNamed (hnested : NestedFront n nested) :
    ReadsFront (betweenSeparators ',') (n + 1) (readNamed maxDepth nested name) := by
  intro s node left h
  obtain ⟨source, rest, hs, hcases⟩ := readNamed_cases h
  obtain ⟨x, rfl, hx, hcutName⟩ := readsFront_readName (n := n + 1) _ _ _ hs
  rcases hcases with ⟨rfl, t, rfl, hread⟩ | ⟨hopens, hcount, hread⟩ | ⟨hopens, hread⟩
  · obtain ⟨y, rfl, hy, hcut⟩ := readsFront_readRowCount (n := n) _ _ _ hread
    refine ⟨x ++ ('(' :: ')' :: y), by simp, hx.append ((balanced_brackets rfl).append hy),
      fun z more hz => ?_⟩
    have hname := hcutName ('(' :: ')' :: (y ++ z)) more (by simp [hz])
    rw [List.append_assoc]
    exact (readNamed_of_isCount hname).trans (hcut z more hz)
  · obtain ⟨y, rfl, hy, hcut⟩ := readsFront_readEmbed hnested _ _ _ hread
    -- Something is read, so the first character after the name is not cut off.
    have hne : y ≠ [] := by
      rintro rfl
      exact readEmbed_nil (hcut [] left rfl)
    obtain ⟨c, y, rfl⟩ := List.exists_cons_of_ne_nil hne
    refine ⟨x ++ (c :: y), by simp, hx.append hy, fun z more hz => ?_⟩
    have hname := hcutName (c :: y ++ z) more (by simp [hz])
    have hopens' : OpensEmbed (c :: y ++ z) := by
      obtain ⟨d, t, ht, hd⟩ := hopens
      obtain ⟨rfl, -⟩ := List.cons.inj ht
      exact ⟨c, y ++ z, rfl, hd⟩
    have hcount' : ¬ IsCount source (c :: y ++ z) := by
      rintro ⟨hsource, t, ht⟩
      exact hcount ⟨hsource, t ++ more, by rw [hz, ← List.append_assoc, ht]; rfl⟩
    rw [List.append_assoc, readNamed_of_opensEmbed hname hopens' hcount']
    exact hcut z more hz
  · obtain ⟨y, rfl, hy, hcut⟩ := readsFront_readField (n := n) source name _ _ _ hread
    refine ⟨x ++ y, by simp, hx.append hy, fun z more hz => ?_⟩
    have hname := hcutName (y ++ z) more (by simp [hz])
    have hopens' : ¬ OpensEmbed (y ++ z) := by
      rintro ⟨c, t, ht, hc⟩
      exact hopens ⟨c, t ++ more, by rw [hz, ← List.append_assoc, ht]; rfl, hc⟩
    rw [List.append_assoc, readNamed_of_not_opensEmbed hname hopens']
    exact hcut z more hz

theorem readNamed_nil : readNamed maxDepth nested name [] ≠ .ok (node, left) := by
  intro h
  obtain ⟨source, rest, hs, -⟩ := readNamed_cases h
  cases hs

/-- A field whose cast stands next takes the two colons of the cast. -/
theorem exists_append_of_readField_colons {column : String} {t : List Char}
    (h : readField column name (':' :: ':' :: t) = .ok (node, left)) : ∃ y, t = y ++ left := by
  obtain ⟨y, hy, -, hcut⟩ := readsFront_readField (n := 0) column name _ _ _ h
  have hcolons : readField column name [':', ':'] ≠ .ok (node, [':', ':']) ∧
      readField column name [':', ':'] ≠ .ok (node, [':']) :=
    ⟨nofun, nofun⟩
  match y, hy with
  | [], hy => exact absurd (hcut [':', ':'] t hy.symm) hcolons.1
  | [c], hy =>
    obtain ⟨rfl, hleft⟩ := List.cons.inj hy
    exact absurd (hcut [':'] t hleft.symm) hcolons.2
  | c :: d :: y, hy => exact ⟨y, (List.cons.inj (List.cons.inj hy).2).2⟩

/-- What a node leaves is left behind its name, and behind the colons of a cast that stand there. -/
theorem exists_append_of_readNamed (hnested : NestedFront n nested)
    (hs : readName s = .ok (source, rest))
    (h : readNamed maxDepth nested name s = .ok (node, left)) :
    ∃ w, rest = w ++ left ∧ ∀ t, rest = ':' :: ':' :: t → ∃ u, w = ':' :: ':' :: u := by
  obtain ⟨source', rest', hs', hcases⟩ := readNamed_cases h
  rw [hs] at hs'
  cases hs'
  rcases hcases with ⟨rfl, t, rfl, hread⟩ | ⟨hopens, hcount, hread⟩ | ⟨hopens, hread⟩
  · obtain ⟨y, rfl, -⟩ := readsFront_readRowCount (n := n) _ _ _ hread
    exact ⟨'(' :: ')' :: y, rfl, nofun⟩
  · obtain ⟨y, rfl, -⟩ := readsFront_readEmbed hnested _ _ _ hread
    refine ⟨y, rfl, fun t ht => ?_⟩
    obtain ⟨c, u, hu, hc⟩ := hopens
    obtain ⟨rfl, -⟩ := List.cons.inj (hu.symm.trans ht)
    exact absurd hc (by decide)
  · obtain ⟨y, hy, -⟩ := readsFront_readField (n := n) source name _ _ _ hread
    refine ⟨y, hy, fun t ht => ?_⟩
    rw [ht] at hread
    obtain ⟨u, rfl⟩ := exists_append_of_readField_colons hread
    refine ⟨u, List.append_cancel_right (hy.symm.trans ht)⟩

theorem readsFront_readAliased (hnested : NestedFront n nested) :
    ReadsFront (betweenSeparators ',') (n + 1) (readAliased maxDepth nested) := by
  intro s node left h
  obtain ⟨given, rest, hs, hcases⟩ := readAliased_cases h
  obtain ⟨x, rfl, hx, hcutName⟩ := readsFront_readName (n := n + 1) _ _ _ hs
  rcases hcases with ⟨t, rfl, ht, hread⟩ | ⟨hcolon, hread⟩
  · obtain ⟨y, hy, hbalanced, hcut⟩ := readsFront_readNamed hnested _ _ _ hread
    obtain ⟨blanks, hblanks, hspace⟩ := exists_skipBlanks t
    have hstops : Stops isSpace (y ++ left) := hy ▸ stops_skipBlanks
    rw [hy] at hblanks
    subst hblanks
    have hne : y ≠ [] := by
      rintro rfl
      exact readNamed_nil (hcut [] left rfl)
    obtain ⟨c, y, rfl⟩ := List.exists_cons_of_ne_nil hne
    refine ⟨x ++ (':' :: (blanks ++ (c :: y))), by simp,
      hx.append (.plain (by decide) ((balanced_of_isSpace hspace).append hbalanced)),
      fun z more hz => ?_⟩
    have hname := hcutName (':' :: (blanks ++ (c :: y ++ z))) more (by simp [hz])
    have hhead : (blanks ++ (c :: y ++ z)).head? ≠ some ':' := by
      cases blanks <;> simpa using ht
    have hskip : skipBlanks (blanks ++ (c :: y ++ z)) = c :: y ++ z :=
      skipBlanks_run hspace (by simpa using hstops)
    have htext : x ++ (':' :: (blanks ++ (c :: y))) ++ z =
        x ++ ':' :: (blanks ++ (c :: y ++ z)) := by simp
    rw [htext, readAliased_of_colon hname hhead, hskip]
    exact hcut z more hz
  · obtain ⟨w, rfl, hw⟩ := exists_append_of_readNamed hnested hs hread
    obtain ⟨y, hy, hbalanced, hcut⟩ := readsFront_readNamed hnested _ _ _ hread
    obtain rfl : y = x ++ w := by
      rw [← List.append_assoc] at hy
      exact (List.append_cancel_right hy).symm
    refine ⟨x ++ w, by simp, hbalanced, fun z more hz => ?_⟩
    have hname := hcutName (w ++ z) more (by simp [hz])
    rw [List.append_assoc, readAliased_of_no_colon hname, ← List.append_assoc]
    · exact hcut z more hz
    · -- A colon that stands alone now would have stood alone before.
      intro t ht
      have hrest : w ++ left = ':' :: (t ++ more) := by
        rw [hz, ← List.append_assoc, ht]
        rfl
      obtain ⟨u, hu⟩ : ∃ u, t ++ more = ':' :: u := by
        have hhead := hcolon _ hrest
        cases hmore : t ++ more with
        | nil => simp [hmore] at hhead
        | cons c u => exact ⟨u, by simpa [hmore] using hhead⟩
      obtain ⟨u, rfl⟩ := hw u (by rw [hrest, hu])
      cases ht
      rfl

theorem readsFront_readBare (hnested : NestedFront n nested) :
    ReadsFront (betweenSeparators ',') (n + 1) (readBare maxDepth nested) := by
  intro s node left h
  rcases readBare_eq_ok.mp h with ⟨t, rfl, hread⟩ | ⟨rfl, rfl⟩ | hread
  · obtain ⟨name, spread, clauses, entries, joins, join, halias, rfl⟩ := readSpread_eq_ok.mp hread
    obtain ⟨x, rfl, hx, hcut⟩ := readsFront_readAliased hnested _ _ _ halias
    refine ⟨'.' :: '.' :: '.' :: x, rfl,
      .plain (by decide) (.plain (by decide) (.plain (by decide) hx)), fun z more hz => ?_⟩
    have halias' := hcut z more hz
    exact readBare_eq_ok.mpr (.inl ⟨x ++ z, rfl,
      readSpread_eq_ok.mpr ⟨name, spread, clauses, entries, joins, join, halias', rfl⟩⟩)
  · exact ⟨['*'], rfl, .plain (by decide) .nil, fun z more hz => rfl⟩
  · obtain ⟨x, rfl, hx, hcut⟩ := readsFront_readAliased hnested _ _ _ hread
    exact ⟨x, rfl, hx, fun z more hz => readBare_eq_ok.mpr (.inr (.inr (hcut z more hz)))⟩

theorem readBare_nil : readBare maxDepth nested [] ≠ .ok (node, left) := nofun

theorem readsFront_readNode (hnested : NestedFront n nested) :
    ReadsFront (betweenSeparators ',') (n + 1) (readNode maxDepth nested) := by
  intro s node left h
  rw [readNode_eq_bind] at h
  obtain ⟨⟨node', after⟩, hread, hend⟩ := bind_eq_ok.mp h
  cases hend
  obtain ⟨x, hx, hbalanced, hcut⟩ := readsFront_readBare hnested _ _ _ hread
  obtain ⟨before, hbefore, hspaceBefore⟩ := exists_skipBlanks s
  obtain ⟨blanks, hblanks, hspace⟩ := exists_skipBlanks after
  have hstops : Stops isSpace (x ++ after) := hx ▸ stops_skipBlanks
  have hne : x ≠ [] := by
    rintro rfl
    exact readBare_nil (hcut [] after rfl)
  obtain ⟨c, x, rfl⟩ := List.exists_cons_of_ne_nil hne
  refine ⟨before ++ (c :: x ++ blanks), ?_, (balanced_of_isSpace hspaceBefore).append
    (hbalanced.append (balanced_of_isSpace hspace)), fun z more hz => ?_⟩
  · rw [hbefore, hx]
    simp only [List.append_assoc]
    rw [← hblanks]
  · have hskip : skipBlanks (before ++ (c :: x ++ (blanks ++ z))) = c :: x ++ (blanks ++ z) :=
      skipBlanks_run hspaceBefore (by simpa using hstops)
    have hread' := hcut (blanks ++ z) more (by rw [List.append_assoc, ← hz, ← hblanks])
    have hend : skipBlanks (blanks ++ z) = z :=
      skipBlanks_run hspace (Stops.of_append (hz ▸ stops_skipBlanks))
    have htext : before ++ (c :: x ++ blanks) ++ z = before ++ (c :: x ++ (blanks ++ z)) := by simp
    rw [htext, readNode_eq_bind, hskip, hread', ok_bind, hend]

/-! ## Lists -/

section Items

variable {item : List Char → Reading (α × List Char)} {plain : Char → Bool} {sep : Char}
  {items : List α} {a : α}

/-- What follows a separator after the first item is read as the later items. -/
theorem sepBy_separator {more : List Char} (hitem : ReadsFront plain n item)
    (hs : item s = .ok (a, sep :: more)) :
    Text.sepBy item sep s = (Text.sepBy item sep more).map fun p => (a :: p.1, p.2) := by
  obtain ⟨x, rfl, -⟩ := hitem s a _ hs
  have hlength : more.length < (x ++ sep :: more).length := by
    simp only [List.length_append, List.length_cons]
    omega
  exact Text.sepBy_more hs hlength

/-- Either a separator follows the first item and the later items follow that, or it is the only
one. -/
theorem sepBy_front (hitem : ReadsFront plain n item)
    (h : Text.sepBy item sep s = .ok (items, left)) :
    ∃ a rest, item s = .ok (a, rest) ∧
      ((items = [a] ∧ left = rest ∧ rest.head? ≠ some sep) ∨
        ∃ more later, rest = sep :: more ∧ Text.sepBy item sep more = .ok (later, left) ∧
          items = a :: later) := by
  obtain ⟨a, rest, ha, -⟩ := Text.sepBy_cases h
  refine ⟨a, rest, ha, ?_⟩
  by_cases hsep : rest.head? = some sep
  · obtain ⟨more, rfl⟩ : ∃ more, rest = sep :: more := by
      cases rest with
      | nil => cases hsep
      | cons c more => exact ⟨more, by rw [Option.some.inj hsep]⟩
    rw [sepBy_separator hitem ha] at h
    cases hmore : Text.sepBy item sep more with
    | error e =>
      rw [hmore] at h
      cases h
    | ok r =>
      obtain ⟨later, left'⟩ := r
      rw [hmore] at h
      cases h
      exact .inr ⟨more, later, rfl, hmore, rfl⟩
  · rw [Text.sepBy_last ha hsep] at h
    cases h
    exact .inl ⟨rfl, rfl, hsep⟩

theorem ne_nil_of_sepBy (h : Text.sepBy item sep s = .ok (items, left)) : items ≠ [] := by
  rintro rfl
  obtain ⟨_, _, -, ⟨hnil, -⟩ | ⟨_, _, -, -, -, hnil⟩⟩ := Text.sepBy_cases h <;> cases hnil

/-- The items that are read from a text depend only on what is read as its first item. -/
theorem sepBy_congr {t : List Char} (hitem : ReadsFront plain n item) (hst : item s = item t)
    (h : Text.sepBy item sep s = .ok (items, left)) :
    Text.sepBy item sep t = .ok (items, left) := by
  obtain ⟨a, rest, ha, ⟨rfl, rfl, hsep⟩ | ⟨more, later, rfl, hmore, rfl⟩⟩ := sepBy_front hitem h
  · exact Text.sepBy_last (hst ▸ ha) hsep
  · rw [sepBy_separator hitem (hst ▸ ha), hmore]
    rfl

/-- Items with separators between them are read off the front of a text, if each item is. -/
theorem readsFront_sepBy (hsep : isDelimiter sep = false)
    (hitem : ReadsFront (betweenSeparators sep) n item) :
    ReadsFront (fun c => !isDelimiter c) n (Text.sepBy item sep) := by
  intro s items left h
  induction items generalizing s with
  | nil => exact absurd rfl (ne_nil_of_sepBy h)
  | cons y items ih =>
    obtain ⟨a, rest, ha, hcases⟩ := sepBy_front hitem h
    obtain ⟨x, rfl, hx, hcut⟩ := hitem s a rest ha
    rcases hcases with ⟨hitems, rfl, hlast⟩ | ⟨more, later, rfl, hmore, hitems⟩
    · cases hitems
      refine ⟨x, rfl, hx.of_betweenSeparators, fun z more hz => ?_⟩
      have hz' : z.head? ≠ some sep := by
        cases z with
        | nil => simp
        | cons c z => simpa [hz] using hlast
      exact Text.sepBy_last (hcut z more hz) hz'
    · cases hitems
      obtain ⟨y, rfl, hy, hcut'⟩ := ih _ hmore
      refine ⟨x ++ sep :: y, by simp,
        hx.of_betweenSeparators.append (.plain (by simp [hsep]) hy), fun z rest hz => ?_⟩
      have hfirst := hcut (sep :: (y ++ z)) rest (by simp [hz])
      have htext : x ++ sep :: y ++ z = x ++ sep :: (y ++ z) := by simp
      rw [htext, sepBy_separator hitem hfirst, hcut' z rest hz]
      rfl

/-- The text of one item among others: what is read as the item, and for the last one `left`, which
is what no item is read from. -/
def IsPiece (item : List Char → Reading (α × List Char)) (n : Nat) (sep : Char)
    (left piece : List Char) (a : α) : Prop :=
  ∃ x after, piece = x ++ after ∧ Balanced (betweenSeparators sep) n x ∧
    (after = [] ∨ after = left) ∧ item piece = .ok (a, after)

/-- The text from which items are read is made of one piece for each item. -/
theorem exists_pieces (hitem : ReadsFront (betweenSeparators sep) n item)
    (h : Text.sepBy item sep s = .ok (items, left)) :
    ∃ pieces, s = [sep].intercalate pieces ∧
      List.Forall₂ (IsPiece item n sep left) pieces items := by
  induction items generalizing s with
  | nil => exact absurd rfl (ne_nil_of_sepBy h)
  | cons y items ih =>
    obtain ⟨a, rest, ha, hcases⟩ := sepBy_front hitem h
    obtain ⟨x, rfl, hx, hcut⟩ := hitem s a rest ha
    rcases hcases with ⟨hitems, rfl, -⟩ | ⟨more, later, rfl, hmore, hitems⟩
    · cases hitems
      exact ⟨[x ++ left], by simp [List.intercalate],
        .cons ⟨x, left, rfl, hx, .inr rfl, ha⟩ .nil⟩
    · cases hitems
      obtain ⟨pieces, rfl, hpieces⟩ := ih hmore
      have hne : pieces ≠ [] := by
        rintro rfl
        cases hpieces
        exact ne_nil_of_sepBy hmore rfl
      obtain ⟨p, ps, rfl⟩ := List.exists_cons_of_ne_nil hne
      refine ⟨x :: p :: ps, by simp [List.intercalate], .cons ?_ hpieces⟩
      exact ⟨x, [], by simp, hx, .inl rfl, by simpa using hcut [] _ rfl⟩

end Items

theorem readListWith_of_sepBy {nodes : List Node} (hnested : NestedFront n nested)
    (h : Text.sepBy (readNode maxDepth nested) ',' s = .ok (nodes, left)) :
    readListWith maxDepth nested s = .ok (ofNodes nodes, left) := by
  obtain ⟨node, rest, hnode, -⟩ := Text.sepBy_cases h
  obtain ⟨c, t, hs, hc⟩ := readNode_eq_ok_cons hnode
  have hread := sepBy_congr (readsFront_readNode hnested) readNode_skipBlanks.symm h
  rw [readListWith_of_cons hs hc, hread, ok_bind]

/-- A list is empty, or made of the nodes that are read from its text. -/
theorem readListWith_empty_or_nodes {t : Select} (hnested : NestedFront n nested)
    (h : readListWith maxDepth nested s = .ok (t, left)) :
    (t = {} ∧ left = skipBlanks s ∧ (left = [] ∨ ∃ more, left = ')' :: more)) ∨
      ∃ nodes, Text.sepBy (readNode maxDepth nested) ',' s = .ok (nodes, left) ∧
        t = ofNodes nodes := by
  rcases readListWith_cases h with hempty | ⟨nodes, hnodes, ht⟩
  · exact .inl hempty
  · exact .inr ⟨nodes, sepBy_congr (readsFront_readNode hnested) readNode_skipBlanks hnodes, ht⟩

theorem readsFront_readListWith (hnested : NestedFront n nested) :
    ReadsFront (fun c => !isDelimiter c) (n + 1) (readListWith maxDepth nested) := by
  intro s select left h
  obtain ⟨blanks, hs, hspace⟩ := exists_skipBlanks s
  have hbalanced := (balanced_of_isSpace (n := n + 1) hspace).of_betweenSeparators
  rcases readListWith_empty_or_nodes hnested h with ⟨rfl, hleft, hend⟩ | ⟨nodes, hnodes, rfl⟩
  · rw [← hleft] at hs
    refine ⟨blanks, hs, hbalanced, fun z more hz => ?_⟩
    have hz' : skipBlanks (blanks ++ z) = z :=
      skipBlanks_run hspace (Stops.of_append (hz ▸ hleft ▸ stops_skipBlanks))
    have hend' : z = [] ∨ ∃ t, z = ')' :: t := by
      cases z with
      | nil => exact .inl rfl
      | cons c z =>
        rcases hend with rfl | ⟨t, rfl⟩
        · cases hz
        · exact .inr ⟨z, by rw [(List.cons.inj hz).1]⟩
    rw [readListWith_of_end (by rwa [hz']), hz']
  · obtain ⟨x, rfl, hx, hcut⟩ :=
      readsFront_sepBy (by decide) (readsFront_readNode hnested) s nodes left hnodes
    exact ⟨x, rfl, hx, fun z more hz => readListWith_of_sepBy hnested (hcut z more hz)⟩

/-- The lists in the embeds of a list are read off the front of a text. Groups in them nest as deep
as embeds may, and the brackets of a call or a cast are one level more. -/
theorem nestedFront_nestedReader : NestedFront levels (nestedReader maxDepth levels) := by
  induction levels with
  | zero =>
    intro read hread
    cases hread
  | succ levels ih =>
    intro read hread
    cases hread
    rw [readList_eq]
    exact readsFront_readListWith ih

/-! ## Whole lists -/

theorem balanced_of_isBlank (h : ∀ c ∈ x, Text.isBlank c = true) :
    Balanced (betweenSeparators ',') n x :=
  .of_forall fun c hc => betweenSeparators_of_class (by decide) (h c hc)

/-- A text that begins with a node is read as the list of that node. -/
theorem parse_of_readNode (h : readNode maxDepth (nestedReader maxDepth maxDepth) s =
    .ok (node, left)) (hleft : ∀ c ∈ left, Text.isBlank c = true) :
    parse maxDepth s = .ok (ofNodes [node]) := by
  have hlast : left.head? ≠ some ',' := by
    intro hc
    have hblank := hleft ',' (List.mem_of_mem_head? hc)
    cases hblank
  refine parse_eq_ok.mpr ⟨left, ?_, hleft⟩
  rw [readList_eq]
  exact readListWith_of_sepBy nestedFront_nestedReader (Text.sepBy_last h hlast)

/-- A list that is not empty is cut at its commas into as many pieces as it has entries. Each piece
is read alone as a list of its entry, and of the joins of one name the one of the first piece
stays. -/
theorem splitTopLevel_of_parse {t : Select} (hdepth : maxDepth ≤ 62) (h : parse maxDepth s = .ok t)
    (hne : t.entries ≠ []) :
    ∃ pieces parts, Value.splitTopLevel ',' s = .ok pieces ∧
      pieces.length = t.entries.length ∧
      List.Forall₂ (fun piece part => parse maxDepth piece = .ok part) pieces parts ∧
      parts.map (·.entries) = t.entries.map ([·]) ∧
      ∀ n, Keyed.find? t.joins n = parts.findSome? fun part => Keyed.find? part.joins n := by
  obtain ⟨rest, hread, hrest⟩ := parse_eq_ok.mp h
  rw [readList_eq] at hread
  have hnested : NestedFront maxDepth (nestedReader maxDepth maxDepth) := nestedFront_nestedReader
  obtain ⟨rfl, -⟩ | ⟨nodes, hnodes, rfl⟩ := readListWith_empty_or_nodes hnested hread
  · exact absurd rfl hne
  obtain ⟨pieces, rfl, hpieces⟩ := exists_pieces (readsFront_readNode hnested) hnodes
  have hafter {after : List Char} (ha : after = [] ∨ after = rest) :
      ∀ c ∈ after, Text.isBlank c = true := by
    rcases ha with rfl | rfl
    · simp
    · exact hrest
  refine ⟨pieces, nodes.map fun node => ofNodes [node], ?_, ?_, ?_, by simp [ofNodes], fun n => ?_⟩
  · have hbalanced : ∀ piece ∈ pieces, Balanced (betweenSeparators ',') (maxDepth + 1) piece := by
      refine ((List.forall₂_and_left _ _).mp (hpieces.imp fun piece node hpiece => ⟨?_, hpiece⟩)).1
      obtain ⟨x, after, rfl, hx, ha, -⟩ := hpiece
      exact hx.append (balanced_of_isBlank (hafter ha))
    have hpieces_ne : pieces ≠ [] := by
      rintro rfl
      cases hpieces
      exact hne rfl
    have hcomma : isDelimiter ',' = false := by decide
    rcases Value.splitTopLevel_intercalate hcomma hpieces_ne hbalanced with hsplit | ⟨hdeep, -⟩
    · exact hsplit
    · have hmax : Value.maxNesting = 64 := rfl
      omega
  · rw [hpieces.length_eq]
    simp [ofNodes]
  · rw [List.forall₂_map_right_iff]
    refine hpieces.imp fun piece node hpiece => ?_
    obtain ⟨x, after, -, -, ha, hnode⟩ := hpiece
    exact parse_of_readNode hnode (hafter ha)
  · rw [find?_ofNodes, List.findSome?_map]
    congr 1
    funext node
    rw [Function.comp_apply, find?_ofNodes]
    simp

/-- Commas in brackets and between quotes do not cut. Of two joins of one name the first stays. -/
theorem splitTopLevel_of_parse_joins :
    ∃ t, parse 2 "a(x,y(z)),...a:b!inner(\"p,q\"::text[]) , count()".toList = .ok t ∧
      ∃ pieces parts,
        Value.splitTopLevel ',' "a(x,y(z)),...a:b!inner(\"p,q\"::text[]) , count()".toList =
          .ok pieces ∧
        pieces.length = t.entries.length ∧
        List.Forall₂ (fun piece part => parse 2 piece = .ok part) pieces parts ∧
        parts.map (·.entries) = t.entries.map ([·]) ∧
        ∀ n, Keyed.find? t.joins n = parts.findSome? fun part => Keyed.find? part.joins n := by
  have h : ∃ t, parse 2 "a(x,y(z)),...a:b!inner(\"p,q\"::text[]) , count()".toList = .ok t ∧
      t.entries ≠ [] := by
    refine ⟨⟨[.embed "a" false {}
        [.column "x", .embed "y" false {} [.column "z"] []] [("y", { table := "y" })],
      .embed "a" true {} [.field { name := "p,q", column := some "p,q", cast := some "text[]" }] [],
      .field Field.rowCount], [("a", { table := "a" })]⟩, ?_, by simp⟩
    exact parse_eq_of_agrees (by decide +kernel)
  obtain ⟨t, ht, hne⟩ := h
  exact ⟨t, ht, splitTopLevel_of_parse (by decide) ht hne⟩

end RestQuery.Select
