import RestQuery.Proofs.Select.Agreement
import RestQuery.Proofs.Select.Embeds

/-!
# Select lists read back

A list that `parse` gives is read back from what `render` writes of it, unless at some level it has
an embed that is written as the count of rows is, or a field with a key that is cut short. A list
that has one of these is never read back as it was, so the boundary is exact.

Both directions go by induction on how deep embeds may nest, with the entries of one level in
between: what is left after an entry is known once the entry is read back.
-/

namespace RestQuery

namespace SelectEntry

mutual

/-- Whether `p` holds of an entry or of one nested in it, each with the joins of its level. -/
def holdsWithin (p : Joins → SelectEntry → Bool) (joins : Joins) : SelectEntry → Bool
  | .embed name spread clauses entries nested =>
    p joins (.embed name spread clauses entries nested) || holdsAmong p nested entries
  | e => p joins e

/-- Whether `p` holds of one of some entries or of one nested in them. -/
def holdsAmong (p : Joins → SelectEntry → Bool) (joins : Joins) : List SelectEntry → Bool
  | [] => false
  | e :: rest => e.holdsWithin p joins || holdsAmong p joins rest

end

end SelectEntry

namespace Select

open Text (Stops Begins)

/-! ## What is lost -/

/-- Whether an embed is written as the count of rows is: it has no entries, and its join is that of
a table called `count` without a join type or a hint. -/
def isWrittenAsCount (joins : Joins) : SelectEntry → Bool
  | .embed name _ _ entries _ =>
    entries.isEmpty && Keyed.find? joins name = some { table := "count" }
  | _ => false

/-- Whether a key in the path of an entry is cut short. -/
def hasCutKey : SelectEntry → Bool
  | .field f => f.path.any isCutShort
  | _ => false

/-- Whether an entry is not read back as it was. -/
def isLossy (joins : Joins) (e : SelectEntry) : Bool := isWrittenAsCount joins e || hasCutKey e

variable {rest s left : List Char} {maxDepth levels : Nat} {nested : Option ListReader}
  {read : ListReader} {joins : Joins} {e : SelectEntry} {entries : List SelectEntry} {node : Node}

/-! ## Entries as they begin -/

theorem renderField_eq_renderName (f : Field) : ∃ n s, renderField f = renderName n ++ s := by
  by_cases hn : f.name = f.defaultName
  · cases hc : f.column with
    | none =>
      exact ⟨"count", "()".toList ++ renderCast f.cast,
        by simp [renderField, hn, hc, renderName_count]⟩
    | some column => exact ⟨column, renderTail f, by simp [renderField_column hc, hn]⟩
  · refine ⟨f.name, ?_⟩
    unfold renderField
    rw [if_neg hn]
    exact ⟨_, by simp only [List.append_assoc]; rfl⟩

theorem renderHead_eq_renderName (name : String) (join : Join) :
    ∃ n s, renderHead name false join = renderName n ++ s := by
  by_cases hn : name = join.table
  · exact ⟨join.table, renderModifiers join, by simp [renderHead_eq, hn]⟩
  · exact ⟨name, ':' :: (renderName join.table ++ renderModifiers join),
      by simp [renderHead_eq, hn]⟩

/-- What is written of an entry is not empty, and neither a blank nor a bracket stands in front. -/
theorem renderEntry_eq_cons (joins : Joins) (e : SelectEntry) :
    ∃ c s, renderEntry joins e = c :: s ∧ BeginsEntry c := by
  have hname (n : String) (s : List Char) :
      ∃ c t, renderName n ++ s = c :: t ∧ BeginsEntry c := by
    obtain ⟨c, cs, hcs, hc⟩ := renderName_eq_cons n
    exact ⟨c, cs ++ s, by rw [hcs, List.cons_append], .inr (.inr hc)⟩
  cases e with
  | wildcard => exact ⟨'*', [], rfl, .inl rfl⟩
  | column name => simpa [renderEntry] using hname name []
  | field f =>
    obtain ⟨n, s, hs⟩ := renderField_eq_renderName f
    simpa [renderEntry, hs] using hname n s
  | embed name spread clauses entries nested =>
    cases spread with
    | true =>
      have htext := renderHead_eq name true ((Keyed.find? joins name).getD { table := name })
      exact ⟨'.', _, by rw [renderEntry, htext]; rfl, .inr (.inl rfl)⟩
    | false =>
      obtain ⟨n, s, hs⟩ := renderHead_eq_renderName name
        ((Keyed.find? joins name).getD { table := name })
      rw [renderEntry, hs, List.append_assoc, List.append_assoc]
      exact hname n _

theorem skipBlanks_of_begins (hr : Begins [',', ')'] rest) : skipBlanks rest = rest := by
  cases rest with
  | nil => rfl
  | cons c rest =>
    have hc : c = ',' ∨ c = ')' := by simpa using hr
    rcases hc with rfl | rfl <;> rfl

/-! ## Nodes -/

/-- The node that an entry of a list with the joins `joins` is read as. -/
def nodeOf (joins : Joins) (e : SelectEntry) : Node where
  entry := e
  join :=
    match e with
    | .embed name _ _ _ _ => (Keyed.find? joins name).map (name, ·)
    | _ => none

/-- An entry that begins with a name is read as what follows the blanks. -/
theorem readNode_renderName (n : String) :
    readNode maxDepth nested (renderName n ++ s) =
      readAliased maxDepth nested (renderName n ++ s) >>= fun r => .ok (r.1, skipBlanks r.2) := by
  obtain ⟨c, cs, hcs, hc⟩ := renderName_eq_cons n
  unfold readNode
  rw [skipBlanks_renderName]
  dsimp only
  split
  · next heq =>
    rw [hcs, List.cons_append] at heq
    obtain ⟨rfl, -⟩ := List.cons.inj heq
    exact absurd hc (by decide)
  · next heq =>
    rw [hcs, List.cons_append] at heq
    obtain ⟨rfl, -⟩ := List.cons.inj heq
    exact absurd hc (by decide)
  · rfl

/-- An entry that begins with three points is read as one that is spread. -/
theorem readNode_spread :
    readNode maxDepth nested ("...".toList ++ s) =
      readSpread maxDepth nested ("...".toList ++ s) s >>= fun r => .ok (r.1, skipBlanks r.2) :=
  rfl

/-- What becomes of an embed that is read when it is spread. -/
theorem readSpread_embed {node' : Node} {name : String} {clauses : Clauses}
    {entries : List SelectEntry} {nestedJoins : Joins}
    (h : readAliased maxDepth nested s = .ok (node', left))
    (he : node'.entry = .embed name false clauses entries nestedJoins) :
    readSpread maxDepth nested rest s =
      .ok ({ node' with entry := .embed name true clauses entries nestedJoins }, left) := by
  unfold readSpread
  rw [h, ok_bind]
  simp only [he]
  rfl

/-! ## Embeds -/

/-- The reader `read` gives a list back from its text, exactly if the list loses nothing. -/
structure ReadsBack (read : ListReader) (joins : Joins) (entries : List SelectEntry) : Prop where
  /-- A list that loses nothing is read back. -/
  of_faithful : SelectEntry.holdsAmong isLossy joins entries = false → ∀ rest, Begins [')'] rest →
    read (renderEntries joins entries ++ rest) = .ok (⟨entries, joins⟩, rest)
  /-- A list that is read back loses nothing. -/
  faithful : ∀ rest t left, Begins [')'] rest →
    read (renderEntries joins entries ++ rest) = .ok (t, left) → t.entries = entries →
      SelectEntry.holdsAmong isLossy joins entries = false

variable {name : String} {join : Join} {nestedJoins : Joins} {clauses : Clauses} {spread : Bool}

/-- The text of an embed is that of the embed that is not spread, after three points if it is. -/
theorem renderEntry_embed (hj : Keyed.find? joins name = some join) :
    renderEntry joins (.embed name spread clauses entries nestedJoins) ++ rest =
      (if spread then "...".toList else []) ++
        (renderHead name false join ++
          '(' :: (renderEntries nestedJoins entries ++ ')' :: rest)) := by
  simp [renderEntry, hj, renderHead_eq]

/-- An embed that has entries goes on after its bracket with something else than a bracket. -/
theorem head?_renderEntries (hne : entries ≠ []) :
    (renderEntries joins entries ++ s).head? ≠ some ')' := by
  obtain ⟨e, more, rfl⟩ := List.exists_cons_of_ne_nil hne
  obtain ⟨c, t, ht, hc⟩ := renderEntry_eq_cons joins e
  cases more <;> simpa [renderEntries, ht] using hc.ne_bracket

/-- An embed that is not written as the count of rows is read by reading its list. -/
theorem readAliased_embed (hn : name ≠ "") (hw : join.WellFormed)
    (hcount : join = { table := "count" } → entries ≠ []) :
    readAliased maxDepth (some read)
        (renderHead name false join ++ '(' :: (renderEntries nestedJoins entries ++ ')' :: rest)) =
      read (renderEntries nestedJoins entries ++ ')' :: rest) >>= closeEmbed name join :=
  readAliased_renderHead hn hw fun h => head?_renderEntries (hcount h)

/-- What the text of an embed needs to be read back. -/
structure Embedded (nested : Option ListReader) (read : ListReader) (join : Join) (name : String)
    (nestedJoins : Joins) (entries : List SelectEntry) : Prop where
  /-- The embed has a name. -/
  name_ne : name ≠ ""
  /-- Its join is as it is read. -/
  join : join.WellFormed
  /-- There is a reader for its list. -/
  nested : nested = some read
  /-- The reader gives its list back. -/
  list : ReadsBack read nestedJoins entries

/-- An embed loses nothing if it is not written as the count of rows and its list loses nothing. -/
theorem holdsWithin_embed (hj : Keyed.find? joins name = some join) :
    (SelectEntry.embed name spread clauses entries nestedJoins).holdsWithin isLossy joins = false ↔
      (join = { table := "count" } → entries ≠ []) ∧
        SelectEntry.holdsAmong isLossy nestedJoins entries = false := by
  have hcount : (entries = [] → join ≠ { table := "count" }) ↔
      (join = { table := "count" } → entries ≠ []) :=
    ⟨fun h hjoin he => h he hjoin, fun h he hjoin => h hjoin he⟩
  simp [SelectEntry.holdsWithin, isLossy, isWrittenAsCount, hasCutKey, hj, hcount]

theorem readNode_embed (h : Embedded nested read join name nestedJoins entries)
    (hj : Keyed.find? joins name = some join) (hr : Begins [',', ')'] rest)
    (hkept : (SelectEntry.embed name spread {} entries nestedJoins).holdsWithin isLossy joins =
      false) :
    readNode maxDepth nested
        (renderEntry joins (.embed name spread {} entries nestedJoins) ++ rest) =
      .ok (nodeOf joins (.embed name spread {} entries nestedJoins), rest) := by
  obtain ⟨hcount, hlist⟩ := (holdsWithin_embed hj).mp hkept
  have halias : readAliased maxDepth nested
      (renderHead name false join ++ '(' :: (renderEntries nestedJoins entries ++ ')' :: rest)) =
        .ok (⟨.embed name false {} entries nestedJoins, some (name, join)⟩, rest) := by
    rw [h.nested, readAliased_embed h.name_ne h.join hcount,
      h.list.of_faithful hlist _ (by simp), ok_bind]
    rfl
  rw [renderEntry_embed hj]
  cases spread with
  | true =>
    rw [if_pos rfl, readNode_spread, readSpread_embed halias rfl, ok_bind,
      skipBlanks_of_begins hr]
    simp [nodeOf, hj]
  | false =>
    obtain ⟨n, s, hs⟩ := renderHead_eq_renderName name join
    rw [hs, List.append_assoc] at halias
    rw [if_neg (by simp), List.nil_append, hs, List.append_assoc, readNode_renderName, halias,
      ok_bind, skipBlanks_of_begins hr]
    simp [nodeOf, hj]

/-- The embed that is read where the text of an embed stands, before it is spread. -/
theorem readAliased_of_readNode (hj : Keyed.find? joins name = some join)
    (hread : readNode maxDepth nested
      (renderEntry joins (.embed name spread clauses entries nestedJoins) ++ rest) =
        .ok (node, left))
    (he : node.entry = .embed name spread clauses entries nestedJoins) :
    ∃ node' left' spread', node'.entry = .embed name spread' clauses entries nestedJoins ∧
      readAliased maxDepth nested
        (renderHead name false join ++ '(' :: (renderEntries nestedJoins entries ++ ')' :: rest)) =
          .ok (node', left') := by
  rw [renderEntry_embed hj] at hread
  cases spread with
  | true =>
    rw [if_pos rfl, readNode_spread] at hread
    obtain ⟨⟨node₁, left₁⟩, hspread, hnode⟩ := bind_eq_ok.mp hread
    cases hnode
    unfold readSpread at hspread
    obtain ⟨⟨node', left'⟩, halias, hspread⟩ := bind_eq_ok.mp hspread
    dsimp only at hspread
    split at hspread
    · next hentry =>
      cases hspread
      cases he
      exact ⟨node', _, _, hentry, halias⟩
    · cases hspread
  | false =>
    obtain ⟨n, s, hs⟩ := renderHead_eq_renderName name join
    rw [if_neg (by simp), List.nil_append, hs, List.append_assoc, readNode_renderName] at hread
    obtain ⟨⟨node', left'⟩, halias, hnode⟩ := bind_eq_ok.mp hread
    cases hnode
    rw [hs, List.append_assoc]
    exact ⟨node', left', _, he, halias⟩

theorem holdsWithin_of_readNode_embed (h : Embedded nested read join name nestedJoins entries)
    (hj : Keyed.find? joins name = some join)
    (hread : readNode maxDepth nested
      (renderEntry joins (.embed name spread clauses entries nestedJoins) ++ rest) =
        .ok (node, left))
    (he : node.entry = .embed name spread clauses entries nestedJoins) :
    (SelectEntry.embed name spread clauses entries nestedJoins).holdsWithin isLossy joins =
      false := by
  obtain ⟨node', left', spread', he', halias⟩ := readAliased_of_readNode hj hread he
  -- Written as the count of rows it would have been read as a field.
  have hcount : join = { table := "count" } → entries ≠ [] := by
    rintro rfl rfl
    obtain ⟨f, hf⟩ := readAliased_renderHead_count h.name_ne halias
    rw [hf] at he'
    cases he'
  rw [h.nested, readAliased_embed h.name_ne h.join hcount] at halias
  obtain ⟨⟨t, left''⟩, hlist, hclose⟩ := bind_eq_ok.mp halias
  have hentries : t.entries = entries := by
    unfold closeEmbed at hclose
    split at hclose
    · cases hclose
      cases he'
      rfl
    · cases hclose
  exact (holdsWithin_embed hj).mpr ⟨hcount, h.list.faithful _ t left'' (by simp) hlist hentries⟩

/-! ## Entries -/

/-- What the text of an entry needs to be read back. -/
structure Readable (nested : Option ListReader) (joins : Joins) (e : SelectEntry) : Prop where
  /-- The entry is as it is read. -/
  wellFormed : e.WellFormed
  /-- An embed has a join and a reader that gives its list back. -/
  embedded : ∀ name spread clauses entries nestedJoins,
    e = .embed name spread clauses entries nestedJoins →
      ∃ read join, Keyed.find? joins name = some join ∧
        Embedded nested read join name nestedJoins entries

theorem readNode_renderField (f : Field) :
    readNode maxDepth nested (renderField f ++ rest) =
      readAliased maxDepth nested (renderField f ++ rest) >>=
        fun r => .ok (r.1, skipBlanks r.2) := by
  obtain ⟨n, s, hs⟩ := renderField_eq_renderName f
  rw [hs, List.append_assoc, readNode_renderName]

/-- An entry that loses nothing is read back. -/
theorem readNode_renderEntry (h : Readable nested joins e) (hr : Begins [',', ')'] rest)
    (hkept : e.holdsWithin isLossy joins = false) :
    readNode maxDepth nested (renderEntry joins e ++ rest) = .ok (nodeOf joins e, rest) := by
  cases e with
  | wildcard =>
    show Except.ok (_, skipBlanks rest) = _
    rw [skipBlanks_of_begins hr]
    rfl
  | column name =>
    have hne : name ≠ "" := h.wellFormed
    have hf : Field.WellFormed { name, column := some name } :=
      ⟨hne, by simpa using hne, by simp, by simp, by simp, by simp, by simp,
        by simp⟩
    have htext : renderEntry joins (.column name) =
        renderField { name, column := some name } := by
      simp [renderEntry, renderField, Field.defaultName, renderPath, renderCast]
    rw [htext, readNode_renderField, readAliased_renderField hf (by simp) hr, ok_bind,
      skipBlanks_of_begins hr]
    simp [Field.toEntry, nodeOf]
  | field f =>
    obtain ⟨hf, hentry⟩ := h.wellFormed
    have hcut : ∀ k ∈ f.path, isCutShort k = false := by
      simpa [SelectEntry.holdsWithin, isLossy, isWrittenAsCount, hasCutKey] using hkept
    rw [renderEntry, readNode_renderField, readAliased_renderField hf hcut hr, ok_bind,
      skipBlanks_of_begins hr, hentry]
    rfl
  | embed name spread clauses entries nestedJoins =>
    obtain ⟨read, join, hj, hembedded⟩ := h.embedded _ _ _ _ _ rfl
    obtain ⟨-, rfl, -⟩ := h.wellFormed
    exact readNode_embed hembedded hj hr hkept

/-- An entry that is read back loses nothing. -/
theorem holdsWithin_of_readNode (h : Readable nested joins e) (hr : Begins [',', ')'] rest)
    (hread : readNode maxDepth nested (renderEntry joins e ++ rest) = .ok (node, left))
    (he : node.entry = e) : e.holdsWithin isLossy joins = false := by
  cases e with
  | wildcard => rfl
  | column name => rfl
  | field f =>
    rw [renderEntry, readNode_renderField] at hread
    obtain ⟨⟨node', left'⟩, halias, hnode⟩ := bind_eq_ok.mp hread
    cases hnode
    have hcut := isCutShort_of_readAliased h.wellFormed.1 hr halias he
    simpa [SelectEntry.holdsWithin, isLossy, isWrittenAsCount, hasCutKey] using hcut
  | embed name spread clauses entries nestedJoins =>
    obtain ⟨read, join, hj, hembedded⟩ := h.embedded _ _ _ _ _ rfl
    exact holdsWithin_of_readNode_embed hembedded hj hread he

/-! ## Lists -/

theorem declared?_nodeOf (joins : Joins) (e : SelectEntry) (n : String) :
    (nodeOf joins e).declared? n = Keyed.find? joins n ∨
      ((nodeOf joins e).declared? n = none ∧ ¬ e.Embeds n) := by
  cases e with
  | embed name spread clauses entries nestedJoins =>
    by_cases hn : name = n
    · subst hn
      left
      cases h : Keyed.find? joins name <;> simp [nodeOf, Node.declared?, h, Option.filter]
    · right
      cases h : Keyed.find? joins name <;>
        simp [nodeOf, Node.declared?, h, Option.filter, hn, SelectEntry.Embeds]
  | _ => exact .inr ⟨rfl, by simp [SelectEntry.Embeds]⟩

/-- The nodes of a list make the list. -/
theorem ofNodes_nodeOf (h : Joins.Declare joins entries) :
    ofNodes (entries.map (nodeOf joins)) = ⟨entries, joins⟩ := by
  have hfind (n : String) :
      Keyed.find? (ofNodes (entries.map (nodeOf joins))).joins n = Keyed.find? joins n := by
    rw [find?_ofNodes]
    cases hfirst : (entries.map (nodeOf joins)).findSome? (Node.declared? n) with
    | some j =>
      obtain ⟨node, hnode, hj⟩ := List.exists_of_findSome?_eq_some hfirst
      obtain ⟨e, -, rfl⟩ := List.mem_map.mp hnode
      rcases declared?_nodeOf joins e n with hd | ⟨hd, -⟩
      · rw [← hd, hj]
      · rw [hd] at hj
        cases hj
    | none =>
      cases hjoin : Keyed.find? joins n with
      | none => rfl
      | some j =>
        obtain ⟨e, he, hembeds⟩ := (h.names n).mp (by simp [hjoin])
        have hnone := List.findSome?_eq_none_iff.mp hfirst _ (List.mem_map_of_mem he)
        rcases declared?_nodeOf joins e n with hd | ⟨-, hnot⟩
        · rw [← hjoin, ← hd, hnone]
        · exact absurd hembeds hnot
  -- Both ascend, so it is enough that the same is found in them.
  have hjoins : (ofNodes (entries.map (nodeOf joins))).joins = joins :=
    Keyed.ext_find? (ascending_foldl_declare Keyed.ascending_nil _) h.ascending hfind
  have hentries : (ofNodes (entries.map (nodeOf joins))).entries = entries := by
    simp [ofNodes, nodeOf, Function.comp_def]
  rw [show ofNodes (entries.map (nodeOf joins)) =
    ⟨(ofNodes (entries.map (nodeOf joins))).entries,
      (ofNodes (entries.map (nodeOf joins))).joins⟩ from rfl, hjoins, hentries]

/-- What follows an entry in the text of a list is what follows the list or a comma. -/
theorem renderEntries_cons (joins : Joins) (e : SelectEntry) (entries : List SelectEntry)
    (hr : Begins [')'] rest) :
    ∃ s, renderEntries joins (e :: entries) ++ rest = renderEntry joins e ++ s ∧
      Begins [',', ')'] s ∧
      ((entries = [] ∧ s = rest) ∨
        (entries ≠ [] ∧ s = ',' :: (renderEntries joins entries ++ rest))) := by
  cases entries with
  | nil => exact ⟨rest, by simp [renderEntries], hr.mono (by simp), .inl ⟨rfl, rfl⟩⟩
  | cons e' entries =>
    exact ⟨',' :: (renderEntries joins (e' :: entries) ++ rest), by simp [renderEntries], by simp,
      .inr ⟨by simp, rfl⟩⟩

/-- Entries that lose nothing are read back. -/
theorem sepBy_renderEntries (hr : Begins [')'] rest) (hne : entries ≠ [])
    (h : ∀ e ∈ entries, Readable nested joins e)
    (hkept : SelectEntry.holdsAmong isLossy joins entries = false) :
    Text.sepBy (readNode maxDepth nested) ',' (renderEntries joins entries ++ rest) =
      .ok (entries.map (nodeOf joins), rest) := by
  induction entries with
  | nil => exact absurd rfl hne
  | cons e entries ih =>
    obtain ⟨hfirst, hlater⟩ : e.holdsWithin isLossy joins = false ∧
        SelectEntry.holdsAmong isLossy joins entries = false := by
      simpa [SelectEntry.holdsAmong] using hkept
    obtain ⟨s, htext, hs, hcase⟩ := renderEntries_cons joins e entries hr
    have hread : readNode maxDepth nested (renderEntry joins e ++ s) = .ok (nodeOf joins e, s) :=
      readNode_renderEntry (h e (by simp)) hs hfirst
    rw [htext]
    rcases hcase with ⟨rfl, rfl⟩ | ⟨hmore, rfl⟩
    · have hhead : s.head? ≠ some ',' := by
        intro hc
        exact absurd (hr ',' hc) (by decide)
      rw [Text.sepBy_last hread hhead]
      rfl
    · have hlt : (renderEntries joins entries ++ rest).length <
          (renderEntry joins e ++ ',' :: (renderEntries joins entries ++ rest)).length := by
        simp only [List.length_append, List.length_cons]
        omega
      have hrest := ih hmore (fun e' he' => h e' (List.mem_cons_of_mem _ he')) hlater
      rw [Text.sepBy_more hread hlt, hrest]
      rfl

/-- Entries that are read back lose nothing. -/
theorem holdsAmong_of_sepBy {nodes : List Node} (hr : Begins [')'] rest)
    (h : ∀ e ∈ entries, Readable nested joins e)
    (hread : Text.sepBy (readNode maxDepth nested) ',' (renderEntries joins entries ++ rest) =
      .ok (nodes, left))
    (hentries : nodes.map (·.entry) = entries) :
    SelectEntry.holdsAmong isLossy joins entries = false := by
  induction entries generalizing nodes with
  | nil => rfl
  | cons e entries ih =>
    obtain ⟨s, htext, hs, hcase⟩ := renderEntries_cons joins e entries hr
    rw [htext] at hread
    obtain ⟨node, after, hnode, hnodes⟩ := Text.sepBy_cases hread
    have he : node.entry = e := by
      rcases hnodes with ⟨rfl, -⟩ | ⟨more, later, -, -, -, rfl⟩ <;>
        exact (List.cons.inj hentries).1
    have hfirst := holdsWithin_of_readNode (h e (by simp)) hs hnode he
    -- Since the entry was read back, what is left after it is what was written after it.
    have hafter : after = s := by
      rw [readNode_renderEntry (h e (by simp)) hs hfirst] at hnode
      cases hnode
      rfl
    have hlater : SelectEntry.holdsAmong isLossy joins entries = false := by
      rcases hcase with ⟨rfl, -⟩ | ⟨hne, hcomma⟩
      · rfl
      · rcases hnodes with ⟨rfl, -⟩ | ⟨more, later, hmore, -, hlater, rfl⟩
        · exact absurd (List.cons.inj hentries).2.symm hne
        · have htext' : more = renderEntries joins entries ++ rest :=
            (List.cons.inj (hmore.symm.trans (hafter.trans hcomma))).2
          rw [htext'] at hlater
          exact ih (fun e' he' => h e' (List.mem_cons_of_mem _ he')) hlater
            (List.cons.inj hentries).2
    simp [SelectEntry.holdsAmong, hfirst, hlater]

theorem readListWith_renderEntries (hne : entries ≠ []) :
    readListWith maxDepth nested (renderEntries joins entries ++ rest) =
      Text.sepBy (readNode maxDepth nested) ',' (renderEntries joins entries ++ rest) >>=
        fun r => .ok (ofNodes r.1, r.2) := by
  obtain ⟨e, more, rfl⟩ := List.exists_cons_of_ne_nil hne
  obtain ⟨c, t, ht, hc⟩ := renderEntry_eq_cons joins e
  obtain ⟨u, hu⟩ : ∃ u, renderEntries joins (e :: more) ++ rest = c :: u := by
    cases more <;> simp [renderEntries, ht]
  rw [hu]
  unfold readListWith
  rw [skipBlanks_of_beginsEntry hc]
  split
  · next heq => cases heq
  · next heq => exact absurd (List.cons.inj heq).1 hc.ne_bracket
  · rfl

/-- A list is read back where its entries are. -/
theorem readsBack_readListWith (hd : Joins.Declare joins entries)
    (h : ∀ e ∈ entries, Readable nested joins e) :
    ReadsBack (readListWith maxDepth nested) joins entries := by
  have hlist := ofNodes_nodeOf hd
  by_cases hne : entries = []
  · subst hne
    refine ⟨fun _ rest hr => ?_, fun _ _ _ _ _ _ => rfl⟩
    rw [← hlist]
    cases rest with
    | nil => rfl
    | cons c rest =>
      obtain rfl : c = ')' := by simpa using hr
      rfl
  · refine ⟨fun hkept rest hr => ?_, fun rest t left hr hread ht => ?_⟩
    · rw [readListWith_renderEntries hne, sepBy_renderEntries hr hne h hkept, ok_bind, hlist]
    · rw [readListWith_renderEntries hne] at hread
      obtain ⟨⟨nodes, left'⟩, hnodes, hread⟩ := bind_eq_ok.mp hread
      cases hread
      exact holdsAmong_of_sepBy hr h hnodes ht

/-- An entry of a list that is as it is read can be read back, if the lists in it can. -/
theorem readable_of_mem (hd : Joins.Declare joins entries) (he : e ∈ entries) (hw : e.WellFormed)
    (hnested : ∀ name spread clauses entries nestedJoins,
      e = .embed name spread clauses entries nestedJoins →
        ∃ read, nested = some read ∧ ReadsBack read nestedJoins entries) :
    Readable nested joins e := by
  refine ⟨hw, ?_⟩
  rintro name spread clauses nestedEntries nestedJoins rfl
  obtain ⟨read, hread, hback⟩ := hnested _ _ _ _ _ rfl
  obtain ⟨join, hj⟩ := Option.isSome_iff_exists.mp
    ((hd.names name).mpr ⟨_, he, ⟨_, _, _, _, rfl⟩⟩)
  exact ⟨read, join, hj, hw.1, hd.wellFormed name join hj, hread, hback⟩

/-- A list that is as it is read is read back, if its embeds nest no deeper than allowed. -/
theorem readsBack_readList (hd : Joins.Declare joins entries)
    (hw : SelectEntry.WellFormedAll entries) (hdepth : SelectEntry.depthAll entries ≤ levels) :
    ReadsBack (readList maxDepth levels) joins entries := by
  rw [SelectEntry.wellFormedAll_iff] at hw
  rw [SelectEntry.depthAll_le_iff] at hdepth
  -- The lists in the embeds of a list are read with one level less.
  induction levels generalizing joins entries with
  | zero =>
    refine readsBack_readListWith hd fun e he => readable_of_mem hd he (hw e he) ?_
    rintro name spread clauses nestedEntries nestedJoins rfl
    exact absurd (hdepth _ he) (Nat.not_succ_le_zero _)
  | succ levels ih =>
    refine readsBack_readListWith hd fun e he => readable_of_mem hd he (hw e he) ?_
    rintro name spread clauses nestedEntries nestedJoins rfl
    obtain ⟨-, -, hdeclare, hall⟩ := hw _ he
    have hlevels := Nat.le_of_succ_le_succ (hdepth _ he)
    exact ⟨_, rfl, ih hdeclare (SelectEntry.wellFormedAll_iff.mp hall)
      (SelectEntry.depthAll_le_iff.mp hlevels)⟩

/-! ## Whole lists -/

/-- A list that is read from a text is read back from what is written of it, exactly if at no level
an embed is written as the count of rows is or a key is cut short. -/
theorem parse_render_iff {t : Select} (h : parse maxDepth s = .ok t) :
    parse maxDepth (render t) = .ok t ↔
      SelectEntry.holdsAmong isLossy t.joins t.entries = false := by
  have hwithin := parse_within h
  have hback : ReadsBack (readList maxDepth maxDepth) t.joins t.entries :=
    readsBack_readList hwithin.wellFormed.declare hwithin.wellFormed.entries hwithin.depth
  constructor
  · intro hread
    unfold parse at hread
    split at hread
    · cases hread
    · next t' rest hlist =>
      split at hread
      · cases hread
        -- `ReadsBack` speaks of a text with something after it, here nothing.
        rw [render, ← List.append_nil (renderEntries _ _)] at hlist
        exact hback.faithful [] t rest (by simp) hlist rfl
      · cases hread
  · intro hkept
    have hlist := hback.of_faithful hkept [] (by simp)
    unfold parse render
    rw [← List.append_nil (renderEntries _ _), hlist]
    rfl

/-- An embed that is given a name and spread is read back. -/
theorem parse_render_spread :
    ∃ t, parse 2 "...a:b( id )".toList = .ok t ∧ parse 2 (render t) = .ok t := by
  have h : parse 2 "...a:b( id )".toList =
      .ok ⟨[.embed "a" true {} [.column "id"] []], [("a", { table := "b" })]⟩ :=
    parse_eq_of_agrees (by decide +kernel)
  exact ⟨_, h, (parse_render_iff h).mpr (by decide)⟩

end Select

end RestQuery
