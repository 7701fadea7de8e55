import Mathlib.Data.List.TakeWhile
import RestQuery.Proofs.Select.Embeds

/-!
# What a node can be

The readers of nodes, each said as the cases that it tells apart. The cases are equations where the
next characters decide, so that the same text can be read with other embeds allowed, or with other
text behind it.
-/

namespace RestQuery.Select

open Text (Stops)

variable {maxDepth levels : Nat} {nested : Option ListReader} {read : ListReader}
  {s t left rest inner : List Char} {name : Option String} {source given : String} {join : Join}
  {node : Node}

/-! ## Blanks -/

/-- The blanks that may stand between tokens. -/
def isSpace (c : Char) : Bool := c = ' ' || c = '\t' || c = '\r' || c = '\n'

theorem skipBlanks_run (hs : ∀ c ∈ s, isSpace c = true) (hrest : Stops isSpace rest) :
    skipBlanks (s ++ rest) = rest :=
  Text.dropWhile_run hs hrest

theorem stops_skipBlanks : Stops isSpace (skipBlanks s) := Text.stops_dropWhile

theorem exists_skipBlanks (s : List Char) :
    ∃ blanks, s = blanks ++ skipBlanks s ∧ ∀ c ∈ blanks, isSpace c = true :=
  ⟨s.takeWhile isSpace, List.takeWhile_append_dropWhile.symm,
    List.all_eq_true.mp List.all_takeWhile⟩

theorem skipBlanks_of_stops (h : Stops isSpace s) : skipBlanks s = s := by
  have hrun : skipBlanks ([] ++ s) = s := skipBlanks_run (by simp) h
  exact hrun

@[simp] theorem skipBlanks_skipBlanks : skipBlanks (skipBlanks s) = skipBlanks s :=
  skipBlanks_of_stops stops_skipBlanks

/-! ## Embeds -/

/-- An embed is read exactly if its join, its list and the bracket behind the list are. -/
theorem readEmbed_eq_ok :
    readEmbed maxDepth nested source name s = .ok (node, left) ↔
      ∃ join inner read select after, readJoin source s = .ok (join, '(' :: inner) ∧
        nested = some read ∧ read inner = .ok (select, after) ∧ skipBlanks after = ')' :: left ∧
        node = ⟨.embed (name.getD source) false {} select.entries select.joins,
          some (name.getD source, join)⟩ := by
  unfold readEmbed
  rw [bind_eq_ok]
  constructor
  · rintro ⟨⟨join, opened⟩, hjoin, h⟩
    dsimp only at h
    split at h
    · next inner =>
      cases nested with
      | none => cases h
      | some read =>
        obtain ⟨⟨select, after⟩, hread, hclose⟩ := bind_eq_ok.mp h
        dsimp only at hclose
        split at hclose
        · next hafter =>
          cases hclose
          exact ⟨join, inner, read, select, after, hjoin, rfl, hread, hafter, rfl⟩
        · cases hclose
    · cases h
  · rintro ⟨join, inner, read, select, after, hjoin, rfl, hread, hafter, rfl⟩
    refine ⟨(join, '(' :: inner), hjoin, ?_⟩
    simp only [hread, ok_bind, hafter]

theorem readEmbed_of_readJoin (hjoin : readJoin source s = .ok (join, '(' :: inner)) :
    readEmbed maxDepth (some read) source name s =
      read inner >>= closeEmbed (name.getD source) join := by
  unfold readEmbed
  rw [hjoin, ok_bind]
  rfl

theorem readEmbed_none (hjoin : readJoin source s = .ok (join, '(' :: inner)) :
    readEmbed maxDepth none source name s = stop ('(' :: inner) (.tooDeep maxDepth) := by
  unfold readEmbed
  rw [hjoin, ok_bind]
  rfl

/-! ## Fields -/

theorem exists_field_of_readField {column : String}
    (h : readField column name s = .ok (node, left)) : ∃ f : Field, node = ⟨f.toEntry, none⟩ := by
  unfold readField at h
  obtain ⟨⟨⟨path, asText⟩, s₁⟩, -, h⟩ := bind_eq_ok.mp h
  obtain ⟨⟨first, s₂⟩, -, h⟩ := bind_eq_ok.mp h
  obtain ⟨⟨aggregate, s₃⟩, -, h⟩ := bind_eq_ok.mp h
  cases aggregate with
  | none =>
    cases h
    exact ⟨_, rfl⟩
  | some a =>
    dsimp only at h
    obtain ⟨⟨second, s₄⟩, -, h⟩ := bind_eq_ok.mp h
    cases h
    exact ⟨_, rfl⟩

/-! ## Named nodes -/

/-- A name stands for the count of rows. -/
def IsCount (source : String) (rest : List Char) : Prop :=
  source = "count" ∧ ∃ t, rest = '(' :: ')' :: t

/-- A name is that of a table, for its modifiers or its list follow. -/
def OpensEmbed (rest : List Char) : Prop := ∃ c t, rest = c :: t ∧ (c = '!' ∨ c = '(')

/-- Reads what follows the brackets of the count of rows. -/
def readRowCount (name : Option String) (s : List Char) : Reading (Node × List Char) := do
  let (cast, rest) ← readCast s
  return (⟨.field { Field.rowCount with name := name.getD Field.rowCount.name, cast }, none⟩, rest)

theorem readNamed_of_isCount (hs : readName s = .ok ("count", '(' :: ')' :: t)) :
    readNamed maxDepth nested name s = readRowCount name t := by
  unfold readNamed
  rw [hs, ok_bind]
  rfl

theorem readNamed_of_opensEmbed (hs : readName s = .ok (source, rest)) (hopens : OpensEmbed rest)
    (hcount : ¬ IsCount source rest) :
    readNamed maxDepth nested name s = readEmbed maxDepth nested source name rest := by
  obtain ⟨c, t, rfl, hc⟩ := hopens
  unfold readNamed
  rw [hs, ok_bind]
  dsimp only
  split
  · next u htext => exact absurd ⟨rfl, u, htext⟩ hcount
  · rcases hc with rfl | rfl <;> rfl

theorem readNamed_of_not_opensEmbed (hs : readName s = .ok (source, rest))
    (hopens : ¬ OpensEmbed rest) :
    readNamed maxDepth nested name s = readField source name rest := by
  unfold readNamed
  rw [hs, ok_bind]
  dsimp only
  split
  · next u => exact absurd ⟨'(', _, rfl, .inr rfl⟩ hopens
  · split
    · next u _ => exact absurd ⟨'!', u, rfl, .inl rfl⟩ hopens
    · next u _ => exact absurd ⟨'(', u, rfl, .inr rfl⟩ hopens
    · rfl

/-- All that a node after its name can be: the count of rows, an embed, or a field. -/
theorem readNamed_cases (h : readNamed maxDepth nested name s = .ok (node, left)) :
    ∃ source rest, readName s = .ok (source, rest) ∧
      ((source = "count" ∧ ∃ t, rest = '(' :: ')' :: t ∧
          readRowCount name t = .ok (node, left)) ∨
        (OpensEmbed rest ∧ ¬ IsCount source rest ∧
          readEmbed maxDepth nested source name rest = .ok (node, left)) ∨
        (¬ OpensEmbed rest ∧ readField source name rest = .ok (node, left))) := by
  have h' := h
  unfold readNamed at h'
  obtain ⟨⟨source, rest⟩, hs, -⟩ := bind_eq_ok.mp h'
  refine ⟨source, rest, hs, ?_⟩
  by_cases hcount : IsCount source rest
  · obtain ⟨rfl, t, rfl⟩ := hcount
    exact .inl ⟨rfl, t, rfl, readNamed_of_isCount hs ▸ h⟩
  · by_cases hopens : OpensEmbed rest
    · exact .inr (.inl ⟨hopens, hcount, readNamed_of_opensEmbed hs hopens hcount ▸ h⟩)
    · exact .inr (.inr ⟨hopens, readNamed_of_not_opensEmbed hs hopens ▸ h⟩)

/-! ## Given names -/

theorem readAliased_of_colon (hs : readName s = .ok (given, ':' :: t)) (ht : t.head? ≠ some ':') :
    readAliased maxDepth nested s = readNamed maxDepth nested (some given) (skipBlanks t) := by
  unfold readAliased
  rw [hs, ok_bind]
  dsimp only
  split
  · next u heq =>
    cases heq
    exact absurd rfl ht
  · next u _ heq =>
    cases heq
    rfl
  · next hnone => exact absurd rfl (hnone t)

theorem readAliased_of_no_colon (hs : readName s = .ok (given, rest))
    (hrest : ∀ t, rest = ':' :: t → t.head? = some ':') :
    readAliased maxDepth nested s = readNamed maxDepth nested none s := by
  unfold readAliased
  rw [hs, ok_bind]
  dsimp only
  split
  · rfl
  · next t hdouble =>
    cases t with
    | nil => cases hrest [] rfl
    | cons c t =>
      obtain rfl : c = ':' := by simpa using hrest (c :: t) rfl
      exact absurd rfl (hdouble t)
  · rfl

/-- All that a node can be that is not spread: a node after a name and a colon, or a node without
them. -/
theorem readAliased_cases (h : readAliased maxDepth nested s = .ok (node, left)) :
    ∃ given rest, readName s = .ok (given, rest) ∧
      ((∃ t, rest = ':' :: t ∧ t.head? ≠ some ':' ∧
          readNamed maxDepth nested (some given) (skipBlanks t) = .ok (node, left)) ∨
        ((∀ t, rest = ':' :: t → t.head? = some ':') ∧
          readNamed maxDepth nested none s = .ok (node, left))) := by
  have h' := h
  unfold readAliased at h'
  obtain ⟨⟨given, rest⟩, hs, -⟩ := bind_eq_ok.mp h'
  refine ⟨given, rest, hs, ?_⟩
  by_cases hcolon : ∃ t, rest = ':' :: t ∧ t.head? ≠ some ':'
  · obtain ⟨t, rfl, ht⟩ := hcolon
    exact .inl ⟨t, rfl, ht, readAliased_of_colon hs ht ▸ h⟩
  · have hrest : ∀ t, rest = ':' :: t → t.head? = some ':' := by
      intro t ht
      by_contra hne
      exact hcolon ⟨t, ht, hne⟩
    exact .inr ⟨hrest, readAliased_of_no_colon hs hrest ▸ h⟩

/-! ## Spread nodes -/

/-- What is spread is an embed. -/
theorem readSpread_eq_ok :
    readSpread maxDepth nested s rest = .ok (node, left) ↔
      ∃ name spread clauses entries joins join,
        readAliased maxDepth nested rest =
          .ok (⟨.embed name spread clauses entries joins, join⟩, left) ∧
        node = ⟨.embed name true clauses entries joins, join⟩ := by
  unfold readSpread
  rw [bind_eq_ok]
  constructor
  · rintro ⟨⟨⟨entry, join⟩, after⟩, halias, h⟩
    dsimp only at h
    split at h
    · cases h
      exact ⟨_, _, _, _, _, join, halias, rfl⟩
    · cases h
  · rintro ⟨name, spread, clauses, entries, joins, join, halias, rfl⟩
    exact ⟨_, halias, rfl⟩

/-! ## Nodes -/

/-- Reads a node without the blanks around it. -/
def readBare (maxDepth : Nat) (nested : Option ListReader) (s : List Char) :
    Reading (Node × List Char) :=
  match s with
  | '.' :: '.' :: '.' :: rest => readSpread maxDepth nested s rest
  | '*' :: rest => .ok (⟨.wildcard, none⟩, rest)
  | s => readAliased maxDepth nested s

theorem readBare_of_other (hpoints : ∀ t, s ≠ '.' :: '.' :: '.' :: t) (hstar : ∀ t, s ≠ '*' :: t) :
    readBare maxDepth nested s = readAliased maxDepth nested s := by
  unfold readBare
  split
  · next t => exact absurd rfl (hpoints t)
  · next t => exact absurd rfl (hstar t)
  · rfl

theorem readNode_eq_bind :
    readNode maxDepth nested s =
      readBare maxDepth nested (skipBlanks s) >>= fun r => .ok (r.1, skipBlanks r.2) := by
  unfold readNode
  dsimp only
  generalize skipBlanks s = u
  split
  · rfl
  · rfl
  · next hpoints hstar =>
    rw [readBare_of_other (fun t ht => hpoints t ht) fun t ht => hstar t ht]
    rfl

theorem readAliased_eq_ok_cons (h : readAliased maxDepth nested s = .ok (node, left)) :
    ∃ c t, s = c :: t ∧ c ≠ '.' ∧ c ≠ '*' := by
  obtain ⟨given, rest, hname, -⟩ := readAliased_cases h
  cases s with
  | nil => cases hname
  | cons c t =>
    refine ⟨c, t, rfl, ?_, ?_⟩
    · rintro rfl
      cases hname
    · rintro rfl
      cases hname

theorem readBare_cons {c : Char} (hpoint : c ≠ '.') (hstar : c ≠ '*') :
    readBare maxDepth nested (c :: t) = readAliased maxDepth nested (c :: t) :=
  readBare_of_other (fun _ h => hpoint (List.cons.inj h).1) fun _ h => hstar (List.cons.inj h).1

/-- All that a node can be without the blanks around it: spread, the wildcard, or a node with or
without a name before it. -/
theorem readBare_eq_ok :
    readBare maxDepth nested s = .ok (node, left) ↔
      (∃ t, s = '.' :: '.' :: '.' :: t ∧ readSpread maxDepth nested s t = .ok (node, left)) ∨
        (s = '*' :: left ∧ node = ⟨.wildcard, none⟩) ∨
        readAliased maxDepth nested s = .ok (node, left) := by
  constructor
  · intro h
    unfold readBare at h
    split at h
    · next t => exact .inl ⟨t, rfl, h⟩
    · next t =>
      cases h
      exact .inr (.inl ⟨rfl, rfl⟩)
    · exact .inr (.inr h)
  · rintro (⟨t, rfl, hread⟩ | ⟨rfl, rfl⟩ | hread)
    · exact hread
    · rfl
    · obtain ⟨c, t, rfl, hpoint, hstar⟩ := readAliased_eq_ok_cons hread
      rwa [readBare_cons hpoint hstar]

/-! ## Lists -/

/-- All that a list can be: empty, where the text or the list around it ends, or nodes. -/
theorem readListWith_cases {select : Select}
    (h : readListWith maxDepth nested s = .ok (select, left)) :
    (select = {} ∧ left = skipBlanks s ∧ (left = [] ∨ ∃ t, left = ')' :: t)) ∨
      ∃ nodes, Text.sepBy (readNode maxDepth nested) ',' (skipBlanks s) = .ok (nodes, left) ∧
        select = ofNodes nodes := by
  unfold readListWith at h
  split at h
  · next hs =>
    cases h
    exact .inl ⟨rfl, hs.symm, .inl rfl⟩
  · next t hs =>
    cases h
    exact .inl ⟨rfl, hs.symm, .inr ⟨t, rfl⟩⟩
  · obtain ⟨⟨nodes, after⟩, hnodes, hend⟩ := bind_eq_ok.mp h
    cases hend
    exact .inr ⟨nodes, hnodes, rfl⟩

theorem readListWith_of_end (h : skipBlanks s = [] ∨ ∃ t, skipBlanks s = ')' :: t) :
    readListWith maxDepth nested s = .ok ({}, skipBlanks s) := by
  unfold readListWith
  rcases h with hs | ⟨t, hs⟩
  · rw [hs]
  · rw [hs]
    rfl

theorem readListWith_of_cons {c : Char} (hs : skipBlanks s = c :: t) (hc : c ≠ ')') :
    readListWith maxDepth nested s =
      Text.sepBy (readNode maxDepth nested) ',' (skipBlanks s) >>=
        fun r => .ok (ofNodes r.1, r.2) := by
  unfold readListWith
  split
  · next heq =>
    rw [hs] at heq
    cases heq
  · next heq =>
    rw [hs] at heq
    exact absurd (List.cons.inj heq).1 hc
  · rfl

/-- A node begins with something else than the bracket that closes the list around it. -/
theorem readNode_eq_ok_cons (h : readNode maxDepth nested s = .ok (node, left)) :
    ∃ c t, skipBlanks s = c :: t ∧ c ≠ ')' := by
  rw [readNode_eq_bind] at h
  obtain ⟨⟨node', after⟩, hread, -⟩ := bind_eq_ok.mp h
  rcases readBare_eq_ok.mp hread with ⟨t, hs, -⟩ | ⟨hs, -⟩ | halias
  · exact ⟨'.', _, hs, by decide⟩
  · exact ⟨'*', _, hs, by decide⟩
  · obtain ⟨given, rest, hname, -⟩ := readAliased_cases halias
    cases hs : skipBlanks s with
    | nil =>
      rw [hs] at hname
      cases hname
    | cons c t =>
      refine ⟨c, t, rfl, ?_⟩
      rintro rfl
      rw [hs] at hname
      cases hname

theorem readNode_skipBlanks :
    readNode maxDepth nested (skipBlanks s) = readNode maxDepth nested s := by
  rw [readNode_eq_bind, readNode_eq_bind, skipBlanks_skipBlanks]

/-- The reader of the lists in the embeds of a list that is read with `levels` levels to go. -/
def nestedReader (maxDepth : Nat) : Nat → Option ListReader
  | 0 => none
  | levels + 1 => some (readList maxDepth levels)

theorem readList_eq :
    readList maxDepth levels = readListWith maxDepth (nestedReader maxDepth levels) := by
  cases levels <;> rfl

/-- Nothing but blanks follows a list that is read whole. -/
theorem parse_eq_ok {select : Select} :
    parse maxDepth s = .ok select ↔ ∃ rest, readList maxDepth maxDepth s = .ok (select, rest) ∧
      ∀ c ∈ rest, Text.isBlank c = true := by
  have hblank (rest : List Char) :
      Text.trimStart rest = [] ↔ ∀ c ∈ rest, Text.isBlank c = true := by
    simp [Text.trimStart, List.dropWhile_eq_nil_iff]
  unfold parse
  constructor
  · intro h
    split at h
    · cases h
    · next hread =>
      split at h
      · next hrest =>
        cases h
        exact ⟨_, hread, (hblank _).mp hrest⟩
      · cases h
  · rintro ⟨rest, hread, hrest⟩
    rw [hread]
    dsimp only
    rw [(hblank rest).mpr hrest]

end RestQuery.Select
