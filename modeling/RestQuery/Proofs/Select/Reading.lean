import RestQuery.Proofs.Outcome
import RestQuery.Proofs.Select.WellFormed

/-!
# What is read is well-formed

Every reader of `RestQuery.Select.Parser` keeps the promise of `RestQuery.Proofs.Select.WellFormed`,
and embeds nest no deeper than allowed. The lemmas follow the grammar from the tokens up; the only
induction on the nesting is that of `readList`.
-/

namespace RestQuery.Select

variable {s left : List Char}

/-! ## Tokens -/

theorem readName_ne {name : String} (h : readName s = .ok (name, left)) : name ≠ "" := by
  unfold readName at h
  split at h
  · split at h
    · cases h
    · cases h
    · next name' rest hname _ =>
      cases h
      intro he
      cases name' with
      | nil => exact hname rfl
      | cons c cs => simp at he
  · dsimp only at h
    split at h
    · cases h
    · next hne =>
      cases h
      simpa using hne

theorem readCast_isType {cast : Option String} (h : readCast s = .ok (cast, left)) :
    ∀ t ∈ cast, IsType t.toList := by
  unfold readCast at h
  split at h
  · next rest =>
    dsimp only at h
    split at h
    · cases h
    · next hne =>
      have hword : rest.takeWhile isTypeChar ≠ [] := by simpa using hne
      have hall := List.all_eq_true.mp (List.all_takeWhile (p := isTypeChar) (l := rest))
      split at h
      · cases h
        simpa [IsType] using ⟨_, hword, hall, .inr rfl⟩
      · cases h
        simpa [IsType] using ⟨_, hword, hall, .inl rfl⟩
  · cases h
    simp

theorem readKey_fits {k : PathKey} (h : readKey s = .ok (k, left)) : KeyFits k := by
  unfold readKey at h
  split at h
  · next n rest hindex =>
    cases h
    unfold readIndex? at hindex
    dsimp only at hindex
    split at hindex
    · split at hindex
      · next hfits =>
        cases hindex
        exact hfits
      · cases hindex
    · cases hindex
  · split at h
    · next hname =>
      cases h
      exact readName_ne hname
    · cases h

/-- The keys of a path can be written, and only a path that has keys can end in text. -/
theorem readPathWithin_fits {fuel : Nat} {path : List PathKey} {asText : Bool}
    (h : readPathWithin fuel s = .ok ((path, asText), left)) :
    (∀ k ∈ path, KeyFits k) ∧ (asText = true → path ≠ []) := by
  induction fuel generalizing s path asText with
  | zero =>
    cases h
    simp
  | succ fuel ih =>
    unfold readPathWithin at h
    split at h
    · obtain ⟨⟨k, rest⟩, hk, h⟩ := bind_eq_ok.mp h
      dsimp only at h
      split at h
      · cases h
      · cases h
        simpa using readKey_fits hk
    · obtain ⟨⟨k, rest⟩, hk, h⟩ := bind_eq_ok.mp h
      obtain ⟨⟨⟨later, b⟩, left'⟩, hlater, h⟩ := bind_eq_ok.mp h
      cases h
      have := ih hlater
      exact ⟨List.forall_mem_cons.mpr ⟨readKey_fits hk, this.1⟩, by simp⟩
    · cases h
      simp

/-! ## Fields -/

/-- What follows the name of a column is read as a field of the column, whose path is read first. -/
theorem readField_cases {column : String} {name : Option String} {node : Node}
    (hc : column ≠ "") (hn : ∀ n ∈ name, n ≠ "")
    (h : readField column name s = .ok (node, left)) :
    ∃ f : Field, node = ⟨f.toEntry, none⟩ ∧ f.WellFormed ∧
      ∃ rest, readPath s = .ok ((f.path, f.pathAsText), rest) := by
  unfold readField at h
  obtain ⟨⟨⟨path, asText⟩, s₁⟩, hpath, h⟩ := bind_eq_ok.mp h
  obtain ⟨⟨first, s₂⟩, hfirst, h⟩ := bind_eq_ok.mp h
  obtain ⟨⟨aggregate, s₃⟩, -, h⟩ := bind_eq_ok.mp h
  obtain ⟨hkeys, htext⟩ := readPathWithin_fits hpath
  have hname (f : Field) (hcolumn : f.column = some column) (hfpath : f.path = path) :
      name.getD f.defaultName ≠ "" := by
    cases name with
    | some n => exact hn n rfl
    | none =>
      exact Field.defaultName_ne (by simpa [hcolumn] using hc) (by simp [hcolumn])
        (hfpath ▸ hkeys)
  cases aggregate with
  | none =>
    cases h
    exact ⟨_, rfl,
      { name_ne := hname _ rfl rfl
        column_ne := by simpa using hc
        rowCount := by simp
        keys := hkeys
        text_path := htext
        preCast_none := fun _ => rfl
        preCast_type := by simp
        cast_type := readCast_isType hfirst }, s₁, hpath⟩
  | some a =>
    dsimp only at h
    obtain ⟨⟨second, s₄⟩, hsecond, h⟩ := bind_eq_ok.mp h
    cases h
    exact ⟨_, rfl,
      { name_ne := hname _ rfl rfl
        column_ne := by simpa using hc
        rowCount := by simp
        keys := hkeys
        text_path := htext
        preCast_none := by simp
        preCast_type := readCast_isType hfirst
        cast_type := readCast_isType hsecond }, s₁, hpath⟩

/-! ## Joins -/

/-- Modifiers add no hint but a word that is neither empty nor a join type. -/
theorem readModifiersWithin_wellFormed {fuel : Nat} {join join' : Join}
    {type type' : Option JoinType} (hj : join.WellFormed)
    (h : readModifiersWithin fuel join type s = .ok ((join', type'), left)) :
    join'.WellFormed := by
  induction fuel generalizing s join type with
  | zero =>
    cases h
    exact hj
  | succ fuel ih =>
    unfold readModifiersWithin at h
    split at h
    · obtain ⟨⟨word, rest⟩, hword, h⟩ := bind_eq_ok.mp h
      dsimp only at h
      split at h
      · split at h
        · cases h
        · exact ih hj h
      · next htype =>
        split at h
        · cases h
        · have hj' : Join.WellFormed { join with hint := some word } :=
            ⟨hj.table_ne, by simpa using readName_ne hword, by simpa using htype⟩
          exact ih hj' h
    · cases h
      exact hj

theorem readJoin_wellFormed {table : String} {join : Join} (ht : table ≠ "")
    (h : readJoin table s = .ok (join, left)) : join.WellFormed := by
  unfold readJoin at h
  obtain ⟨⟨⟨join', type⟩, rest⟩, hmods, h⟩ := bind_eq_ok.mp h
  cases h
  have hstart : Join.WellFormed { table } := ⟨ht, by simp, by simp⟩
  have hj := readModifiersWithin_wellFormed hstart hmods
  exact ⟨hj.table_ne, hj.hint_ne, hj.hint_word⟩

/-! ## Nodes -/

/-- What is promised of a node whose embeds nest at most `levels` deep. -/
structure Node.WellFormed (levels : Nat) (node : Node) : Prop where
  /-- The entry is as promised. -/
  entry : node.entry.WellFormed
  /-- Its embeds nest no deeper. -/
  depth : node.entry.depth ≤ levels
  /-- An embed declares a join under its name, and nothing else declares one. -/
  declares : ∀ n, (∃ j, node.join = some (n, j)) ↔ node.entry.Embeds n
  /-- The join is as promised. -/
  join : ∀ p ∈ node.join, p.2.WellFormed

/-- What is promised of a list whose embeds nest at most `levels` deep. -/
structure Within (levels : Nat) (t : Select) : Prop where
  /-- The list is as promised. -/
  wellFormed : t.WellFormed
  /-- Its embeds nest no deeper. -/
  depth : SelectEntry.depthAll t.entries ≤ levels

/-- The reader of the lists in the embeds of a list, if there may be any, keeps the promise. -/
def Keeps (levels : Nat) (nested : Option ListReader) : Prop :=
  ∀ read ∈ nested, ∃ n, levels = n + 1 ∧
    ∀ s t left, read s = .ok (t, left) → Within n t

variable {levels maxDepth : Nat} {nested : Option ListReader} {name : Option String} {node : Node}

theorem Node.wellFormed_of_field {f : Field} (hf : f.WellFormed) :
    Node.WellFormed levels ⟨f.toEntry, none⟩ := by
  have hnot : ∀ n, ¬ f.toEntry.Embeds n := by
    rintro n ⟨spread, clauses, entries, joins, he⟩
    unfold Field.toEntry at he
    split at he <;> cases he
  refine ⟨hf.toEntry, ?_, fun n => by simp [hnot], by simp⟩
  show f.toEntry.depth ≤ levels
  unfold Field.toEntry
  split <;> exact Nat.zero_le _

theorem readEmbed_wellFormed {table : String} (hk : Keeps levels nested) (ht : table ≠ "")
    (hn : ∀ n ∈ name, n ≠ "") (h : readEmbed maxDepth nested table name s = .ok (node, left)) :
    node.WellFormed levels := by
  unfold readEmbed at h
  obtain ⟨⟨join, rest⟩, hjoin, h⟩ := bind_eq_ok.mp h
  dsimp only at h
  split at h
  · cases nested with
    | none => cases h
    | some read =>
      obtain ⟨⟨t, rest'⟩, hread, h⟩ := bind_eq_ok.mp h
      dsimp only at h
      split at h
      · obtain ⟨n, rfl, hwithin⟩ := hk read rfl
        have ht' := hwithin _ _ _ hread
        cases h
        refine ⟨⟨?_, rfl, ht'.wellFormed.declare, ht'.wellFormed.entries⟩,
          Nat.succ_le_succ ht'.depth, fun m => ?_, ?_⟩
        · cases name with
          | none => exact ht
          | some n => exact hn n rfl
        · simp [SelectEntry.Embeds]
        · simpa using readJoin_wellFormed ht hjoin
      · cases h
  · cases h

theorem readNamed_wellFormed (hk : Keeps levels nested) (hn : ∀ n ∈ name, n ≠ "")
    (h : readNamed maxDepth nested name s = .ok (node, left)) : node.WellFormed levels := by
  unfold readNamed at h
  obtain ⟨⟨source, rest⟩, hsource, h⟩ := bind_eq_ok.mp h
  dsimp only at h
  split at h
  · obtain ⟨⟨cast, rest'⟩, hcast, h⟩ := bind_eq_ok.mp h
    cases h
    refine ⟨⟨?_, by simp [Field.toEntry, Field.rowCount]⟩, Nat.zero_le _,
      by simp [SelectEntry.Embeds], by simp⟩
    exact
      { name_ne := by
          cases name with
          | none => exact (by decide : "count" ≠ "")
          | some n => exact hn n rfl
        column_ne := by simp [Field.rowCount]
        rowCount := fun _ => rfl
        keys := by simp [Field.rowCount]
        text_path := by simp [Field.rowCount]
        preCast_none := by simp [Field.rowCount]
        preCast_type := by simp [Field.rowCount]
        cast_type := readCast_isType hcast }
  · split at h
    · exact readEmbed_wellFormed hk (readName_ne hsource) hn h
    · exact readEmbed_wellFormed hk (readName_ne hsource) hn h
    · obtain ⟨f, rfl, hf, -⟩ := readField_cases (readName_ne hsource) hn h
      exact Node.wellFormed_of_field hf

theorem readAliased_wellFormed (hk : Keeps levels nested)
    (h : readAliased maxDepth nested s = .ok (node, left)) : node.WellFormed levels := by
  unfold readAliased at h
  obtain ⟨⟨name, rest⟩, hname, h⟩ := bind_eq_ok.mp h
  dsimp only at h
  split at h
  · exact readNamed_wellFormed hk (by simp) h
  · exact readNamed_wellFormed hk (by simpa using readName_ne hname) h
  · exact readNamed_wellFormed hk (by simp) h

theorem readSpread_wellFormed {rest : List Char} (hk : Keeps levels nested)
    (h : readSpread maxDepth nested s rest = .ok (node, left)) : node.WellFormed levels := by
  unfold readSpread at h
  obtain ⟨⟨node', rest'⟩, hnode, h⟩ := bind_eq_ok.mp h
  have hw := readAliased_wellFormed hk hnode
  dsimp only at h
  split at h
  · next name spread clauses entries joins he =>
    cases h
    obtain ⟨hentry, hdepth, hdeclares, hjoin⟩ := hw
    rw [he] at hentry hdepth
    refine ⟨hentry, hdepth, fun n => (hdeclares n).trans ?_, hjoin⟩
    simp [he, SelectEntry.Embeds]
  · cases h

theorem readNode_wellFormed (hk : Keeps levels nested)
    (h : readNode maxDepth nested s = .ok (node, left)) : node.WellFormed levels := by
  unfold readNode at h
  dsimp only at h
  split at h
  · obtain ⟨⟨node', rest⟩, hnode, h⟩ := bind_eq_ok.mp h
    cases h
    exact readSpread_wellFormed hk hnode
  · cases h
    exact ⟨trivial, Nat.zero_le _, by simp [SelectEntry.Embeds], by simp⟩
  · obtain ⟨⟨node', rest⟩, hnode, h⟩ := bind_eq_ok.mp h
    cases h
    exact readAliased_wellFormed hk hnode

/-! ## Lists -/

/-- The join of the name `n` that a node declares. -/
def Node.declared? (n : String) (node : Node) : Option Join :=
  (node.join.filter (·.1 = n)).map (·.2)

theorem declared?_eq_some {n : String} {node : Node} {j : Join} :
    node.declared? n = some j ↔ node.join = some (n, j) := by
  unfold Node.declared?
  constructor
  · intro h
    obtain ⟨p, hp, rfl⟩ := Option.map_eq_some_iff.mp h
    obtain ⟨hp, hn⟩ := Option.filter_eq_some_iff.mp hp
    rw [hp, ← of_decide_eq_true hn]
  · intro h
    simp [h, Option.filter]

theorem ascending_foldl_declare {joins : Joins} (hj : Keyed.Ascending joins) (nodes : List Node) :
    Keyed.Ascending (nodes.foldl Node.declare joins) := by
  induction nodes generalizing joins with
  | nil => exact hj
  | cons node nodes ih =>
    refine ih ?_
    unfold Node.declare
    split
    · exact Keyed.ascending_add hj
    · exact hj

theorem find?_declare {joins : Joins} (hj : Keyed.Ascending joins) (node : Node) (n : String) :
    Keyed.find? (node.declare joins) n = (Keyed.find? joins n).or (node.declared? n) := by
  unfold Node.declare Node.declared?
  cases hjoin : node.join with
  | none => simp
  | some p =>
    obtain ⟨m, j⟩ := p
    dsimp only
    rw [Keyed.find?_add hj]
    by_cases hm : n = m
    · subst hm
      cases Keyed.find? joins n <;> simp [Option.filter]
    · simp [hm, Ne.symm hm, Option.filter]

/-- Under a name stands the join that was there, or else the first that a node declares. -/
theorem find?_foldl_declare {joins : Joins} (hj : Keyed.Ascending joins) (nodes : List Node)
    (n : String) :
    Keyed.find? (nodes.foldl Node.declare joins) n =
      (Keyed.find? joins n).or (nodes.findSome? (Node.declared? n)) := by
  induction nodes generalizing joins with
  | nil => simp
  | cons node nodes ih =>
    have hnode : Keyed.Ascending (node.declare joins) := ascending_foldl_declare hj [node]
    rw [List.foldl_cons, ih hnode, find?_declare hj, List.findSome?_cons, Option.or_assoc]
    cases Node.declared? n node <;> simp

theorem find?_ofNodes (nodes : List Node) (n : String) :
    Keyed.find? (ofNodes nodes).joins n = nodes.findSome? (Node.declared? n) :=
  find?_foldl_declare Keyed.ascending_nil nodes n

theorem ofNodes_within {nodes : List Node} (h : ∀ node ∈ nodes, node.WellFormed levels) :
    Within levels (ofNodes nodes) := by
  have hjoin (n : String) (j : Join) : Keyed.find? (ofNodes nodes).joins n = some j →
      ∃ node ∈ nodes, node.join = some (n, j) := by
    rw [find?_ofNodes]
    intro hj
    obtain ⟨node, hnode, hdecl⟩ := List.exists_of_findSome?_eq_some hj
    exact ⟨node, hnode, declared?_eq_some.mp hdecl⟩
  have hentries : (ofNodes nodes).entries = nodes.map (·.entry) := rfl
  refine ⟨⟨⟨ascending_foldl_declare Keyed.ascending_nil nodes, fun n => ⟨?_, ?_⟩, ?_⟩, ?_⟩, ?_⟩
  · intro hsome
    obtain ⟨j, hj⟩ := Option.isSome_iff_exists.mp hsome
    obtain ⟨node, hnode, hdecl⟩ := hjoin n j hj
    exact ⟨node.entry, hentries ▸ List.mem_map_of_mem hnode,
      ((h node hnode).declares n).mp ⟨j, hdecl⟩⟩
  · rintro ⟨e, he, hembeds⟩
    obtain ⟨node, hnode, rfl⟩ := List.mem_map.mp (hentries ▸ he)
    obtain ⟨j, hdecl⟩ := ((h node hnode).declares n).mpr hembeds
    rw [find?_ofNodes, List.findSome?_isSome_iff]
    exact ⟨node, hnode, by rw [declared?_eq_some.mpr hdecl]; rfl⟩
  · intro n j hj
    obtain ⟨node, hnode, hdecl⟩ := hjoin n j hj
    exact (h node hnode).join (n, j) hdecl
  · rw [SelectEntry.wellFormedAll_iff]
    simpa [ofNodes] using fun node hnode => (h node hnode).entry
  · rw [SelectEntry.depthAll_le_iff]
    simpa [ofNodes] using fun node hnode => (h node hnode).depth

theorem within_empty : Within levels {} := by
  have h : ∀ node ∈ ([] : List Node), node.WellFormed levels := by simp
  exact ofNodes_within h

theorem readListWith_within {t : Select} (hk : Keeps levels nested)
    (h : readListWith maxDepth nested s = .ok (t, left)) : Within levels t := by
  unfold readListWith at h
  split at h
  · cases h
    exact within_empty
  · cases h
    exact within_empty
  · obtain ⟨⟨nodes, rest⟩, hnodes, h⟩ := bind_eq_ok.mp h
    cases h
    exact ofNodes_within (Text.forall_of_sepBy (fun _ _ _ => readNode_wellFormed hk) hnodes)

/-- A list that is read is as promised, and its embeds nest no deeper than allowed. -/
theorem readList_within {t : Select} (h : readList maxDepth levels s = .ok (t, left)) :
    Within levels t := by
  induction levels generalizing s t left with
  | zero => exact readListWith_within (by simp [Keeps]) h
  | succ levels ih =>
    refine readListWith_within (fun read hread => ⟨levels, rfl, ?_⟩) h
    cases hread
    exact fun s t left hl => ih hl

/-- A select list that is read is well-formed, and its embeds nest no deeper than allowed. -/
theorem parse_within {t : Select} (h : parse maxDepth s = .ok t) : Within maxDepth t := by
  unfold parse at h
  split at h
  · cases h
  · next hread =>
    split at h
    · cases h
      exact readList_within hread
    · cases h

end RestQuery.Select
