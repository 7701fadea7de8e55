import RestQuery.Proofs.Query.Routed
import RestQuery.Proofs.Text.Splitting
import RestQuery.Query.Filters

/-!
# What the key of a parameter addresses

A key addresses one aspect of one level. Its last word decides which: a clause or a group is for the
level at the path before it, and a condition on a column for the level at the longest path to an
embed that the key begins with. Here this is said of the text of the key, and shown to be what the
readers of keys find.
-/

namespace RestQuery

open Filters (columnPath)

/-! ## Keys as texts -/

/-- What of a level a parameter can change. -/
inductive Aspect where
  /-- Which rows are kept. -/
  | filter
  /-- A clause of the window. -/
  | clause (c : Clause)
  deriving DecidableEq

/-- The longest of the paths that a key begins with, before one of its points; none if it begins
with none of them. -/
def LongestPrefix (paths : List String) (key : String) : Option String → Prop
  | some path => path ∈ paths ∧ (∃ rest, key = columnPath (some path) rest) ∧
      ∀ other ∈ paths, (∃ rest, key = columnPath (some other) rest) → other.length ≤ path.length
  | none => ∀ path ∈ paths, ∀ rest, key ≠ columnPath (some path) rest

/-- A key addresses an aspect of the root or of the embed at a path, where embeds are at `paths`. -/
inductive Addresses (paths : List String) (key : String) : Option String → Aspect → Prop where
  /-- The path, and the word for a clause. -/
  | clause {path : Option String} {c : Clause} (h : key = columnPath path c.name) :
      Addresses paths key path (.clause c)
  /-- The path, which does not end in a negation, and a connective. -/
  | group {path : Option String} {c : Connective} (h : key = columnPath path c.name)
      (hnot : ∀ start, path ≠ some (columnPath start "not")) : Addresses paths key path .filter
  /-- The path, a negation, and a connective. -/
  | negatedGroup {path : Option String} {c : Connective}
      (h : key = columnPath (some (columnPath path "not")) c.name) :
      Addresses paths key path .filter
  /-- A path to an embed as long as possible, and the rest of a key that is none of the others. -/
  | column {path : Option String} (hreserved : key ∉ ParamKey.reservedKeys)
      (hclause : ∀ start (c : Clause), key ≠ columnPath start c.name)
      (hgroup : ∀ start (c : Connective), key ≠ columnPath start c.name)
      (h : LongestPrefix paths key path) : Addresses paths key path .filter

/-- The key of a group on the root or on the embed at a path: the path, a negation if the group is
negated, and the connective. A negation at the end of the path is the group's. -/
inductive GroupKey (key : String) : Option String → Bool → Connective → Prop where
  | plain {path : Option String} {c : Connective} (h : key = columnPath path c.name)
      (hnot : ∀ start, path ≠ some (columnPath start "not")) : GroupKey key path false c
  | negated {path : Option String} {c : Connective}
      (h : key = columnPath (some (columnPath path "not")) c.name) : GroupKey key path true c

section Words

variable {key word : String} {path : Option String}

theorem toList_columnPath_some {path : String} :
    (columnPath (some path) word).toList = path.toList ++ '.' :: word.toList := by
  simp [columnPath, String.toList_append]

/-- A key is cut at its last point. -/
theorem splitLast_columnPath (hword : '.' ∉ word.toList) :
    Text.splitLast '.' (columnPath path word).toList =
      path.map fun path => (path.toList, word.toList) := by
  cases path with
  | none => exact Text.splitLast_eq_none_iff.mpr hword
  | some path =>
    rw [toList_columnPath_some]
    exact Text.splitLast_append hword

/-- Every key is its last word after the path before it. -/
theorem exists_columnPath (key : String) :
    ∃ path word, key = columnPath path word ∧ '.' ∉ word.toList := by
  cases hcut : Text.splitLast '.' key.toList with
  | none => exact ⟨none, key, rfl, Text.splitLast_eq_none_iff.mp hcut⟩
  | some cut =>
    obtain ⟨path, word⟩ := cut
    obtain ⟨hkey, hword⟩ := Text.splitLast_eq_some_iff.mp hcut
    refine ⟨some (.ofList path), .ofList word, ?_, by simpa using hword⟩
    rw [← String.toList_inj, toList_columnPath_some, hkey]
    simp

theorem not_mem_clause_name (c : Clause) : '.' ∉ c.name.toList := by cases c <;> decide

theorem not_mem_connective_name (c : Connective) : '.' ∉ c.name.toList := by cases c <;> decide

/-- No reserved key has a point. -/
theorem not_reserved_of_mem (h : '.' ∈ key.toList) : key ∉ ParamKey.reservedKeys := by
  intro hmem
  have hnone : ∀ key ∈ ParamKey.reservedKeys, '.' ∉ key.toList := by decide
  exact hnone key hmem h

theorem not_reserved_columnPath (hword : word ∉ ParamKey.reservedKeys) :
    columnPath path word ∉ ParamKey.reservedKeys := by
  cases path with
  | none => exact hword
  | some path =>
    refine not_reserved_of_mem ?_
    rw [toList_columnPath_some]
    simp

end Words

/-! ## The role of a key -/

namespace ParamKey

variable {key word : String} {path : Option String}

theorem clauseOf?_eq_some_iff {c : Clause} : clauseOf? word.toList = some c ↔ word = c.name := by
  unfold clauseOf?
  simp only [String.toList_inj]
  cases c <;> grind [Clause.name]

theorem connectiveOf?_eq_some_iff {c : Connective} :
    connectiveOf? word.toList = some c ↔ word = c.name := by
  unfold connectiveOf?
  simp only [String.toList_inj]
  cases c <;> grind [Connective.name]

/-- A negation at the end of a path is taken off. -/
theorem splitNegation_not (start : Option String) :
    splitNegation (some (columnPath start "not").toList) = (start, true) := by
  cases start with
  | none => rfl
  | some start =>
    have hne : start.toList ++ '.' :: "not".toList ≠ "not".toList := by
      intro h
      have hlength := congrArg List.length h
      simp at hlength
    have hdrop : Text.dropStart? "ton.".toList (start.toList ++ '.' :: "not".toList).reverse =
        some start.toList.reverse := by
      rw [Text.dropStart?_eq_some_iff]
      simp
    rw [toList_columnPath_some, splitNegation, if_neg hne, hdrop]
    simp

theorem splitNegation_other (h : ∀ start, path ≠ some (columnPath start "not")) :
    splitNegation (path.map String.toList) = (path, false) := by
  cases path with
  | none => rfl
  | some path =>
    have hne : path.toList ≠ "not".toList := by
      intro hsame
      exact h none (congrArg some (String.toList_inj.mp hsame))
    rw [Option.map_some, splitNegation, if_neg hne]
    split
    · next rest hdrop =>
      have hreverse := Text.dropStart?_eq_some_iff.mp hdrop
      refine absurd ?_ (h (some (.ofList rest.reverse)))
      rw [Option.some.injEq, ← String.toList_inj, toList_columnPath_some]
      have hpath := congrArg List.reverse hreverse
      simpa using hpath
    · simp

/-- The role of a key from its last word and the path before it. -/
theorem classify_columnPath (hword : '.' ∉ word.toList)
    (hreserved : columnPath path word ∉ reservedKeys) :
    classify (columnPath path word) =
      match clauseOf? word.toList with
      | some c => .clause path c
      | none =>
        match connectiveOf? word.toList with
        | some c => .group (splitNegation (path.map String.toList)).1
            (splitNegation (path.map String.toList)).2 c
        | none => .column (columnPath path word) := by
  have hcontains : reservedKeys.contains (columnPath path word) = false := by
    simpa using hreserved
  unfold classify
  rw [hcontains, if_neg Bool.false_ne_true, splitLast_columnPath hword]
  cases path with
  | none => rfl
  | some path =>
    dsimp only [Option.map_some]
    cases clauseOf? word.toList with
    | some c => simp
    | none => cases connectiveOf? word.toList <;> rfl

theorem not_reserved_clause (c : Clause) : columnPath path c.name ∉ reservedKeys :=
  not_reserved_columnPath (by cases c <;> decide)

theorem not_reserved_connective (c : Connective) : columnPath path c.name ∉ reservedKeys :=
  not_reserved_columnPath (by cases c <;> decide)

theorem classify_clause (path : Option String) (c : Clause) :
    classify (columnPath path c.name) = .clause path c := by
  rw [classify_columnPath (not_mem_clause_name c) (not_reserved_clause c),
    clauseOf?_eq_some_iff.mpr rfl]

theorem classify_connective (path : Option String) (c : Connective) :
    classify (columnPath path c.name) =
      .group (splitNegation (path.map String.toList)).1
        (splitNegation (path.map String.toList)).2 c := by
  have hnone : clauseOf? c.name.toList = none := by cases c <;> rfl
  rw [classify_columnPath (not_mem_connective_name c) (not_reserved_connective c), hnone,
    connectiveOf?_eq_some_iff.mpr rfl]

/-- A key whose last word is a word for something is no column. -/
theorem classify_column (hreserved : key ∉ reservedKeys)
    (hclause : ∀ start (c : Clause), key ≠ columnPath start c.name)
    (hgroup : ∀ start (c : Connective), key ≠ columnPath start c.name) :
    classify key = .column key := by
  obtain ⟨path, word, rfl, hword⟩ := exists_columnPath key
  rw [classify_columnPath hword hreserved]
  split
  · next c hc =>
    obtain rfl := clauseOf?_eq_some_iff.mp hc
    exact absurd rfl (hclause path c)
  · split
    · next c hc =>
      obtain rfl := connectiveOf?_eq_some_iff.mp hc
      exact absurd rfl (hgroup path c)
    · rfl

theorem mem_reservedKeys_of_classify (h : classify key = .reserved) : key ∈ reservedKeys := by
  by_contra hreserved
  obtain ⟨path, word, rfl, hword⟩ := exists_columnPath key
  rw [classify_columnPath hword hreserved] at h
  split at h
  · cases h
  · split at h <;> cases h

/-- Each path before a connective is split into one of a level and a negation. -/
theorem groupKey_connective (path : Option String) (c : Connective) :
    GroupKey (columnPath path c.name) (splitNegation (path.map String.toList)).1
      (splitNegation (path.map String.toList)).2 c := by
  by_cases hnot : ∃ start, path = some (columnPath start "not")
  · obtain ⟨start, rfl⟩ := hnot
    rw [Option.map_some, splitNegation_not]
    exact .negated rfl
  · have hother : ∀ start, path ≠ some (columnPath start "not") := not_exists.mp hnot
    rw [splitNegation_other hother]
    exact .plain rfl hother

/-- The keys of groups are those that are read so. -/
theorem classify_eq_group_iff {negated : Bool} {c : Connective} :
    classify key = .group path negated c ↔ GroupKey key path negated c := by
  constructor
  · intro h
    have hreserved : key ∉ reservedKeys := by
      intro hmem
      unfold classify at h
      rw [if_pos (by simpa using hmem)] at h
      cases h
    obtain ⟨start, word, rfl, hword⟩ := exists_columnPath key
    rw [classify_columnPath hword hreserved] at h
    split at h
    · cases h
    · split at h
      · next hconnective =>
        cases h
        rw [connectiveOf?_eq_some_iff.mp hconnective]
        exact groupKey_connective start _
      · cases h
  · intro h
    cases h with
    | plain h hnot => rw [h, classify_connective, splitNegation_other hnot]
    | negated h => rw [h, classify_connective, Option.map_some, splitNegation_not]

end ParamKey

/-! ## What is addressed -/

/-- What a key addresses by its role, where `longest` is the longest path to an embed in it. -/
def ParamKey.addressed? (longest : Option String) : ParamKey → Option (Option String × Aspect)
  | .reserved => none
  | .clause path c => some (path, .clause c)
  | .group path _ _ => some (path, .filter)
  | .column _ => some (longest, .filter)

variable {paths : List String} {key : String} {path path' : Option String} {aspect : Aspect}

/-- Every key that is not reserved addresses something. -/
theorem ParamKey.exists_addressed? (hkey : key ∉ reservedKeys) (longest : Option String) :
    ∃ place aspect, (classify key).addressed? longest = some (place, aspect) := by
  cases hrole : classify key with
  | reserved => exact absurd (mem_reservedKeys_of_classify hrole) hkey
  | clause path c => exact ⟨path, .clause c, rfl⟩
  | group path negated c => exact ⟨path, .filter, rfl⟩
  | column name => exact ⟨longest, .filter, rfl⟩

/-- A longest prefix is determined. -/
theorem LongestPrefix.unique (h : LongestPrefix paths key path)
    (h' : LongestPrefix paths key path') : path' = path := by
  cases path with
  | none =>
    cases path' with
    | none => rfl
    | some p' =>
      obtain ⟨hmem, ⟨rest, hkey⟩, -⟩ := h'
      exact absurd hkey (h p' hmem rest)
  | some p =>
    obtain ⟨hmem, ⟨rest, hkey⟩, hlongest⟩ := h
    cases path' with
    | none => exact absurd hkey (h' p hmem rest)
    | some p' =>
      obtain ⟨hmem', ⟨rest', hkey'⟩, hlongest'⟩ := h'
      have hlength : p.toList.length = p'.toList.length := by
        have hle := hlongest p' hmem' ⟨rest', hkey'⟩
        have hle' := hlongest' p hmem ⟨rest, hkey⟩
        simp only [String.length_toList]
        omega
      have hsame : p.toList ++ '.' :: rest.toList = p'.toList ++ '.' :: rest'.toList := by
        rw [← toList_columnPath_some, ← toList_columnPath_some, ← hkey, ← hkey']
      exact congrArg some (String.toList_inj.mp (List.append_inj hsame hlength).1.symm)

/-- The path that is split off a key is the longest to an embed. -/
theorem Context.longestPrefix_splitEmbed {ctx : Context}
    (hpaths : ∀ p, ctx.hasEmbed p = true ↔ p ∈ paths) :
    LongestPrefix paths key (ctx.splitEmbed key).1 := by
  have hcut : ∀ p rest, key = columnPath (some p) rest ↔
      (p.toList, rest.toList) ∈ Text.cuts '.' key.toList := by
    intro p rest
    rw [Text.mem_cuts, ← toList_columnPath_some, String.toList_inj]
  -- The cuts at an embed come in the order of their paths, so the last has the longest.
  have hcandidate : ∀ p rest, p ∈ paths → key = columnPath (some p) rest →
      (p.toList, rest.toList) ∈
        (Text.cuts '.' key.toList).filter fun p => ctx.hasEmbed (.ofList p.1) := by
    intro p rest hp hkey
    refine List.mem_filter.mpr ⟨(hcut p rest).mp hkey, ?_⟩
    rw [String.ofList_toList]
    exact (hpaths p).mpr hp
  have hordered : ((Text.cuts '.' key.toList).filter fun p => ctx.hasEmbed (.ofList p.1)).Pairwise
      fun p q => p.1.length < q.1.length := Text.pairwise_cuts.filter _
  unfold splitEmbed
  split
  · next path rest hlast =>
    obtain ⟨shorter, hshorter⟩ := List.getLast?_eq_some_iff.mp hlast
    obtain ⟨hmem, hembed⟩ := List.mem_filter.mp (List.mem_of_getLast? hlast)
    refine ⟨(hpaths _).mp hembed, ⟨.ofList rest, ?_⟩, ?_⟩
    · rw [hcut]
      simpa using hmem
    · rintro other hother ⟨rest', hkey'⟩
      have hin := hcandidate other rest' hother hkey'
      rw [hshorter] at hin hordered
      rcases List.mem_append.mp hin with hin | hin
      · have hlt := (List.pairwise_append.mp hordered).2.2 _ hin _ (List.mem_singleton_self _)
        simp only [String.length_toList] at hlt
        simpa using Nat.le_of_lt hlt
      · cases List.mem_singleton.mp hin
        simp
  · next hlast =>
    rw [List.getLast?_eq_none_iff] at hlast
    intro p hp rest hkey
    have hin := hcandidate p rest hp hkey
    rw [hlast] at hin
    cases hin

/-- What is split off a key is put together again. -/
theorem Context.columnPath_splitEmbed {ctx : Context} :
    columnPath (ctx.splitEmbed key).1 (ctx.splitEmbed key).2 = key := by
  unfold splitEmbed
  split
  · next path rest hlast =>
    have hmem := (List.mem_filter.mp (List.mem_of_getLast? hlast)).1
    rw [← String.toList_inj, toList_columnPath_some]
    simpa using (Text.mem_cuts.mp hmem).symm
  · rfl

/-- The role of a key says what it addresses. -/
theorem addresses_iff (h : LongestPrefix paths key path') :
    Addresses paths key path aspect ↔
      (ParamKey.classify key).addressed? path' = some (path, aspect) := by
  constructor
  · intro haddress
    cases haddress with
    | clause hkey =>
      rw [hkey, ParamKey.classify_clause]
      rfl
    | group hkey hnot =>
      rw [ParamKey.classify_eq_group_iff.mpr (.plain hkey hnot)]
      rfl
    | negatedGroup hkey =>
      rw [ParamKey.classify_eq_group_iff.mpr (.negated hkey)]
      rfl
    | column hreserved hclause hgroup hlongest =>
      rw [ParamKey.classify_column hreserved hclause hgroup, h.unique hlongest]
      rfl
  -- The role is found by trying the words in turn, and so are the cases here.
  · intro hrole
    by_cases hclause : ∃ start, ∃ c : Clause, key = columnPath start c.name
    · obtain ⟨start, c, rfl⟩ := hclause
      rw [ParamKey.classify_clause] at hrole
      cases hrole
      exact .clause rfl
    · by_cases hgroup : ∃ start, ∃ c : Connective, key = columnPath start c.name
      · obtain ⟨start, c, rfl⟩ := hgroup
        have hkey := ParamKey.groupKey_connective start c
        rw [ParamKey.classify_eq_group_iff.mpr hkey] at hrole
        generalize ParamKey.splitNegation (start.map String.toList) = split at hkey hrole
        obtain ⟨inner, negated⟩ := split
        cases hrole
        cases hkey with
        | plain h hnot => exact .group h hnot
        | negated h => exact .negatedGroup h
      · by_cases hreserved : key ∈ ParamKey.reservedKeys
        · have hclassify : ParamKey.classify key = .reserved := by
            unfold ParamKey.classify
            rw [if_pos (by simpa using hreserved)]
          rw [hclassify] at hrole
          cases hrole
        · have hclause' : ∀ start (c : Clause), key ≠ columnPath start c.name :=
            fun start c hkey => hclause ⟨start, c, hkey⟩
          have hgroup' : ∀ start (c : Connective), key ≠ columnPath start c.name :=
            fun start c hkey => hgroup ⟨start, c, hkey⟩
          rw [ParamKey.classify_column hreserved hclause' hgroup'] at hrole
          cases hrole
          exact .column hreserved hclause' hgroup' h

end RestQuery
