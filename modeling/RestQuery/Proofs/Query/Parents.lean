import RestQuery.Proofs.Query.Addressing
import RestQuery.Proofs.Query.Conditions
import RestQuery.Proofs.Select.Places

/-!
# Keys that are paths

A key is split after the longest path to an embed in it. Where the names of embeds have no points
the level that an embed stands in is at the path that is left without its last name, and so a key
that is the path to an embed is split into the path of that level and the name of the embed. A test
for related rows with such a key is a condition of that level.
-/

namespace RestQuery

open Filters (columnPath)
open SelectEntry (EachList Leads WithoutPoints joinNames)

variable {ctx : Context} {paths : List String} {key word word' rest parent : String}
  {path path' : Option String} {names : List (List Char)} {name : List Char}

/-! ## Paths and their last names -/

/-- A path and the word after it are determined if the word has no point. -/
theorem columnPath_inj (hword : '.' ∉ word.toList) (hword' : '.' ∉ word'.toList)
    (h : columnPath path word = columnPath path' word') : path = path' ∧ word = word' := by
  have hcut : Text.splitLast '.' (columnPath path word).toList =
      path.map fun path => (path.toList, word.toList) := splitLast_columnPath hword
  rw [h, splitLast_columnPath hword'] at hcut
  cases path with
  | none =>
    cases path' with
    | none => exact ⟨rfl, h⟩
    | some path' => cases hcut
  | some path =>
    cases path' with
    | none => cases hcut
    | some path' =>
      have hsame : path'.toList = path.toList ∧ word'.toList = word.toList := by simpa using hcut
      exact ⟨congrArg some (String.toList_inj.mp hsame.1.symm), String.toList_inj.mp hsame.2.symm⟩

/-- A path that is followed by one word only is the longest in the key. -/
theorem longestPrefix_columnPath (hword : '.' ∉ word.toList) (hpath : ∀ p ∈ path, p ∈ paths) :
    LongestPrefix paths (columnPath path word) path := by
  cases path with
  | none =>
    intro other _ rest h
    have hpoint : '.' ∈ (columnPath none word).toList := by
      rw [h, toList_columnPath_some]
      simp
    exact hword hpoint
  | some path =>
    refine ⟨hpath path rfl, ⟨word, rfl⟩, ?_⟩
    rintro other - ⟨rest, h⟩
    rw [← String.toList_inj, toList_columnPath_some, toList_columnPath_some] at h
    -- If the other path were longer, the word would go on after the point behind it.
    rcases List.append_eq_append_iff.mp h with ⟨more, hother, hmore⟩ | ⟨more, hother, -⟩
    · cases more with
      | nil =>
        have hsame : other = path := String.toList_inj.mp (by simpa using hother)
        rw [hsame]
      | cons c more =>
        obtain ⟨-, hrest⟩ := List.cons.inj hmore
        exact absurd (by rw [hrest]; simp) hword
    · have hle : other.toList.length ≤ path.toList.length := by
        rw [hother, List.length_append]
        exact Nat.le_add_right _ _
      rwa [String.length_toList, String.length_toList] at hle

theorem columnPath_cancel (h : columnPath path word = columnPath path word') : word = word' := by
  cases path with
  | none => exact h
  | some path =>
    rw [← String.toList_inj, toList_columnPath_some, toList_columnPath_some] at h
    exact String.toList_inj.mp (List.cons.inj (List.append_cancel_left h)).2

/-- A key is split after the longest path to an embed that it begins with, and only there. -/
theorem Context.splitEmbed_eq_iff : ctx.splitEmbed key = (path, rest) ↔
    LongestPrefix ctx.embeds key path ∧ key = columnPath path rest := by
  have hlongest : LongestPrefix ctx.embeds key (ctx.splitEmbed key).1 :=
    longestPrefix_splitEmbed fun p => by simp [hasEmbed]
  have hjoin : columnPath (ctx.splitEmbed key).1 (ctx.splitEmbed key).2 = key :=
    columnPath_splitEmbed
  constructor
  · intro h
    rw [h] at hlongest hjoin
    exact ⟨hlongest, hjoin.symm⟩
  · rintro ⟨hpath, hkey⟩
    have hfirst : (ctx.splitEmbed key).1 = path := hpath.unique hlongest
    rw [hfirst] at hjoin
    exact Prod.ext hfirst (columnPath_cancel (hjoin.trans hkey))

/-! ## Levels -/

/-- The path of the level that names lead to; the root is at no path. -/
def levelPath (names : List (List Char)) : Option String :=
  if joinNames "" names = "" then none else some (joinNames "" names)

/-- The path to an embed is the path of the level it stands in, and its name. -/
theorem joinNames_concat (names : List (List Char)) (name : List Char) :
    joinNames "" (names ++ [name]) = columnPath (levelPath names) (.ofList name) := by
  have hjoin : joinNames "" (names ++ [name]) = joinPath (joinNames "" names) (.ofList name) := by
    simp [joinNames]
  rw [hjoin]
  unfold levelPath joinPath
  by_cases hroot : joinNames "" names = ""
  · rw [if_pos hroot, if_pos (by simpa using hroot)]
    rfl
  · rw [if_neg hroot, if_neg (by simpa using hroot)]
    rfl

section Embeds

variable {select : Select} {place : List Nat} {e : SelectEntry}

theorem mem_embedPaths_iff_concat : key ∈ select.embedPaths ↔ ∃ place names name e,
    Leads select.entries place (names ++ [name]) e ∧ key = joinNames "" (names ++ [name]) := by
  rw [Select.mem_embedPaths, SelectEntry.mem_pathsAll]
  constructor
  · rintro ⟨place, names, e, h, rfl⟩
    obtain ⟨init, name, rfl⟩ : ∃ init name, names = init ++ [name] :=
      ⟨_, _, (List.dropLast_append_getLast h.names_ne_nil).symm⟩
    exact ⟨place, init, name, e, h, rfl⟩
  · rintro ⟨place, names, name, e, h, hkey⟩
    exact ⟨place, _, e, h, hkey⟩

/-- The level that an embed stands in is the root or at the path to an embed. -/
theorem mem_embedPaths_of_levelPath (h : Leads select.entries place (names ++ [name]) e) :
    ∀ p ∈ levelPath names, p ∈ select.embedPaths := by
  intro p hp
  unfold levelPath at hp
  split at hp
  · cases hp
  · next hroot =>
    cases hp
    have hnames : names ≠ [] := by
      rintro rfl
      exact hroot rfl
    obtain ⟨place', e', h'⟩ := h.of_concat hnames
    rw [Select.mem_embedPaths]
    exact h'.mem_pathsAll ""

theorem not_mem_of_concat (hes : EachList WithoutPoints select.entries)
    (h : Leads select.entries place (names ++ [name]) e) : '.' ∉ (String.ofList name).toList := by
  rw [String.toList_ofList]
  exact h.not_mem hes name (by simp)

/-- A path to an embed without its last name is one. -/
theorem mem_embedPaths_of_columnPath (hes : EachList WithoutPoints select.entries)
    (hword : '.' ∉ word.toList) (h : columnPath (some parent) word ∈ select.embedPaths) :
    parent ∈ select.embedPaths := by
  obtain ⟨place, names, name, e, hleads, hkey⟩ := mem_embedPaths_iff_concat.mp h
  rw [joinNames_concat] at hkey
  have hlevel := (columnPath_inj hword (not_mem_of_concat hes hleads) hkey).1
  exact mem_embedPaths_of_levelPath hleads parent hlevel.symm

end Embeds

/-! ## Tests for related rows -/

theorem not_isArgument_of_embedTest? {value : String} {c : Comparison}
    (htest : Filters.embedTest? value.toList = some c) : ctx.isArgument key value = false := by
  have haccepts : Expression.accepts value.toList = true := by
    unfold Filters.embedTest? at htest
    unfold Expression.accepts
    split at htest
    · cases htest
    · next hparse =>
      rw [hparse]
      rfl
  unfold Context.isArgument
  rw [haccepts]
  exact Bool.and_false _

/-- A parameter whose key is the path to an embed is a test for related rows or nothing. -/
theorem paramEntry_of_hasEmbed {value : String} {routed : Filters.RoutedEntry}
    (hcolumn : ParamKey.classify key = .column key) (hembed : ctx.hasEmbed key = true) :
    Filters.paramEntry ctx (key, value) = .ok (some routed) ↔
      ∃ c, Filters.embedTest? value.toList = some c ∧
        routed = ((ctx.splitEmbed key).1,
          .column (ctx.splitEmbed key).2 (Predicate.ofOperator (.compare c none) .null)) := by
  constructor
  · intro h
    rcases Filters.paramEntry_eq_some h with ⟨_, -, hentry⟩ | ⟨negated, c, hgroup, -⟩
    · obtain ⟨hplace, p, hp, hread⟩ := Filters.columnEntry_eq_some hentry
      cases hread with
      | test _ htest => exact ⟨_, htest, Prod.ext hplace hp⟩
      | operator hnone _ =>
        rw [hembed] at hnone
        cases hnone
    · rw [hcolumn] at hgroup
      cases hgroup
  · rintro ⟨c, htest, rfl⟩
    unfold Filters.paramEntry
    dsimp only
    rw [not_isArgument_of_embedTest? htest, hcolumn]
    unfold Filters.columnEntry Filters.embedPredicate
    rw [hembed, htest]
    rfl

/-- A key is split after the longest path to an embed that it begins with, before a point, and not
at all if it begins with none. Where the names of embeds have no points, a path to an embed without
its last name is one too. So the path to an embed is split into the path of the level it stands in
and its name, and a test for related rows with this key is a condition of that level on a name
without points. -/
theorem Context.splitEmbed_innermost (ctx : Context) :
    (∀ key path rest, ctx.splitEmbed key = (path, rest) ↔
      LongestPrefix ctx.embeds key path ∧ key = columnPath path rest) ∧
    ∀ select : Select, EachList WithoutPoints select.entries → ctx.embeds = select.embedPaths →
      (∀ parent word, '.' ∉ word.toList →
        columnPath (some parent) word ∈ ctx.embeds → parent ∈ ctx.embeds) ∧
      (∀ key, key ∈ ctx.embeds ↔ ∃ place names name e,
        Leads select.entries place (names ++ [name]) e ∧ key = joinNames "" (names ++ [name])) ∧
      ∀ place names name e, Leads select.entries place (names ++ [name]) e →
        '.' ∉ name ∧
        ctx.splitEmbed (joinNames "" (names ++ [name])) = (levelPath names, .ofList name) ∧
        (ParamKey.classify (joinNames "" (names ++ [name])) =
            .column (joinNames "" (names ++ [name])) →
          ∀ value routed,
            Filters.paramEntry ctx (joinNames "" (names ++ [name]), value) = .ok (some routed) ↔
              ∃ c, Filters.embedTest? value.toList = some c ∧
                routed = (levelPath names,
                  .column (.ofList name) (Predicate.ofOperator (.compare c none) .null))) := by
  refine ⟨fun key path rest => splitEmbed_eq_iff, fun select hes hembeds => ?_⟩
  rw [hembeds]
  refine ⟨fun parent word hword h => mem_embedPaths_of_columnPath hes hword h,
    fun key => mem_embedPaths_iff_concat, fun place names name e h => ?_⟩
  have hname := not_mem_of_concat hes h
  have hsplit : ctx.splitEmbed (joinNames "" (names ++ [name])) =
      (levelPath names, .ofList name) := by
    rw [splitEmbed_eq_iff, joinNames_concat, hembeds]
    exact ⟨longestPrefix_columnPath hname (mem_embedPaths_of_levelPath h), rfl⟩
  refine ⟨by simpa using hname, hsplit, fun hcolumn value routed => ?_⟩
  have hembed : ctx.hasEmbed (joinNames "" (names ++ [name])) = true := by
    have hmem : joinNames "" (names ++ [name]) ∈ ctx.embeds := by
      rw [hembeds]
      exact mem_embedPaths_iff_concat.mpr ⟨place, names, name, e, h, rfl⟩
    simpa [hasEmbed] using hmem
  rw [paramEntry_of_hasEmbed hcolumn hembed, hsplit]

/-- With `b` in `a` the key `a.b` is split as the path to `b` and `a.b.id` as a key on a column of
it, and a test with the key `a.b` is a condition of `a`. -/
theorem Context.splitEmbed_innermost_nested :
    let inner : SelectEntry := .embed "b" false {} [] []
    let select : Select := { entries := [.embed "a" false {} [inner] []] }
    let ctx : Context :=
      { method := .get, target := .table "items", negotiation := {}, params := []
        embeds := select.embedPaths, payload := none, handling := .strict }
    EachList WithoutPoints select.entries ∧
      Leads select.entries [0, 0] (["a".toList] ++ ["b".toList]) inner ∧
      '.' ∉ "b".toList ∧ columnPath (some "a") "b" ∈ ctx.embeds ∧ "a" ∈ ctx.embeds ∧
      ctx.splitEmbed "a.b.id" = (some "a.b", "id") ∧ ctx.splitEmbed "a.b" = (some "a", "b") ∧
      ParamKey.classify "a.b" = .column "a.b" ∧
      Filters.paramEntry ctx ("a.b", "is.null") =
        .ok (some (some "a", .column "b" (Predicate.ofOperator (.compare .eq none) .null))) := by
  intro inner select ctx
  have hnone : WithoutPoints [] := by decide
  have hinner : WithoutPoints [inner] := by decide
  have houter : WithoutPoints select.entries := by decide
  have hplain : EachList WithoutPoints select.entries :=
    ⟨houter, ⟨hinner, ⟨hnone, trivial⟩, trivial⟩, trivial⟩
  have hleads : Leads select.entries [0, 0] (["a".toList] ++ ["b".toList]) inner :=
    .inner rfl (.own rfl)
  obtain ⟨hsplits, hselect⟩ := splitEmbed_innermost ctx
  obtain ⟨hclosed, -, hat⟩ := hselect select hplain rfl
  obtain ⟨hpoint, hsplit, hentry⟩ := hat _ _ _ _ hleads
  have hkey : joinNames "" (["a".toList] ++ ["b".toList]) = "a.b" := by decide
  have hlevel : levelPath ["a".toList] = some "a" := by decide
  rw [hkey, hlevel] at hsplit hentry
  have hword : '.' ∉ "b".toList := by decide
  have hmem : columnPath (some "a") "b" ∈ ctx.embeds := by decide
  have hlongest : LongestPrefix ctx.embeds (columnPath (some "a.b") "id") (some "a.b") :=
    longestPrefix_columnPath (by decide) fun p hp => Option.some.inj hp ▸ hmem
  have hclassify : ParamKey.classify "a.b" = .column "a.b" := by decide
  have htest : Filters.embedTest? "is.null".toList = some .eq := by decide
  exact ⟨hplain, hleads, hword, hmem, hclosed "a" "b" hword hmem,
    (hsplits _ _ _).mpr ⟨hlongest, rfl⟩, hsplit, hclassify,
    (hentry hclassify _ _).mpr ⟨_, htest, rfl⟩⟩

end RestQuery
