import RestQuery.Proofs.Operator.Spelling
import RestQuery.Proofs.Query.Addressing
import RestQuery.Proofs.Query.Conditions
import RestQuery.Proofs.Query.Groups
import RestQuery.Proofs.Request
import RestQuery.Proofs.Value.Balanced

/-!
# Trees of conditions are read back

A tree of conditions is written as a group, with its trees between the brackets. What is read from
that text is the tree again, and in it a condition on a column is what it is as a parameter of its
own. A tree whose groups nest too deep is refused.
-/

namespace RestQuery

namespace Filters

open Expression (spellNegation)
open Value (Balanced betweenSeparators)

/-! ## Trees and their texts -/

/-- A tree of conditions: a column with an operator expression, or a group of trees. -/
inductive ConditionTree where
  | leaf (column expression : List Char)
  | group (negated : Bool) (c : Connective) (children : List ConditionTree)

namespace ConditionTree

/-- The text of a group without what stands before its brackets. -/
def enclose (pieces : List (List Char)) : List Char := '(' :: [','].intercalate pieces ++ [')']

mutual

/-- The text of a tree. -/
def spell : ConditionTree → List Char
  | .leaf column expression => column ++ '.' :: expression
  | .group negated c children =>
    spellNegation negated ++ c.name.toList ++ enclose (spellEach children)

/-- The texts of trees. -/
def spellEach : List ConditionTree → List (List Char)
  | [] => []
  | t :: rest => t.spell :: spellEach rest

end

mutual

/-- The entry of a tree, where `P` tells the terms of an expression. -/
def toEntry (P : List Char → Predicate) : ConditionTree → FilterEntry
  | .leaf column expression => .column (.ofList column) (P expression)
  | .group negated c children =>
    let entry := match c with
      | .or => FilterEntry.or (toFilters P children)
      | .and => FilterEntry.and (toFilters P children)
    if negated then .not entry else entry

/-- The filters of trees, with one entry each. -/
def toFilters (P : List Char → Predicate) : List ConditionTree → List Filter
  | [] => []
  | t :: rest => [t.toEntry P] :: toFilters P rest

end

mutual

/-- How deep groups nest in a tree. -/
def levels : ConditionTree → Nat
  | .leaf .. => 0
  | .group _ _ children => levelsEach children + 1

/-- How deep groups nest in trees. -/
def levelsEach : List ConditionTree → Nat
  | [] => 0
  | t :: rest => max t.levels (levelsEach rest)

end

/-- The characters that no column of a tree has. -/
def reservedChars : List Char := ".,\"()\x7b\x7d[]".toList

/-- A condition that means the same in a group on the root or on the embed at `path` as it does as a
parameter of its own, where `P` tells the terms of its expression. -/
structure Leaf (ctx : Context) (path : Option String) (P : List Char → Predicate)
    (column expression : List Char) : Prop where
  /-- The column has a name. -/
  ne_nil : column ≠ []
  /-- The name does not begin with a blank. -/
  begins : ∀ c ∈ column.head?, Text.isBlank c = false
  /-- The name has no point, comma, quote or bracket. -/
  chars : ∀ c ∈ column, c ∉ reservedChars
  /-- It is no embed of the root. -/
  no_embed : ctx.hasEmbed (.ofList column) = false
  /-- It is no embed of the level. -/
  no_embed_at : ctx.hasEmbed (columnPath path (.ofList column)) = false
  /-- The expression reads as an operator expression. -/
  accepts : Expression.accepts expression = true
  /-- The expression does not end with a blank. -/
  ends : ∀ c ∈ expression.getLast?, Text.isBlank c = false
  /-- The expression is cut at no comma, and its brackets nest at most 31 deep. -/
  balanced : Balanced (betweenSeparators ',') 31 expression
  /-- As a parameter the condition has the terms `P expression` on the column. -/
  reads : paramEntry ctx (.ofList column, .ofList expression) =
    .ok (some (none, .column (.ofList column) (P expression)))

mutual

/-- Each condition of a tree means the same there as a parameter, and no group is empty. -/
def Means (ctx : Context) (path : Option String) (P : List Char → Predicate) :
    ConditionTree → Prop
  | .leaf column expression => Leaf ctx path P column expression
  | .group _ _ children => children ≠ [] ∧ MeansEach ctx path P children

/-- Each condition of trees means the same there as a parameter, and no group is empty. -/
def MeansEach (ctx : Context) (path : Option String) (P : List Char → Predicate) :
    List ConditionTree → Prop
  | [] => True
  | t :: rest => t.Means ctx path P ∧ MeansEach ctx path P rest

end

variable {ctx : Context} {path : Option String} {P : List Char → Predicate}
  {column expression s group : List Char} {t : ConditionTree} {children : List ConditionTree}
  {c : Connective} {negated : Bool}

theorem spellEach_eq_map : spellEach children = children.map spell := by
  induction children with
  | nil => rfl
  | cons t children ih => rw [spellEach, ih, List.map_cons]

theorem mapM_spellEach {ε β : Type} {f : List Char → Except ε β} :
    (spellEach children).mapM f = children.mapM fun t => f t.spell := by
  rw [spellEach_eq_map, List.mapM_map]
  rfl

theorem toFilters_eq_map : toFilters P children = children.map fun t => [t.toEntry P] := by
  induction children with
  | nil => rfl
  | cons t children ih => rw [toFilters, ih, List.map_cons]

theorem meansEach_iff : MeansEach ctx path P children ↔ ∀ t ∈ children, t.Means ctx path P := by
  induction children with
  | nil => simp [MeansEach]
  | cons t children ih => simp [MeansEach, ih]

/-! ## Conditions on columns -/

theorem Leaf.no_point (h : Leaf ctx path P column expression) : '.' ∉ column :=
  fun hmem => h.chars '.' hmem (by decide)

theorem Leaf.betweenSeparators (h : Leaf ctx path P column expression) :
    ∀ c ∈ column, Value.betweenSeparators ',' c = true := by
  intro c hc
  have hsep : c ≠ ',' := by
    rintro rfl
    exact h.chars ',' hc (by decide)
  have hdelimiter : Value.isDelimiter c = false := by
    have hreserved : "\"()\x7b\x7d[]".toList.all reservedChars.contains = true := by decide
    unfold Value.isDelimiter
    rw [List.contains_eq_mem, decide_eq_false_iff_not]
    intro hmem
    exact h.chars c hc (List.contains_iff_mem.mp (List.all_eq_true.mp hreserved c hmem))
  simp [Value.betweenSeparators, hsep, hdelimiter]

theorem Leaf.expression_ne_nil (h : Leaf ctx path P column expression) : expression ≠ [] := by
  rintro rfl
  cases h.accepts

/-- What a condition means as a parameter its expression means. -/
theorem Leaf.predicate (h : Leaf ctx path P column expression) :
    Filters.predicate ctx.handling expression = .ok (P expression) := by
  rcases paramEntry_eq_some h.reads with ⟨name, -, hcolumn⟩ | ⟨negated, c, -, hgroup⟩
  · obtain ⟨-, p, he, hreads⟩ := columnEntry_eq_some hcolumn
    obtain ⟨-, hp⟩ := FilterEntry.column.inj he
    rw [hp]
    cases hreads with
    | test hembed _ =>
      rw [h.no_embed] at hembed
      cases hembed
    | operator _ hread => simpa using hread
  -- The entry of a group is on no column.
  · rw [show maxGroupDepth = maxGroupDepth - 1 + 1 from rfl] at hgroup
    obtain ⟨cs, reads, -, -, he⟩ := group_eq_ok hgroup
    cases negated <;> cases c <;> cases he

/-! ## Groups as conditions -/

theorem splitGroup_eq_some_iff :
    splitGroup s = some (c, group) ↔ ∃ rest, group = '(' :: rest ∧ s = c.name.toList ++ group := by
  constructor
  · intro h
    unfold splitGroup at h
    split at h
    · cases h
      exact ⟨_, rfl, rfl⟩
    · cases h
      exact ⟨_, rfl, rfl⟩
    · cases h
  · rintro ⟨rest, rfl, rfl⟩
    cases c <;> rfl

/-- What begins as a group does is no operator expression. -/
theorem not_accepts_connective (c : Connective) (rest : List Char) :
    Expression.accepts (c.name.toList ++ '(' :: rest) = false := by
  have hnegation : Expression.splitNegation (c.name.toList ++ '(' :: rest) =
      (false, c.name.toList ++ '(' :: rest) := by
    cases c <;> rfl
  have hword : ∀ a ∈ c.name.toList, a.isAlpha = true := List.all_eq_true.mp (by cases c <;> decide)
  have hstops : Text.Stops Char.isAlpha ('(' :: rest) := Text.stops_cons.mpr rfl
  have hempty : c.name.toList.isEmpty = false := by cases c <;> rfl
  have hnone : Operator.ofToken? c.name.toList = none := by cases c <;> decide
  unfold Expression.accepts Expression.parse
  rw [hnegation]
  dsimp only
  rw [Text.takeWhile_run hword hstops, Text.dropWhile_run hword hstops, hempty, hnone,
    if_neg Bool.false_ne_true]
  split <;> rfl

/-- A text with a point before its first bracket is no group. -/
theorem splitGroup_of_point (hcolumn : '(' ∉ column) :
    splitGroup (column ++ '.' :: expression) = none := by
  cases hsplit : splitGroup (column ++ '.' :: expression) with
  | none => rfl
  | some found =>
    obtain ⟨c, group⟩ := found
    obtain ⟨rest, rfl, hs⟩ := splitGroup_eq_some_iff.mp hsplit
    -- Otherwise the point stands in the connective, or the bracket in the column.
    rcases List.append_eq_append_iff.mp hs with ⟨more, hname, hmore⟩ | ⟨more, hname, hmore⟩
    · cases more with
      | nil => cases hmore
      | cons a more =>
        cases hmore
        exact absurd (hname ▸ by simp) (not_mem_connective_name c)
    · cases more with
      | nil => cases hmore
      | cons a more =>
        cases hmore
        exact absurd (hname ▸ by simp) hcolumn

theorem Leaf.splitNegatedGroup_eq_none (h : Leaf ctx path P column expression) :
    splitNegatedGroup (column ++ '.' :: expression) = none := by
  have hcolumn : splitGroup (column ++ '.' :: expression) = none :=
    splitGroup_of_point fun hmem => h.chars '(' hmem (by decide)
  have hnegated : (Text.dropStart? "not.".toList (column ++ '.' :: expression)).bind splitGroup =
      none := by
    rw [Option.bind_eq_none_iff]
    intro rest hrest
    have hsame : column ++ '.' :: expression = "not.".toList ++ rest :=
      Text.dropStart?_eq_some_iff.mp hrest
    -- So the column is `not`, and what follows it is the expression, which is no group.
    rw [show "not.".toList ++ rest = "not".toList ++ '.' :: rest from rfl] at hsame
    have hcut := Text.splitOnce_append (b := expression) h.no_point
    rw [hsame, Text.splitOnce_append (by decide)] at hcut
    cases hcut
    cases hsplit : splitGroup expression with
    | none => rfl
    | some found =>
      obtain ⟨c, group⟩ := found
      obtain ⟨rest, rfl, hs⟩ := splitGroup_eq_some_iff.mp hsplit
      have haccepts := h.accepts
      rw [hs, not_accepts_connective] at haccepts
      cases haccepts
  unfold splitNegatedGroup
  rw [hnegated, hcolumn]
  rfl

theorem splitNegatedGroup_enclose {pieces : List (List Char)} :
    splitNegatedGroup (spellNegation negated ++ c.name.toList ++ enclose pieces) =
      some (negated, c, enclose pieces) := by
  cases negated <;> cases c <;> rfl

/-! ## One condition -/

theorem Leaf.splitCondition_eq_ok (h : Leaf ctx path P column expression) :
    splitCondition (column ++ '.' :: expression) = .ok (column, expression) := by
  obtain ⟨later, hcuts⟩ := Text.cuts_append (b := expression) h.no_point
  have hne : column.isEmpty = false := by simpa using h.ne_nil
  unfold splitCondition
  rw [hcuts]
  simp [hne, h.accepts]

theorem Leaf.columnCondition_eq_ok (h : Leaf ctx path P column expression) :
    columnCondition ctx path (column ++ '.' :: expression) =
      .ok (some (.column (.ofList column) (P expression))) := by
  unfold columnCondition
  rw [h.splitCondition_eq_ok]
  dsimp only
  rw [h.no_embed_at, if_neg Bool.false_ne_true, h.predicate]
  rfl

theorem getLast?_enclose {pieces : List (List Char)} : (enclose pieces).getLast? = some ')' := by
  unfold enclose
  exact List.getLast?_concat

/-- No text of a tree is changed by cutting blanks off it. -/
theorem trim_spell (h : t.Means ctx path P) : Text.trim t.spell = t.spell := by
  cases t with
  | leaf column expression =>
    have hleaf : Leaf ctx path P column expression := h
    unfold spell
    refine Text.trim_eq_self (fun c hc => ?_) fun c hc => ?_
    · rw [List.head?_append_of_ne_nil _ hleaf.ne_nil] at hc
      exact hleaf.begins c hc
    · rw [List.getLast?_append_of_ne_nil _ (by simp),
        List.getLast?_cons_of_ne_nil hleaf.expression_ne_nil] at hc
      exact hleaf.ends c hc
  | group negated c children =>
    refine Text.trim_eq_self (fun a ha => ?_) fun a ha => ?_
    · cases negated <;> cases c <;> cases ha <;> decide
    · rw [spell, List.getLast?_append_of_ne_nil _ (by simp [enclose]), getLast?_enclose] at ha
      cases ha
      decide

/-- A condition on a column in a group is read as it is as a parameter. -/
theorem condition_leaf {nested : GroupReader} (h : Leaf ctx path P column expression) :
    condition ctx path nested group (Text.trim (ConditionTree.leaf column expression).spell) =
      .ok (some (.column (.ofList column) (P expression))) := by
  have hempty : (column ++ '.' :: expression).isEmpty = false := by simp
  rw [trim_spell (t := .leaf column expression) h, spell]
  unfold condition
  rw [hempty, if_neg Bool.false_ne_true, h.splitNegatedGroup_eq_none]
  exact h.columnCondition_eq_ok

/-- A group in a group is read as a group. -/
theorem condition_group {nested : GroupReader}
    (h : (ConditionTree.group negated c children).Means ctx path P) :
    condition ctx path nested group (Text.trim (ConditionTree.group negated c children).spell) =
      some <$> nested c negated (enclose (spellEach children)) := by
  have hempty : (ConditionTree.group negated c children).spell.isEmpty = false := by
    simp [spell, enclose]
  rw [trim_spell h]
  unfold condition
  rw [hempty, if_neg Bool.false_ne_true, spell, splitNegatedGroup_enclose]

/-! ## Groups -/

mutual

/-- No group is cut at a comma in it, and its brackets nest deeper than those of its conditions by
one for each level. -/
theorem balanced_spell : ∀ t : ConditionTree, t.Means ctx path P →
    Balanced (betweenSeparators ',') (t.levels + 31) t.spell
  | .leaf column expression, h => by
    have hleaf : Leaf ctx path P column expression := h
    unfold spell levels
    have hexpression := hleaf.balanced.mono (fun _ hc => hc) (Nat.le_add_left 31 0)
    exact .run hleaf.betweenSeparators (.plain (by decide) hexpression)
  | .group negated c children, h => by
    have hplain : ∀ c, betweenSeparators ',' c = true → (!Value.isDelimiter c) = true := by
      intro c hc
      simpa using Value.not_isDelimiter_of_betweenSeparators hc
    have hword : ∀ a ∈ spellNegation negated ++ c.name.toList, betweenSeparators ',' a = true :=
      List.all_eq_true.mp (by cases negated <;> cases c <;> decide)
    have hinner : Balanced (fun c => !Value.isDelimiter c) (levelsEach children + 31)
        ([','].intercalate (spellEach children)) := by
      refine .intercalate (by decide) fun s hs => ?_
      exact (balanced_spellEach children h.2 s hs).mono hplain (Nat.le_refl _)
    unfold spell levels enclose
    -- The level of the group is the one that its brackets take.
    rw [Nat.add_right_comm]
    exact .run hword (.group (by rfl) hinner .nil)

theorem balanced_spellEach : ∀ children : List ConditionTree, MeansEach ctx path P children →
    ∀ s ∈ spellEach children, Balanced (betweenSeparators ',') (levelsEach children + 31) s
  | [], _ => by simp [spellEach]
  | t :: children, h => by
    intro s hs
    unfold levelsEach
    rcases List.mem_cons.mp hs with rfl | hs
    · exact (balanced_spell t h.1).mono (fun _ hc => hc)
        (Nat.add_le_add_right (Nat.le_max_left _ _) 31)
    · exact (balanced_spellEach children h.2 s hs).mono (fun _ hc => hc)
        (Nat.add_le_add_right (Nat.le_max_right _ _) 31)

end

theorem unwrapGroup_enclose {pieces : List (List Char)} :
    unwrapGroup (enclose pieces) = .ok ([','].intercalate pieces) := by
  have htrim : Text.trim (enclose pieces) = enclose pieces := by
    refine Text.trim_eq_self (fun a ha => ?_) fun a ha => ?_
    · cases ha
      decide
    · rw [getLast?_enclose] at ha
      cases ha
      decide
  unfold unwrapGroup
  rw [htrim, enclose, List.cons_append]
  simp

/-- The entry of a group connects those of its trees. -/
theorem connect_toEntry :
    connect c negated (children.map fun t => t.toEntry P) =
      (ConditionTree.group negated c children).toEntry P := by
  have hfilters : (children.map fun t => t.toEntry P).map (fun e => [e]) =
      toFilters P children := by
    rw [toFilters_eq_map, List.map_map]
    rfl
  unfold connect
  rw [hfilters]
  cases c <;> rfl

/-! ## Depth -/

/-- The faults of a group in which groups, or the brackets of conditions, nest too deep. -/
inductive TooDeep : Malformed → Prop where
  | groups : TooDeep (.deepGroup maxGroupDepth)
  | brackets (text : String) : TooDeep (.group text .tooDeep)

/-- What comes of reading something in which groups nest `depth` deep, where they may nest `levels`
deep: it is read as `a`, or refused because they nest deeper. Where more levels are left than a
parameter has, the brackets may be what nests too deep. -/
inductive WithinDepth {α : Type} (depth levels : Nat) (a : α) : Except Error α → Prop where
  | read (h : depth ≤ levels) : WithinDepth depth levels a (.ok a)
  | refused {fault : Malformed} (h : depth ≤ levels → maxGroupDepth < levels)
      (hfault : TooDeep fault) : WithinDepth depth levels a (.error (.malformed fault))

theorem WithinDepth.map {α β : Type} {depth levels : Nat} {a : α} {x : Except Error α}
    (h : WithinDepth depth levels a x) (g : α → β) : WithinDepth depth levels (g a) (g <$> x) := by
  cases h with
  | read h => exact .read h
  | refused h hfault => exact .refused h hfault

/-- What is read in a group is read one level further down than the group. -/
theorem WithinDepth.deeper {α β : Type} {depth levels : Nat} {a : α} {x : Except Error α}
    (h : WithinDepth depth levels a x) (g : α → β) :
    WithinDepth (depth + 1) (levels + 1) (g a) (x >>= fun a => .ok (g a)) := by
  cases h with
  | read h => exact .read (Nat.succ_le_succ h)
  | refused h hfault =>
    refine .refused (fun hfits => ?_) hfault
    exact Nat.lt_succ_of_lt (h (Nat.le_of_succ_le_succ hfits))

theorem WithinDepth.mapM {β : Type} {levels : Nat} {f : ConditionTree → Except Error β}
    {g : ConditionTree → β} (h : ∀ t ∈ children, WithinDepth t.levels levels (g t) (f t)) :
    WithinDepth (levelsEach children) levels (children.map g) (children.mapM f) := by
  induction children with
  | nil => exact .read (Nat.zero_le _)
  | cons t children ih =>
    obtain ⟨ht, hchildren⟩ := List.forall_mem_cons.mp h
    have hrest := ih hchildren
    rw [List.mapM_cons, levelsEach]
    generalize f t = first at ht
    generalize children.mapM f = rest at hrest
    cases ht with
    | read hfirst =>
      cases hrest with
      | read hrest => exact .read (Nat.max_le.mpr ⟨hfirst, hrest⟩)
      | refused hrest hfault => exact .refused (fun h => hrest (Nat.max_le.mp h).2) hfault
    | refused hfirst hfault => exact .refused (fun h => hfirst (Nat.max_le.mp h).1) hfault

/-- A group is read as its entry, where groups may nest as deep as they do in it. -/
theorem group_enclose (levels : Nat) (c : Connective) (negated : Bool) (hne : children ≠ [])
    (h : MeansEach ctx path P children) :
    WithinDepth (ConditionTree.group negated c children).levels levels
      ((ConditionTree.group negated c children).toEntry P)
      (Filters.group ctx path levels c negated (enclose (spellEach children))) := by
  unfold ConditionTree.levels
  -- By the levels, of which a group takes one from the groups in it.
  induction levels generalizing c negated children with
  | zero => exact .refused (fun hdeep => absurd hdeep (Nat.not_succ_le_zero _)) .groups
  | succ levels ih =>
    have hpieces : spellEach children ≠ [] := by
      rw [spellEach_eq_map]
      simpa using hne
    have hread : WithinDepth (levelsEach children) levels
        (children.map fun t => some (t.toEntry P))
        (children.mapM fun t => condition ctx path (Filters.group ctx path levels)
          (enclose (spellEach children)) (Text.trim t.spell)) := by
      refine .mapM fun t ht => ?_
      have ht := meansEach_iff.mp h t ht
      cases t with
      | leaf column expression =>
        rw [condition_leaf ht]
        exact .read (Nat.zero_le _)
      | group negated c inner =>
        have hinner : inner ≠ [] ∧ MeansEach ctx path P inner := ht
        rw [condition_group ht]
        exact (ih c negated hinner.1 hinner.2).map some
    unfold Filters.group
    rw [unwrapGroup_enclose, ok_bind]
    rcases Value.splitTopLevel_intercalate rfl hpieces (balanced_spellEach children h) with
      hsplit | ⟨hnesting, hsplit⟩
    · rw [hsplit]
      dsimp only
      rw [mapM_spellEach]
      have hentry := hread.deeper fun reads => connect c negated (reads.filterMap id)
      rw [List.filterMap_map] at hentry
      rw [← connect_toEntry]
      simpa using hentry
    · rw [hsplit]
      refine .refused (fun hfits => ?_) (.brackets _)
      unfold Value.maxNesting at hnesting
      unfold maxGroupDepth
      omega

/-! ## The parameter of a group -/

/-- The parameter of a group is read as the group that it carries, on the root or on the embed that
its key names. -/
theorem paramEntry_group {key value : String} (hkey : GroupKey key path negated c)
    (hpath : ∀ p ∈ path, ctx.hasEmbed p = true) :
    paramEntry ctx (key, value) = (fun e => some (path, e)) <$>
      Filters.group ctx path maxGroupDepth c negated value.toList := by
  have hrole := ParamKey.classify_eq_group_iff.mpr hkey
  have hargument : ctx.isArgument key value = false := by simp [Context.isArgument, hrole]
  have hmissing : (path.filter fun p => !ctx.hasEmbed p) = none := by
    rw [Option.filter_eq_none_iff]
    simpa using hpath
  unfold paramEntry
  dsimp only
  rw [hargument, if_neg Bool.false_ne_true, hrole]
  dsimp only
  unfold groupEntry
  rw [hmissing]

/-- A tree of conditions that is written as the value of a group's parameter is read back as the
tree, on the root or on the embed that the key names, and each condition in it has the terms that it
has as a parameter of its own. If its groups nest too deep it is refused. -/
theorem paramEntry_enclose {key : String} (hkey : GroupKey key path negated c)
    (hpath : ∀ p ∈ path, ctx.hasEmbed p = true) (hne : children ≠ [])
    (h : MeansEach ctx path P children) :
    ((ConditionTree.group negated c children).levels ≤ maxGroupDepth →
        paramEntry ctx (key, .ofList (enclose (spellEach children))) =
          .ok (some (path, (ConditionTree.group negated c children).toEntry P))) ∧
      (maxGroupDepth < (ConditionTree.group negated c children).levels →
        ∃ fault, TooDeep fault ∧
          paramEntry ctx (key, .ofList (enclose (spellEach children))) =
            .error (.malformed fault)) := by
  have hread := group_enclose maxGroupDepth c negated hne h
  rw [paramEntry_group hkey hpath, String.toList_ofList]
  generalize Filters.group ctx path maxGroupDepth c negated (enclose (spellEach children)) = read
    at hread
  cases hread with
  | read hdepth =>
    refine ⟨fun _ => rfl, fun hdeep => ?_⟩
    exact absurd hdepth (Nat.not_le_of_lt hdeep)
  | refused hdepth hfault =>
    refine ⟨fun hfits => ?_, fun _ => ⟨_, hfault, rfl⟩⟩
    exact absurd (hdepth hfits) (Nat.lt_irrefl _)

/-- What a condition needs of its texts can be checked by running. -/
theorem Leaf.of_checks
    (hcolumn : (!column.isEmpty && (column.head?.all fun c => !Text.isBlank c) &&
      column.all fun c => !reservedChars.contains c) = true)
    (hembed : (!ctx.hasEmbed (.ofList column) &&
      !ctx.hasEmbed (columnPath path (.ofList column))) = true)
    (hexpression : (Expression.accepts expression &&
      expression.getLast?.all fun c => !Text.isBlank c) = true)
    (hbalanced : Balanced (Value.betweenSeparators ',') 31 expression)
    (hreads : paramEntry ctx (.ofList column, .ofList expression) =
      .ok (some (none, .column (.ofList column) (P expression)))) :
    Leaf ctx path P column expression := by
  simp only [Bool.and_eq_true, Bool.not_eq_true', List.isEmpty_eq_false_iff, Option.all_eq_true,
    List.all_eq_true, List.contains_eq_mem, decide_eq_false_iff_not] at hcolumn hembed hexpression
  obtain ⟨⟨hne, hbegins⟩, hchars⟩ := hcolumn
  exact ⟨hne, hbegins, hchars, hembed.1, hembed.2, hexpression.1, hexpression.2, hbalanced, hreads⟩

/-- A group in a negated group on the embed `q`. -/
theorem paramEntry_enclose_items :
    paramEntry (Request.itemsContext [] ["q"] .lenient)
        ("q.not.or", "(a.eq.1,not.and(b.sl.(1,5),c.not.is.null))") =
      .ok (some (some "q", .not (.or
        [[.column "a" [.op (.compare .eq none) (.number (.int 1))]],
         [.not (.and [[.column "b" [.op (.range .strictlyLeft) (.str "(1,5)")]],
           [.column "c" [.not [.op .is .null]]]])]]))) := by
  let P (e : List Char) : Predicate :=
    if e = "eq.1".toList then [.op (.compare .eq none) (.number (.int 1))]
    else if e = "sl.(1,5)".toList then [.op (.range .strictlyLeft) (.str "(1,5)")]
    else [.not [.op .is .null]]
  have ha : Leaf (Request.itemsContext [] ["q"] .lenient) (some "q") P "a".toList
      "eq.1".toList :=
    .of_checks (by decide) (by decide) (by decide)
      (.run (s := "eq.1".toList) (List.all_eq_true.mp (by decide)) .nil) (by rfl)
  have hb : Leaf (Request.itemsContext [] ["q"] .lenient) (some "q") P "b".toList
      "sl.(1,5)".toList :=
    .of_checks (by decide) (by decide) (by decide)
      (.run (s := "sl.".toList) (List.all_eq_true.mp (by decide))
        (.group (c := '(') rfl
          (.run (s := "1,5".toList) (List.all_eq_true.mp (by decide)) .nil) .nil)) (by rfl)
  have hc : Leaf (Request.itemsContext [] ["q"] .lenient) (some "q") P "c".toList
      "not.is.null".toList :=
    .of_checks (by decide) (by decide) (by decide)
      (.run (s := "not.is.null".toList) (List.all_eq_true.mp (by decide)) .nil) (by rfl)
  have hkey : GroupKey "q.not.or" (some "q") true .or := .negated (by decide)
  have hmeans : MeansEach (Request.itemsContext [] ["q"] .lenient) (some "q") P
      [.leaf "a".toList "eq.1".toList,
       .group true .and [.leaf "b".toList "sl.(1,5)".toList,
         .leaf "c".toList "not.is.null".toList]] :=
    ⟨ha, ⟨by simp, hb, hc, trivial⟩, trivial⟩
  exact (paramEntry_enclose hkey (by simp [Context.hasEmbed, Request.itemsContext]) (by simp)
    hmeans).1 (by decide)

end ConditionTree

end Filters

end RestQuery
