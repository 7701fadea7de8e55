import RestQuery.Ast.Assembly
import RestQuery.Proofs.Filter.Columns
import RestQuery.Proofs.Json.Gathering
import RestQuery.Proofs.Keyed
import RestQuery.Proofs.Outcome
import RestQuery.Proofs.Select.Levels

/-!
# What each pass of the assembly does to the levels

The names are made distinct, each part is put into the clauses of one level, references are checked
against joins, and joins and groups are filled in. For each pass it is said what it leaves behind at
every level under both handlings, and that under strict handling it changes nothing that is there.
-/

namespace RestQuery

theorem Handling.report_strict {cause : Invalid} : Handling.strict.report cause ≠ .ok () := by
  simp [Handling.report, Handling.check]

namespace SelectEntry

variable {handling : Handling} {seen : List String} {es es' : List SelectEntry} {e e' : SelectEntry}
  {P : Clauses → Prop}

/-! ## Distinct names -/

/-- The names of an entry, if it has one, and of those after it. -/
theorem filterMap_name?_cons :
    (e :: es).filterMap name? = e.name?.toList ++ es.filterMap name? := by
  cases h : e.name? <;> simp [h]

mutual

theorem eachLevel_dedupe : ∀ (e e' : SelectEntry), e.EachLevel (fun c _ _ => P c) →
    dedupe handling e = .ok e' →
      e'.name? = e.name? ∧ e'.EachLevel fun c entries _ => P c ∧ NamesDistinct entries
  | .embed _ _ _ entries _, _, he, h => by
    obtain ⟨_, -, h⟩ := bind_eq_ok.mp h
    obtain ⟨entries', hentries, h⟩ := bind_eq_ok.mp h
    cases h
    obtain ⟨hnames, -, hlevels⟩ := eachLevelAll_dedupeAll [] entries entries' he.2 hentries
    exact ⟨rfl, ⟨he.1, hnames⟩, hlevels⟩
  | .wildcard, _, _, h => by
    cases h
    exact ⟨rfl, trivial⟩
  | .column _, _, _, h => by
    cases h
    exact ⟨rfl, trivial⟩
  | .field _, _, _, h => by
    cases h
    exact ⟨rfl, trivial⟩

/-- Entries that are left of a list have distinct names that were not seen before, at each level,
and clauses that were there. -/
theorem eachLevelAll_dedupeAll : ∀ (seen : List String) (es es' : List SelectEntry),
    EachLevelAll (fun c _ _ => P c) es → dedupeAll handling seen es = .ok es' →
      NamesDistinct es' ∧ (∀ n ∈ es'.filterMap name?, n ∉ seen) ∧
        EachLevelAll (fun c entries _ => P c ∧ NamesDistinct entries) es'
  | _, [], _, _, h => by
    cases h
    exact ⟨List.nodup_nil, by simp, trivial⟩
  | seen, e :: es, _, hes, h => by
    unfold dedupeAll at h
    split at h
    · next hnone =>
      obtain ⟨rest, hrest, h⟩ := bind_eq_ok.mp h
      cases h
      obtain ⟨hnames, hseen, hlevels⟩ := eachLevelAll_dedupeAll seen es rest hes.2 hrest
      have he : e.EachLevel fun c entries _ => P c ∧ NamesDistinct entries := by
        cases e with
        | wildcard => trivial
        | _ => cases hnone
      refine ⟨?_, ?_, he, hlevels⟩
      · unfold NamesDistinct at hnames ⊢
        simpa [filterMap_name?_cons, hnone] using hnames
      · simpa [filterMap_name?_cons, hnone] using hseen
    · next name hname =>
      split at h
      -- An entry whose name was seen is dropped, with all the levels in it.
      · exact eachLevelAll_dedupeAll seen es _ hes.2 h
      · next hnew =>
        obtain ⟨e', he, h⟩ := bind_eq_ok.mp h
        obtain ⟨rest, hrest, h⟩ := bind_eq_ok.mp h
        cases h
        obtain ⟨hsame, hlevel⟩ := eachLevel_dedupe e e' hes.1 he
        obtain ⟨hnames, hseen, hlevels⟩ :=
          eachLevelAll_dedupeAll (name :: seen) es rest hes.2 hrest
        have hname' : e'.name? = some name := hsame.trans hname
        have hnot : name ∉ rest.filterMap name? := fun hmem => hseen name hmem List.mem_cons_self
        refine ⟨?_, ?_, hlevel, hlevels⟩
        · unfold NamesDistinct at hnames ⊢
          rw [filterMap_name?_cons, hname']
          exact List.nodup_cons.mpr ⟨hnot, hnames⟩
        · rw [filterMap_name?_cons, hname']
          intro n hn
          rcases List.mem_cons.mp hn with rfl | hn
          · simpa using hnew
          · exact fun hmem => hseen n hn (List.mem_cons_of_mem _ hmem)

end

theorem eachLevelAll_distinctNames (hes : EachLevelAll (fun c _ _ => P c) es)
    (h : distinctNames handling es = .ok es') :
    NamesDistinct es' ∧ EachLevelAll (fun c entries _ => P c ∧ NamesDistinct entries) es' := by
  obtain ⟨_, -, h⟩ := bind_eq_ok.mp h
  obtain ⟨hnames, -, hlevels⟩ := eachLevelAll_dedupeAll [] es es' hes h
  exact ⟨hnames, hlevels⟩

theorem distinct_of_distinctNames (h : distinctNames handling es = .ok es') : Distinct es' := by
  have hall : EachLevelAll (fun _ _ _ => True) es := eachLevelAll_of_forall (by simp) es
  obtain ⟨hnames, hlevels⟩ := eachLevelAll_distinctNames (P := fun _ => True) hall h
  exact ⟨hnames, eachLevelAll_mono (fun _ _ _ h => h.2) _ hlevels⟩

/-- A strict check finds no name that was seen, and none twice. -/
theorem not_seen_of_checkNames (h : checkNames .strict seen es = .ok ()) :
    ∀ n ∈ es.filterMap name?, n ∉ seen := by
  induction es generalizing seen with
  | nil => simp
  | cons e es ih =>
    unfold checkNames at h
    rw [filterMap_name?_cons]
    split at h
    · next hnone => simpa [hnone] using ih h
    · next name hname =>
      rw [hname]
      split at h
      · obtain ⟨_, hreport, -⟩ := bind_eq_ok.mp h
        exact absurd hreport Handling.report_strict
      · next hnew =>
        intro n hn
        rcases List.mem_cons.mp hn with rfl | hn
        · simpa using hnew
        · exact fun hmem => ih h n hn (List.mem_cons_of_mem _ hmem)

theorem checkNames_tail (h : checkNames .strict seen (e :: es) = .ok ()) :
    checkNames .strict (e.name?.toList ++ seen) es = .ok () := by
  unfold checkNames at h
  split at h
  · next hnone => simpa [hnone] using h
  · next name hname =>
    split at h
    · obtain ⟨_, hreport, -⟩ := bind_eq_ok.mp h
      exact absurd hreport Handling.report_strict
    · simpa [hname] using h

mutual

theorem dedupe_strict : ∀ e e' : SelectEntry, dedupe .strict e = .ok e' → e' = e
  | .embed _ _ _ entries _, _, h => by
    obtain ⟨_, hcheck, h⟩ := bind_eq_ok.mp h
    obtain ⟨entries', hentries, h⟩ := bind_eq_ok.mp h
    cases h
    rw [dedupeAll_strict [] entries entries' hcheck hentries]
  | .wildcard, _, h => by
    cases h
    rfl
  | .column _, _, h => by
    cases h
    rfl
  | .field _, _, h => by
    cases h
    rfl

/-- Where a strict check passes nothing is dropped. -/
theorem dedupeAll_strict : ∀ (seen : List String) (es es' : List SelectEntry),
    checkNames .strict seen es = .ok () → dedupeAll .strict seen es = .ok es' → es' = es
  | _, [], _, _, h => by
    cases h
    rfl
  | seen, e :: es, _, hcheck, h => by
    have hnew := not_seen_of_checkNames hcheck
    have hcheck' := checkNames_tail hcheck
    rw [filterMap_name?_cons] at hnew
    unfold dedupeAll at h
    split at h
    · next hnone =>
      obtain ⟨rest, hrest, h⟩ := bind_eq_ok.mp h
      cases h
      rw [hnone] at hcheck'
      rw [dedupeAll_strict seen es rest hcheck' hrest]
    · next name hname =>
      rw [hname] at hnew hcheck'
      split at h
      · next hseen => exact absurd (by simpa using hseen) (hnew name List.mem_cons_self)
      · obtain ⟨e', he, h⟩ := bind_eq_ok.mp h
        obtain ⟨rest, hrest, h⟩ := bind_eq_ok.mp h
        cases h
        rw [dedupe_strict e e' he, dedupeAll_strict (name :: seen) es rest hcheck' hrest]

end

theorem distinctNames_strict (h : distinctNames .strict es = .ok es') : es' = es := by
  obtain ⟨_, hcheck, h⟩ := bind_eq_ok.mp h
  exact dedupeAll_strict [] es es' hcheck h

/-! ## Parts in their places -/

variable {path : String} {change : Clauses → Clauses}

/-- Changing the embed at a path changes the clauses at its address only, and there is one. -/
theorem changeAt_eq_mapLevelsAll (hd : Distinct es) (h : changeAt path change es = .ok es') :
    es' = mapLevelsAll (changeOnly (pathNames path) change) es ∧
      ∃ c, HasLevel es (pathNames path) c := by
  unfold changeAt modifyPath? at h
  unfold pathNames
  split at h
  · next hmodify =>
    cases h
    split at hmodify
    · cases hmodify
    · next name names hpath =>
      rw [hpath]
      exact modifyIn?_eq_mapLevelsAll names es _ name hd hmodify
  · cases h

section Parts

variable {α : Type} {changeOf : α → Clauses → Clauses} {parts : Keyed α}
  {names : List (List Char)} {c : Clauses}

/-- The clauses at an address with the parts for it put in, one after the other. -/
def placeParts (changeOf : α → Clauses → Clauses) (parts : Keyed α) (names : List (List Char))
    (c : Clauses) : Clauses :=
  parts.foldl (fun c part => changeOnly (pathNames part.1) (changeOf part.2) names c) c

/-- A change that may be made before or after each part may be made before or after all of them. -/
theorem placeParts_comm (f : Clauses → Clauses)
    (h : ∀ x c, f (changeOf x c) = changeOf x (f c)) :
    f (placeParts changeOf parts names c) = placeParts changeOf parts names (f c) := by
  induction parts generalizing c with
  | nil => rfl
  | cons part parts ih =>
    have hfirst : f (changeOnly (pathNames part.1) (changeOf part.2) names c) =
        changeOnly (pathNames part.1) (changeOf part.2) names (f c) := changeOnly_comm f (h _ _)
    unfold placeParts at ih ⊢
    rw [List.foldl_cons, List.foldl_cons, ih, hfirst]

/-- What no part changes is kept. -/
theorem placeParts_keeps {β : Type} (f : Clauses → β) (h : ∀ x c, f (changeOf x c) = f c) :
    f (placeParts changeOf parts names c) = f c := by
  induction parts generalizing c with
  | nil => rfl
  | cons part parts ih =>
    have hfirst : f (changeOnly (pathNames part.1) (changeOf part.2) names c) = f c := by
      unfold changeOnly
      split
      · exact h _ _
      · rfl
    exact ih.trans hfirst

theorem placeParts_cons {part : String × α} :
    placeParts changeOf (part :: parts) names c =
      placeParts changeOf parts names
        (changeOnly (pathNames part.1) (changeOf part.2) names c) := rfl

theorem placeParts_cons_of_ne {part : String × α} (h : pathNames part.1 ≠ names) :
    placeParts changeOf (part :: parts) names c = placeParts changeOf parts names c := by
  rw [placeParts_cons, changeOnly, if_neg (Ne.symm h)]

theorem placeParts_of_not_mem (h : ∀ part ∈ parts, pathNames part.1 ≠ names) :
    placeParts changeOf parts names c = c := by
  induction parts with
  | nil => rfl
  | cons part parts ih =>
    obtain ⟨hfirst, hlater⟩ := List.forall_mem_cons.mp h
    rw [placeParts_cons_of_ne hfirst, ih hlater]

/-- Each part is put in once, at the address of its path. -/
theorem placeParts_of_mem {path : String} {x : α} (hm : Keyed.Ascending parts)
    (h : (path, x) ∈ parts) : placeParts changeOf parts (pathNames path) c = changeOf x c := by
  induction parts with
  | nil => cases h
  | cons part parts ih =>
    obtain ⟨hlt, hm⟩ := Keyed.ascending_cons.mp hm
    -- Keys ascend and a path is found again from its names, so no other part has this address.
    have hother : ∀ other ∈ parts, pathNames part.1 ≠ pathNames other.1 := by
      intro other hmem hsame
      have hpath := hlt other hmem
      rw [pathNames_injective hsame] at hpath
      exact String.lt_irrefl _ hpath
    rcases List.mem_cons.mp h with rfl | h
    · have hlater : ∀ other ∈ parts, pathNames other.1 ≠ pathNames path :=
        fun other hmem => Ne.symm (hother other hmem)
      rw [placeParts_cons, placeParts_of_not_mem hlater, changeOnly, if_pos rfl]
    · rw [placeParts_cons_of_ne (hother _ h), ih hm h]

/-- A part that is changed changes nothing at other addresses. -/
theorem placeParts_alter {path : String} {f : Option α → α} (h : pathNames path ≠ names) :
    placeParts changeOf (Keyed.alter path f parts) names c =
      placeParts changeOf parts names c := by
  induction parts generalizing c with
  | nil => exact placeParts_cons_of_ne h
  | cons part parts ih =>
    obtain ⟨name, x⟩ := part
    unfold Keyed.alter
    split
    · next hname =>
      subst hname
      rw [placeParts_cons_of_ne h, placeParts_cons_of_ne h]
    · split
      · exact placeParts_cons_of_ne h
      · rw [placeParts_cons, placeParts_cons, ih]

/-- Changes that are made one after the other change the clauses at the addresses of their paths
only, and there is a level at each. -/
theorem foldlM_changeAt_eq_mapLevelsAll (hd : Distinct es)
    (h : parts.foldlM (fun es part => changeAt part.1 (changeOf part.2) es) es = .ok es') :
    es' = mapLevelsAll (placeParts changeOf parts) es ∧
      ∀ part ∈ parts, ∃ c, HasLevel es (pathNames part.1) c := by
  induction parts generalizing es with
  | nil =>
    cases h
    exact ⟨(mapLevelsAll_id _).symm, by simp⟩
  | cons part parts ih =>
    rw [List.foldlM_cons] at h
    obtain ⟨es₁, hpart, hparts⟩ := bind_eq_ok.mp h
    obtain ⟨rfl, hfirst⟩ := changeAt_eq_mapLevelsAll hd hpart
    obtain ⟨rfl, hlater⟩ := ih (distinct_mapLevelsAll hd) hparts
    refine ⟨mapLevelsAll_mapLevelsAll _ _ _, List.forall_mem_cons.mpr ⟨hfirst, ?_⟩⟩
    -- A level at a later address is found in the changed list, so it was there before.
    intro later hmem
    obtain ⟨c, hc⟩ := hlater later hmem
    obtain ⟨c₀, hc₀, -⟩ := hasLevel_of_mapLevelsAll hc
    exact ⟨c₀, hc₀⟩

end Parts

/-- The clauses with a filter put in. -/
def addFilter (f : Filter) (c : Clauses) : Clauses := { c with filter := Filter.pushAll c.filter f }

/-! ## Groups -/

theorem groupColumns_of_outline (h : es'.map outline = es.map outline) :
    groupColumns es' = groupColumns es := by
  have hmap (es : List SelectEntry) : groupColumns (es.map outline) = groupColumns es := by
    simp [groupColumns, List.any_map, List.filterMap_map, Function.comp_def]
  rw [← hmap es', h, hmap]

/-- Adding what is not there yet, item by item, keeps the first of equal items. -/
theorem foldl_unless_contains (columns group : List String) :
    columns.foldl (fun group column => if group.contains column then group else group ++ [column])
        group = group ++ (columns.filter fun column => !group.contains column).eraseDups := by
  induction columns generalizing group with
  | nil => simp
  | cons column columns ih =>
    rw [List.foldl_cons, ih]
    by_cases hc : group.contains column = true
    · rw [if_pos hc, List.filter_cons_of_neg (by simpa using hc)]
    · have hkeep : (columns.filter fun c => !(group ++ [column]).contains c) =
          (columns.filter fun c => !group.contains c).filter fun c => !c == column := by
        rw [List.filter_filter]
        refine List.filter_congr fun c _ => ?_
        by_cases hself : c = column <;> simp [hself]
      rw [if_neg hc, List.filter_cons_of_pos (by simpa using hc), List.eraseDups_cons, hkeep,
        List.append_assoc, List.singleton_append]

/-- The columns by which a level is grouped: those of its entries without aggregate, in the order in
which they come first. -/
theorem groupColumns_eq (es : List SelectEntry) :
    groupColumns es =
      if es.any isAggregate then (es.filterMap sourceColumn?).eraseDups else [] := by
  have hall (columns : List String) :
      (columns.filter fun column => !([] : List String).contains column) = columns :=
    List.filter_eq_self.mpr (by simp)
  unfold groupColumns
  rw [foldl_unless_contains, hall, List.nil_append]

theorem nodup_groupColumns (es : List SelectEntry) : (groupColumns es).Nodup := by
  rw [groupColumns_eq]
  split
  · exact nodup_eraseDups _
  · exact List.nodup_nil

/-! ## Joins -/

theorem levelJoins_of_outline {joins : Joins} (h : es'.map outline = es.map outline) :
    levelJoins es' joins = levelJoins es joins := by
  have hmap (es : List SelectEntry) : levelJoins (es.map outline) joins = levelJoins es joins := by
    unfold levelJoins
    rw [List.foldl_map]
    congr 1
    funext joins e
    cases e <;> rfl
  rw [← hmap es', h, hmap]

theorem levelJoins_cons {joins : Joins} :
    levelJoins (e :: es) joins = levelJoins es (levelJoins [e] joins) := rfl

theorem contains_levelJoins_singleton {joins : Joins} {n : String} :
    Keyed.contains (levelJoins [e] joins) n = true ↔
      e.Embeds n ∨ Keyed.contains joins n = true := by
  cases e with
  | embed name spread clauses entries nested =>
    have hself : (embed name spread clauses entries nested).Embeds n ↔ n = name := by
      constructor
      · rintro ⟨_, _, _, _, he⟩
        cases he
        rfl
      · rintro rfl
        exact ⟨_, _, _, _, rfl⟩
    rw [hself]
    exact Keyed.contains_add
  | _ => simp [levelJoins, Embeds]

/-- The joins of a level are those declared and those of its embeds. -/
theorem contains_levelJoins {joins : Joins} {n : String} :
    Keyed.contains (levelJoins es joins) n = true ↔
      (∃ e ∈ es, e.Embeds n) ∨ Keyed.contains joins n = true := by
  induction es generalizing joins with
  | nil => simp [levelJoins]
  | cons e es ih =>
    rw [levelJoins_cons, ih, contains_levelJoins_singleton]
    simp only [List.mem_cons, exists_eq_or_imp]
    rw [← or_assoc, or_comm (a := ∃ e ∈ es, e.Embeds n)]

theorem levelJoins_eq_self {joins : Joins} (hj : Keyed.Ascending joins)
    (h : ∀ n, (∃ e ∈ es, e.Embeds n) → Keyed.contains joins n = true) :
    levelJoins es joins = joins := by
  induction es with
  | nil => rfl
  | cons e es ih =>
    have he : levelJoins [e] joins = joins := by
      cases e with
      | embed name spread clauses entries joins' =>
        exact Keyed.add_of_contains hj
          (h name ⟨_, List.mem_cons_self, spread, clauses, entries, joins', rfl⟩)
      | _ => rfl
    rw [levelJoins_cons, he]
    exact ih fun n ⟨e', he', hembeds⟩ => h n ⟨e', List.mem_cons_of_mem _ he', hembeds⟩

theorem fillJoinsAll_eq_map : fillJoinsAll es = es.map fillJoins := by
  induction es with
  | nil => rfl
  | cons e es ih => rw [fillJoinsAll, ih, List.map_cons]

theorem outline_fillJoins : outline e.fillJoins = outline e := by cases e <;> rfl

theorem outline_fillJoinsAll : (fillJoinsAll es).map outline = es.map outline := by
  rw [fillJoinsAll_eq_map, List.map_map]
  exact List.map_congr_left fun e _ => outline_fillJoins

mutual

theorem fillJoins_eq_self : ∀ e : SelectEntry,
    e.EachLevel (fun _ entries joins => Joins.Declare joins entries) → e.fillJoins = e
  | .embed _ _ _ entries joins, h => by
    have hj : levelJoins entries joins = joins := levelJoins_eq_self h.1.ascending fun n hn => by
      rw [Keyed.contains_eq_isSome]
      exact (h.1.names n).mpr hn
    rw [fillJoins, fillJoinsAll_eq_self entries h.2, hj]
  | .wildcard, _ => rfl
  | .column _, _ => rfl
  | .field _, _ => rfl

/-- Where each embed has a join none is added. -/
theorem fillJoinsAll_eq_self : ∀ es : List SelectEntry,
    EachLevelAll (fun _ entries joins => Joins.Declare joins entries) es → fillJoinsAll es = es
  | [], _ => rfl
  | e :: es, h => by rw [fillJoinsAll, fillJoins_eq_self e h.1, fillJoinsAll_eq_self es h.2]

end

end SelectEntry

/-! ## References -/

/-- A dotted column has the name of a join of its level before its first point. -/
def RefersInto (joins : Joins) (column : String) : Prop :=
  ∀ name rest, column.toList = name ++ '.' :: rest → '.' ∉ name →
    Keyed.contains joins (.ofList name) = true

theorem refersTo_iff {joins : Joins} {column : String} :
    refersTo joins column = true ↔ RefersInto joins column := by
  unfold refersTo
  constructor
  · intro h name rest hcut hname
    rw [hcut, Text.splitOnce_append hname] at h
    exact h
  · intro h
    split
    · next name rest hcut =>
      obtain ⟨hcolumn, hname⟩ := Text.splitOnce_eq_some_iff.mp hcut
      exact h name rest hcolumn hname
    · rfl

theorem RefersInto.mono {joins joins' : Joins} {column : String} (h : RefersInto joins column)
    (hj : ∀ n, Keyed.contains joins n = true → Keyed.contains joins' n = true) :
    RefersInto joins' column :=
  fun name rest hcut hname => hj _ (h name rest hcut hname)

namespace Clauses

variable {handling : Handling} {joins : Joins} {c c' : Clauses}

/-- The columns of the clauses of a level refer into it. -/
structure Resolved (joins : Joins) (c : Clauses) : Prop where
  /-- Every column that the filter tests refers into the level. -/
  filter : ∀ column, Filter.Tests column c.filter → RefersInto joins column
  /-- Every column of the order refers into the level. -/
  order : ∀ t ∈ c.order, RefersInto joins t.column

theorem resolved_of_dangling_nil (h : c.dangling joins = []) : c.Resolved joins := by
  have hall : ∀ column ∈ Filter.columns c.filter ++ c.order.map (·.column),
      RefersInto joins column := by
    intro column hmem
    have hnot := List.filter_eq_nil_iff.mp h column hmem
    exact refersTo_iff.mp (by simpa using hnot)
  refine ⟨fun column htests => ?_, fun t ht => ?_⟩
  · exact hall column (List.mem_append_left _ (Filter.mem_columns_iff.mpr htests))
  · exact hall t.column (List.mem_append_right _ (List.mem_map_of_mem ht))

/-- What is left after the check refers into the level, and the groups are as they were. -/
theorem resolved_checkReferences (h : c.checkReferences handling joins = .ok c') :
    c'.Resolved joins ∧ c'.group = c.group := by
  obtain ⟨_, -, h⟩ := bind_eq_ok.mp h
  split at h
  · next hempty =>
    cases h
    exact ⟨resolved_of_dangling_nil (List.isEmpty_iff.mp hempty), rfl⟩
  · cases h
    refine ⟨⟨fun column htests => ?_, fun t ht => ?_⟩, rfl⟩
    · have hmem := Filter.mem_columns_iff.mpr htests
      rw [Filter.columns_retain, List.mem_filter] at hmem
      exact refersTo_iff.mp hmem.2
    · exact refersTo_iff.mp (List.mem_filter.mp ht).2

/-- A strict check that passes changes nothing. -/
theorem checkReferences_strict (h : c.checkReferences .strict joins = .ok c') : c' = c := by
  obtain ⟨_, hreports, h⟩ := bind_eq_ok.mp h
  have hnil : c.dangling joins = [] := by
    cases hd : c.dangling joins with
    | nil => rfl
    | cons column columns =>
      rw [hd] at hreports
      obtain ⟨_, hreport, -⟩ := bind_eq_ok.mp hreports
      exact absurd hreport Handling.report_strict
  rw [hnil] at h
  cases h
  rfl

end Clauses

/-! ## Finished levels -/

namespace SelectEntry

variable {handling : Handling} {es es' : List SelectEntry} {e e' : SelectEntry}

mutual

/-- An entry with the groups of each level derived. -/
def withGroups : SelectEntry → SelectEntry
  | .embed name spread clauses entries joins =>
    .embed name spread { clauses with group := groupColumns entries } (withGroupsAll entries) joins
  | e => e

/-- Entries with the groups of each level derived. -/
def withGroupsAll : List SelectEntry → List SelectEntry
  | [] => []
  | e :: rest => e.withGroups :: withGroupsAll rest

end

theorem withGroupsAll_eq_map : withGroupsAll es = es.map withGroups := by
  induction es with
  | nil => rfl
  | cons e es ih => rw [withGroupsAll, ih, List.map_cons]

theorem outline_withGroups : outline e.withGroups = outline e := by cases e <;> rfl

theorem outline_withGroupsAll : (withGroupsAll es).map outline = es.map outline := by
  rw [withGroupsAll_eq_map, List.map_map]
  exact List.map_congr_left fun e _ => outline_withGroups

mutual

theorem withGroups_mapLevels : ∀ {f : List (List Char) → Clauses → Clauses} (e : SelectEntry),
    (∀ names c group, { f names c with group } = f names { c with group }) →
      (mapLevels f e).withGroups = mapLevels f e.withGroups
  | f, .embed name spread clauses entries joins, h => by
    have hgroup : groupColumns (mapLevelsAll (fun names => f (name.toList :: names)) entries) =
        groupColumns entries := groupColumns_of_outline outline_mapLevelsAll
    rw [mapLevels, withGroups, withGroups, mapLevels, hgroup, h,
      withGroupsAll_mapLevelsAll entries fun names => h (name.toList :: names)]
  | _, .wildcard, _ => rfl
  | _, .column _, _ => rfl
  | _, .field _, _ => rfl

/-- A change that does not look at groups may be made after they are derived. -/
theorem withGroupsAll_mapLevelsAll : ∀ {f : List (List Char) → Clauses → Clauses}
    (es : List SelectEntry),
    (∀ names c group, { f names c with group } = f names { c with group }) →
      withGroupsAll (mapLevelsAll f es) = mapLevelsAll f (withGroupsAll es)
  | _, [], _ => rfl
  | _, e :: es, h => by
    rw [mapLevelsAll, withGroupsAll, withGroupsAll, mapLevelsAll, withGroups_mapLevels e h,
      withGroupsAll_mapLevelsAll es h]

end

mutual

theorem mapLevels_withGroups : ∀ {f : List (List Char) → Clauses → Clauses} (e : SelectEntry),
    (∀ names c group, f names { c with group } = f names c) →
      mapLevels f e.withGroups = mapLevels f e
  | f, .embed name _ _ entries _, h => by
    rw [withGroups, mapLevels, mapLevels, h,
      mapLevelsAll_withGroupsAll entries fun names => h (name.toList :: names)]
  | _, .wildcard, _ => rfl
  | _, .column _, _ => rfl
  | _, .field _, _ => rfl

/-- A change that writes over the groups undoes that they are derived. -/
theorem mapLevelsAll_withGroupsAll : ∀ {f : List (List Char) → Clauses → Clauses}
    (es : List SelectEntry),
    (∀ names c group, f names { c with group } = f names c) →
      mapLevelsAll f (withGroupsAll es) = mapLevelsAll f es
  | _, [], _ => rfl
  | _, e :: es, h => by
    rw [withGroupsAll, mapLevelsAll, mapLevelsAll, mapLevels_withGroups e h,
      mapLevelsAll_withGroupsAll es h]

end

section Levels

variable {P Q : Clauses → List SelectEntry → Joins → Prop}

mutual

theorem eachLevel_withGroups
    (h : ∀ c es es' js, es'.map outline = es.map outline → P c es js →
      Q { c with group := groupColumns es } es' js) :
    ∀ e : SelectEntry, e.EachLevel P → e.withGroups.EachLevel Q
  | .embed _ _ _ entries _, he =>
    ⟨h _ _ _ _ outline_withGroupsAll he.1, eachLevelAll_withGroupsAll h entries he.2⟩
  | .wildcard, _ => trivial
  | .column _, _ => trivial
  | .field _, _ => trivial

/-- What each level has after its groups are derived, if it depends on the entries as the level sees
them. -/
theorem eachLevelAll_withGroupsAll
    (h : ∀ c es es' js, es'.map outline = es.map outline → P c es js →
      Q { c with group := groupColumns es } es' js) :
    ∀ es : List SelectEntry, EachLevelAll P es → EachLevelAll Q (withGroupsAll es)
  | [], _ => trivial
  | e :: es, hes => ⟨eachLevel_withGroups h e hes.1, eachLevelAll_withGroupsAll h es hes.2⟩

end

end Levels

/-- Deriving groups leaves names as they are. -/
theorem distinct_withGroupsAll (h : Distinct es) : Distinct (withGroupsAll es) := by
  refine ⟨?_, eachLevelAll_withGroupsAll (fun _ es es' _ houtline hnames => ?_) es h.2⟩
  · unfold NamesDistinct
    rw [filterMap_name?_of_outline outline_withGroupsAll]
    exact h.1
  · unfold NamesDistinct at hnames ⊢
    rwa [filterMap_name?_of_outline houtline]

theorem hasLevel_withGroupsAll {names : List (List Char)} {c : Clauses} (h : HasLevel es names c) :
    ∃ group, HasLevel (withGroupsAll es) names { c with group } := by
  induction h with
  | own h =>
    rw [withGroupsAll_eq_map]
    exact ⟨_, .own (List.mem_map_of_mem (f := withGroups) h)⟩
  | inner h _ ih =>
    rw [withGroupsAll_eq_map]
    obtain ⟨group, hc⟩ := ih
    exact ⟨group, .inner (List.mem_map_of_mem (f := withGroups) h) hc⟩

theorem outline_finish (h : finish handling e = .ok e') : outline e' = outline e := by
  cases e with
  | embed =>
    obtain ⟨clauses, -, h⟩ := bind_eq_ok.mp h
    obtain ⟨entries, -, h⟩ := bind_eq_ok.mp h
    cases h
    rfl
  | _ =>
    cases h
    rfl

theorem outline_finishAll (h : finishAll handling es = .ok es') :
    es'.map outline = es.map outline := by
  induction es generalizing es' with
  | nil =>
    cases h
    rfl
  | cons e es ih =>
    obtain ⟨e', he, h⟩ := bind_eq_ok.mp h
    obtain ⟨rest, hrest, h⟩ := bind_eq_ok.mp h
    cases h
    rw [List.map_cons, List.map_cons, outline_finish he, ih hrest]

mutual

theorem finish_strict : ∀ e e' : SelectEntry, e.EachLevel (fun c _ _ => c.group = []) →
    finish .strict e = .ok e' → e' = e.withGroups
  | .embed _ _ clauses entries joins, _, hg, h => by
    obtain ⟨clauses', hclauses, h⟩ := bind_eq_ok.mp h
    obtain ⟨entries', hentries, h⟩ := bind_eq_ok.mp h
    cases h
    have hgroup : clauses.group = [] := hg.1
    rw [finishAll_strict entries entries' hg.2 hentries, Clauses.checkReferences_strict hclauses,
      withGroups, hgroup]
    rfl
  | .wildcard, _, _, h => by
    cases h
    rfl
  | .column _, _, _, h => by
    cases h
    rfl
  | .field _, _, _, h => by
    cases h
    rfl

/-- A strict pass over the levels derives their groups and changes nothing else. -/
theorem finishAll_strict : ∀ es es' : List SelectEntry,
    EachLevelAll (fun c _ _ => c.group = []) es →
      finishAll .strict es = .ok es' → es' = withGroupsAll es
  | [], _, _, h => by
    cases h
    rfl
  | e :: es, _, hg, h => by
    obtain ⟨e', he, h⟩ := bind_eq_ok.mp h
    obtain ⟨rest, hrest, h⟩ := bind_eq_ok.mp h
    cases h
    rw [finish_strict e e' hg.1 he, finishAll_strict es rest hg.2 hrest, withGroupsAll]

end

end SelectEntry

/-! ## All parts -/

namespace Parts

open SelectEntry

variable {p : Parts} {es : List SelectEntry} {names : List (List Char)} {c : Clauses}

/-- The clauses at an address with the filter and the window for it put in. -/
def place (p : Parts) (names : List (List Char)) (c : Clauses) : Clauses :=
  placeParts addWindow p.windows.embedded names (placeParts addFilter p.filters.embedded names c)

theorem place_withGroup {group : List String} :
    { p.place names c with group } = p.place names { c with group } := by
  unfold place
  rw [placeParts_comm (fun c => { c with group }) fun _ _ => rfl,
    placeParts_comm (fun c => { c with group }) fun _ _ => rfl]

theorem group_place : (p.place names c).group = c.group := by
  have h : { p.place names c with group := c.group } = p.place names c := place_withGroup
  rw [← h]

/-- The parts are put into the levels that are left when the names are made distinct, and there is a
level for each. -/
theorem entries_eq_mapLevelsAll (h : p.entries = .ok es) :
    ∃ distinct, distinctNames p.metadata.handling ((p.select.map (·.entries)).getD []) =
        .ok distinct ∧
      es = mapLevelsAll p.place distinct ∧
      (∀ part ∈ p.filters.embedded, ∃ c, HasLevel distinct (pathNames part.1) c) ∧
      ∀ part ∈ p.windows.embedded, ∃ c, HasLevel distinct (pathNames part.1) c := by
  obtain ⟨distinct, hdistinct, h⟩ := bind_eq_ok.mp h
  obtain ⟨es₁, hfilters, hwindows⟩ := bind_eq_ok.mp h
  have hd : Distinct distinct := distinct_of_distinctNames hdistinct
  change p.filters.embedded.foldlM (fun es part => changeAt part.1 (addFilter part.2) es)
    distinct = .ok es₁ at hfilters
  change p.windows.embedded.foldlM (fun es part => changeAt part.1 (addWindow part.2) es)
    es₁ = .ok es at hwindows
  obtain ⟨rfl, hfound⟩ := foldlM_changeAt_eq_mapLevelsAll hd hfilters
  obtain ⟨rfl, hfound'⟩ := foldlM_changeAt_eq_mapLevelsAll (distinct_mapLevelsAll hd) hwindows
  refine ⟨distinct, hdistinct, mapLevelsAll_mapLevelsAll _ _ _, hfound, fun part hpart => ?_⟩
  obtain ⟨c, hc⟩ := hfound' part hpart
  obtain ⟨c₀, hc₀, -⟩ := hasLevel_of_mapLevelsAll hc
  exact ⟨c₀, hc₀⟩

/-- All that an assembled tree is made of. -/
theorem assemble_eq_ok {ast : Ast} (h : p.assemble = .ok ast) :
    ∃ es root finished, p.entries = .ok es ∧
      Clauses.checkReferences p.metadata.handling ((p.select.map (·.joins)).getD [])
        { filter := p.filters.root, order := p.windows.root.order, limit := p.windows.root.limit
          offset := p.windows.root.offset } = .ok root ∧
      finishAll p.metadata.handling (fillJoinsAll es) = .ok finished ∧
      ast = {
        operation := p.operation
        target := p.target
        schema := p.schema
        select := p.select.map fun _ => finished
        joins := levelJoins es ((p.select.map (·.joins)).getD [])
        clauses := { root with group := groupColumns (fillJoinsAll es) }
        values := if p.operation.isWrite then p.values else none
        args := p.call.map (·.args)
        onConflict := p.conflict
        metadata := { p.metadata with call := p.call.map (·.style) } } := by
  obtain ⟨es, hes, h⟩ := bind_eq_ok.mp h
  obtain ⟨root, hroot, h⟩ := bind_eq_ok.mp h
  obtain ⟨finished, hfinished, h⟩ := bind_eq_ok.mp h
  cases h
  exact ⟨es, root, finished, hes, hroot, hfinished, rfl⟩

end Parts

end RestQuery
