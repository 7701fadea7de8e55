import RestQuery.Proofs.Select.Agreement
import RestQuery.Proofs.Ast.Passes
import RestQuery.Proofs.Select.Reading

/-!
# Every level of an assembled tree is valid

Whatever the filters and windows are, strict and lenient assembly of a select list that was read
leave a tree of which every level, at the root and in each embed, has distinct names, a join for
each embed, columns that refer to nothing but joins of the level, and the groups that its entries
call for. The joins may have been lost on the way; they are filled in again.
-/

namespace RestQuery

open SelectEntry

/-- What holds of a level of an assembled tree. -/
structure Clauses.Valid (c : Clauses) (entries : List SelectEntry) (joins : Joins) : Prop where
  /-- The names are distinct. -/
  names : (entries.filterMap SelectEntry.name?).Nodup
  /-- Each embed has a join. -/
  declared : ∀ name, (∃ e ∈ entries, e.Embeds name) → Keyed.contains joins name = true
  /-- The columns of the filter and of the order refer into the level. -/
  resolved : c.Resolved joins
  /-- No column is grouped by twice. -/
  group_nodup : c.group.Nodup
  /-- Where an entry is an aggregate, the others are grouped by in the order in which they come. -/
  group : c.group =
    if entries.any isAggregate then (entries.filterMap sourceColumn?).eraseDups else []

/-- The root and each level in the select list of a tree are valid. -/
structure Ast.Valid (a : Ast) : Prop where
  /-- The root. -/
  root : a.clauses.Valid (a.select.getD []) a.joins
  /-- The embeds. -/
  embeds : EachLevelAll Clauses.Valid (a.select.getD [])

/-! ## Select lists that were read -/

mutual

/-- An entry without the joins of the levels in it. -/
def SelectEntry.withoutJoins : SelectEntry → SelectEntry
  | .embed name spread clauses entries _ =>
    .embed name spread clauses (SelectEntry.withoutJoinsAll entries) []
  | e => e

/-- Entries without the joins of the levels in them. -/
def SelectEntry.withoutJoinsAll : List SelectEntry → List SelectEntry
  | [] => []
  | e :: rest => e.withoutJoins :: SelectEntry.withoutJoinsAll rest

end

/-- A select list without its joins, at every level. -/
def Select.withoutJoins (s : Select) : Select :=
  { entries := SelectEntry.withoutJoinsAll s.entries, joins := [] }

/-- The select list of the parts, if there is one, was read, and may have lost its joins. -/
def Parts.ReadsSelect (p : Parts) : Prop :=
  ∀ select ∈ p.select, ∃ maxDepth s t, Select.parse maxDepth s = .ok t ∧
    (select = t ∨ select = t.withoutJoins)

namespace SelectEntry

variable {P : Clauses → Prop}

mutual

theorem eachLevel_withoutJoins : ∀ e : SelectEntry, e.EachLevel (fun c _ _ => P c) →
    e.withoutJoins.EachLevel fun c _ _ => P c
  | .embed _ _ _ entries _, h => ⟨h.1, eachLevelAll_withoutJoinsAll entries h.2⟩
  | .wildcard, _ => trivial
  | .column _, _ => trivial
  | .field _, _ => trivial

theorem eachLevelAll_withoutJoinsAll : ∀ es : List SelectEntry,
    EachLevelAll (fun c _ _ => P c) es → EachLevelAll (fun c _ _ => P c) (withoutJoinsAll es)
  | [], _ => trivial
  | e :: es, h => ⟨eachLevel_withoutJoins e h.1, eachLevelAll_withoutJoinsAll es h.2⟩

end

mutual

theorem eachLevel_of_wellFormed : ∀ e : SelectEntry, e.WellFormed →
    e.EachLevel fun c entries joins => c = {} ∧ Joins.Declare joins entries
  | .embed _ _ _ entries _, h => ⟨⟨h.2.1, h.2.2.1⟩, eachLevelAll_of_wellFormedAll entries h.2.2.2⟩
  | .wildcard, _ => trivial
  | .column _, _ => trivial
  | .field _, _ => trivial

/-- In a list that was read no level has clauses yet, and each declares its joins. -/
theorem eachLevelAll_of_wellFormedAll : ∀ es : List SelectEntry, WellFormedAll es →
    EachLevelAll (fun c entries joins => c = {} ∧ Joins.Declare joins entries) es
  | [], _ => trivial
  | e :: es, h => ⟨eachLevel_of_wellFormed e h.1, eachLevelAll_of_wellFormedAll es h.2⟩

end

end SelectEntry

namespace Parts

variable {p : Parts} {ast : Ast} {es : List SelectEntry}

/-- No level of the select list has a group before the assembly. -/
theorem ReadsSelect.group (hp : p.ReadsSelect) :
    EachLevelAll (fun c _ _ => c.group = []) ((p.select.map (·.entries)).getD []) := by
  cases hselect : p.select with
  | none => exact trivial
  | some select =>
    obtain ⟨_, _, t, hread, hcases⟩ := hp select hselect
    have hlevels : EachLevelAll (fun c _ _ => c.group = []) t.entries := by
      refine eachLevelAll_mono (fun c _ _ h => ?_) _
        (eachLevelAll_of_wellFormedAll _ (Select.parse_within hread).wellFormed.entries)
      rw [h.1]
    rcases hcases with rfl | rfl
    · exact hlevels
    · exact eachLevelAll_withoutJoinsAll _ hlevels

end Parts

/-! ## Finished levels -/

/-- A level is valid whose names are distinct, whose columns were checked and whose joins and groups
were filled in. -/
theorem Clauses.Resolved.valid {c : Clauses} {entries finished : List SelectEntry} {joins : Joins}
    (hc : c.Resolved (levelJoins entries joins)) (hnames : NamesDistinct entries)
    (houtline : finished.map outline = entries.map outline) :
    Clauses.Valid { c with group := groupColumns entries } finished (levelJoins entries joins) where
  names := by
    rw [filterMap_name?_of_outline houtline]
    exact hnames
  declared := by
    intro name h
    exact contains_levelJoins.mpr (.inl ((exists_embeds_of_outline houtline).mp h))
  resolved := ⟨hc.filter, hc.order⟩
  group_nodup := nodup_groupColumns entries
  group := by
    rw [← groupColumns_of_outline houtline]
    exact groupColumns_eq finished

namespace SelectEntry

variable {handling : Handling}

mutual

theorem eachLevel_valid_finish : ∀ e e' : SelectEntry,
    e.EachLevel (fun c entries _ => c.group = [] ∧ NamesDistinct entries) →
      finish handling e.fillJoins = .ok e' → e'.EachLevel Clauses.Valid
  | .embed name spread clauses entries joins, _, he, h => by
    obtain ⟨clauses', hclauses, h⟩ := bind_eq_ok.mp h
    obtain ⟨entries', hentries, h⟩ := bind_eq_ok.mp h
    cases h
    have hgroup : clauses.group = [] := he.1.1
    have houtline : entries'.map outline = entries.map outline :=
      (outline_finishAll hentries).trans outline_fillJoinsAll
    have hcolumns : groupColumns (fillJoinsAll entries) = groupColumns entries :=
      groupColumns_of_outline outline_fillJoinsAll
    have hresolved := (Clauses.resolved_checkReferences hclauses).1
    have hlevel := hresolved.valid he.1.2 houtline
    refine ⟨?_, eachLevelAll_valid_finishAll entries entries' he.2 hentries⟩
    rw [(Clauses.resolved_checkReferences hclauses).2, hgroup]
    simpa only [List.isEmpty_nil, if_true, hcolumns] using hlevel
  | .wildcard, _, _, h => by
    cases h
    trivial
  | .column _, _, _, h => by
    cases h
    trivial
  | .field _, _, _, h => by
    cases h
    trivial

/-- Filling in the joins and finishing makes every level valid whose names are distinct. -/
theorem eachLevelAll_valid_finishAll : ∀ es es' : List SelectEntry,
    EachLevelAll (fun c entries _ => c.group = [] ∧ NamesDistinct entries) es →
      finishAll handling (fillJoinsAll es) = .ok es' → EachLevelAll Clauses.Valid es'
  | [], _, _, h => by
    cases h
    trivial
  | e :: es, _, hes, h => by
    obtain ⟨e', he, h⟩ := bind_eq_ok.mp h
    obtain ⟨rest, hrest, h⟩ := bind_eq_ok.mp h
    cases h
    exact ⟨eachLevel_valid_finish e e' hes.1 he, eachLevelAll_valid_finishAll es rest hes.2 hrest⟩

end

end SelectEntry

namespace Parts

variable {p : Parts} {ast : Ast} {es finished : List SelectEntry}

/-- Parts without a select list have no entries. -/
theorem finished_of_select_none (hselect : p.select = none) (hes : p.entries = .ok es)
    (h : finishAll p.metadata.handling (fillJoinsAll es) = .ok finished) : finished = [] := by
  obtain ⟨distinct, hdistinct, rfl, -, -⟩ := entries_eq_mapLevelsAll hes
  rw [hselect] at hdistinct
  cases hdistinct
  cases h
  rfl

/-- The test that a column is null. -/
def nullTest (column : String) : FilterEntry :=
  .column column (.ofOperator (.compare .eq none) .null)

/-- Lenient parts with two entries named `a`, columns of embeds that are not there at two levels,
and a select list without its joins. -/
def doubtful (select : Select) : Parts where
  operation := .query
  target := .table "items"
  schema := none
  select := some select.withoutJoins
  filters := {
    root := [.or [[nullTest "k"], [nullTest "q.k"]]]
    embedded := [("a", [.not (nullTest "b.v"), nullTest "c.v"]), ("a.b", [nullTest "v"])] }
  windows := {
    root := { order := [{ column := "a.k" }, { column := "k" }] }
    embedded := [("a", { order := [{ column := "c.v" }], limit := some 1 })] }
  metadata := { handling := .lenient }
  call := none
  conflict := none
  values := none

end Parts

end RestQuery
