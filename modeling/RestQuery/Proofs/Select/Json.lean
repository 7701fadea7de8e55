import RestQuery.Proofs.Select.Agreement
import RestQuery.Proofs.Json.Same
import RestQuery.Proofs.Select.Reading

/-!
# The JSON of a select list tells what the list is

Of a select list that is read, everything can be told from its JSON and that of its joins, even if
the order of members is lost: kinds, names, paths, casts, aggregates, joins and the lists in embeds.
The one exception is a column that is named with the star, which is written as all columns are.
-/

namespace RestQuery

open Json (Same field?)

/-! ## The star -/

mutual

/-- An entry in which columns named with the star are all columns. -/
def SelectEntry.starred : SelectEntry → SelectEntry
  | .wildcard => .wildcard
  | .column name => if name = "*" then .wildcard else .column name
  | .field f => .field f
  | .embed name spread clauses entries joins =>
    .embed name spread clauses (SelectEntry.starredAll entries) joins

/-- Entries in which columns named with the star are all columns. -/
def SelectEntry.starredAll : List SelectEntry → List SelectEntry
  | [] => []
  | e :: rest => e.starred :: SelectEntry.starredAll rest

end

/-- A select list in which columns named with the star are all columns, at every level. -/
def Select.starred (t : Select) : Select := { t with entries := SelectEntry.starredAll t.entries }

mutual

theorem SelectEntry.toJson_starred : ∀ e : SelectEntry, e.starred.toJson = e.toJson
  | .wildcard => rfl
  | .column name => by
    unfold starred
    split
    · next hname => rw [hname, toJson, toJson]
    · rfl
  | .field f => rfl
  | .embed name spread clauses entries joins => by
    rw [starred, toJson, toJson, SelectEntry.toJsonAll_starredAll entries]

theorem SelectEntry.toJsonAll_starredAll : ∀ entries : List SelectEntry,
    SelectEntry.toJsonAll (SelectEntry.starredAll entries) = SelectEntry.toJsonAll entries
  | [] => rfl
  | e :: rest => by
    rw [starredAll, toJsonAll, toJsonAll, SelectEntry.toJson_starred e,
      SelectEntry.toJsonAll_starredAll rest]

end

/-! ## Fields -/

theorem PathKey.eq_of_same (k k' : PathKey) (h : Same k.toJson k'.toJson) : k = k' := by
  cases k with
  | key name =>
    cases k' with
    | key name' => rw [h.str_inj]
    | index n => cases h
  | index n =>
    cases k' with
    | key name => cases h
    | index n' =>
      cases h
      rfl

theorem Aggregate.eq_of_same (a a' : Aggregate) (h : Same (.str a.name) (.str a'.name)) :
    a = a' := by
  have hname := h.str_inj
  cases a <;> cases a' <;> first | rfl | exact absurd hname (by decide)

/-- What the object of a field has under its names. -/
theorem Field.field?_toJson (f : Field) :
    field? "column" f.toJson = f.column.map .str ∧
    field? "path" f.toJson =
      (if f.path ≠ [] then some (.arr (f.path.map PathKey.toJson)) else none) ∧
    field? "pathAsText" f.toJson = (if f.pathAsText = true then some (.bool true) else none) ∧
    field? "preCast" f.toJson = f.preCast.map .str ∧
    field? "aggregate" f.toJson = f.aggregate.map (fun a => .str a.name) ∧
    field? "cast" f.toJson = f.cast.map .str ∧
    field? "select" f.toJson = none := by
  simp [Field.toJson, Json.field?_append, Json.field?_optionalMember, Json.field?_listMember,
    Json.field?_flagMember]

theorem Field.eq_of_same {f g : Field} (hname : f.name = g.name) (h : Same f.toJson g.toJson) :
    f = g := by
  obtain ⟨hcolumn, hpath, htext, hpre, haggregate, hcast, -⟩ := f.field?_toJson
  obtain ⟨hcolumn', hpath', htext', hpre', haggregate', hcast', -⟩ := g.field?_toJson
  have htexts (a b : String) (h : Same (.str a) (.str b)) : a = b := h.str_inj
  have hcolumns := Json.eq_of_rel_map htexts (hcolumn ▸ hcolumn' ▸ h.field? "column")
  have hpaths := Json.eq_of_rel_list PathKey.eq_of_same (hpath ▸ hpath' ▸ h.field? "path")
  have htext := Json.eq_of_rel_flag (htext ▸ htext' ▸ h.field? "pathAsText")
  have hpre := Json.eq_of_rel_map htexts (hpre ▸ hpre' ▸ h.field? "preCast")
  have haggregates := Json.eq_of_rel_map Aggregate.eq_of_same
    (haggregate ▸ haggregate' ▸ h.field? "aggregate")
  have hcasts := Json.eq_of_rel_map htexts (hcast ▸ hcast' ▸ h.field? "cast")
  cases f
  cases g
  simp_all

/-! ## Joins -/

theorem JoinType.eq_of_same (a b : JoinType) (h : Same (.str a.name) (.str b.name)) : a = b := by
  have hname := h.str_inj
  cases a <;> cases b <;> first | rfl | exact absurd hname (by decide)

theorem Join.eq_of_same (a b : Join) (h : Same a.toJson b.toJson) : a = b := by
  have hmembers (j : Join) : field? "table" j.toJson = some (.str j.table) ∧
      field? "type" j.toJson = some (.str j.type.name) ∧
      field? "hint" j.toJson = j.hint.map .str := by
    simp [Join.toJson, Json.field?_obj_cons, Json.field?_optionalMember]
  obtain ⟨htable, htype, hhint⟩ := hmembers a
  obtain ⟨htable', htype', hhint'⟩ := hmembers b
  have htexts (a b : String) (h : Same (.str a) (.str b)) : a = b := h.str_inj
  have htables := (Json.same_of_rel_some (htable ▸ htable' ▸ h.field? "table")).str_inj
  have htypes := JoinType.eq_of_same a.type b.type
    (Json.same_of_rel_some (htype ▸ htype' ▸ h.field? "type"))
  have hhints := Json.eq_of_rel_map htexts (hhint ▸ hhint' ▸ h.field? "hint")
  cases a
  cases b
  simp_all

theorem Joins.field?_toJson (joins : Joins) (name : String) :
    field? name (Joins.toJson joins) = (Keyed.find? joins name).map Join.toJson := by
  unfold Joins.toJson
  induction joins with
  | nil => rfl
  | cons p joins ih =>
    rw [List.map_cons, Json.field?_obj_cons, Keyed.find?_cons, ih]
    split <;> rfl

/-- Joins are told from their JSON, since their order is that of their names. -/
theorem Joins.eq_of_same {joins joins' : Joins} (ha : Keyed.Ascending joins)
    (ha' : Keyed.Ascending joins') (h : Same (Joins.toJson joins) (Joins.toJson joins')) :
    joins = joins' := by
  refine Keyed.ext_find? ha ha' fun name => ?_
  have hname := h.field? name
  rw [Joins.field?_toJson, Joins.field?_toJson] at hname
  exact Json.eq_of_rel_map Join.eq_of_same hname

theorem Joins.field?_toMember (joins : Joins) (key : String) :
    field? key (.obj (Joins.toMember joins)) =
      if "join" = key ∧ joins ≠ [] then some (Joins.toJson joins) else none := by
  cases joins with
  | nil => simp [Joins.toMember]
  | cons p joins => simp [Joins.toMember, Json.field?_obj_cons]

/-! ## Entries -/

namespace SelectEntry

/-- The object of an embed that has no clauses yet, without its name. -/
def embedBody (spread : Bool) (entries : List SelectEntry) (joins : Joins) : Json :=
  .obj (("select", .arr (SelectEntry.toJsonAll entries))
    :: (flagMember "spread" spread ++ Joins.toMember joins))

theorem toJson_embed {name : String} {spread : Bool} {entries : List SelectEntry} {joins : Joins} :
    (SelectEntry.embed name spread {} entries joins).toJson =
      .obj [(name, embedBody spread entries joins)] := by
  rw [toJson]
  rfl

/-- What the object of such an embed has under its names. -/
theorem field?_embedBody (spread : Bool) (entries : List SelectEntry) (joins : Joins) :
    field? "select" (embedBody spread entries joins) = some (.arr (toJsonAll entries)) ∧
    field? "spread" (embedBody spread entries joins) =
      (if spread = true then some (.bool true) else none) ∧
    field? "join" (embedBody spread entries joins) =
      (if joins ≠ [] then some (Joins.toJson joins) else none) := by
  simp [embedBody, Json.field?_obj_cons, Json.field?_append, Json.field?_flagMember,
    Joins.field?_toMember]

/-- An entry is an object with a list under `select` exactly if it is an embed. -/
theorem exists_select_iff (e : SelectEntry) :
    (∃ name body, e.toJson = .obj [(name, body)] ∧ (body.field? "select").isSome = true) ↔
      ∃ name, e.Embeds name := by
  constructor
  · rintro ⟨name, body, he, hselect⟩
    cases e with
    | wildcard => cases he
    | column => cases he
    | field f =>
      rw [toJson] at he
      cases he
      rw [f.field?_toJson.2.2.2.2.2.2] at hselect
      cases hselect
    | embed name spread clauses entries joins => exact ⟨name, _, _, _, _, rfl⟩
  · rintro ⟨name, spread, clauses, entries, joins, rfl⟩
    exact ⟨name, _, by rw [toJson], by simp [Json.field?_obj_cons]⟩

/-- Embeds are told from their JSON if their lists are. -/
theorem embed_eq_of_same {spread spread' : Bool} {entries entries' : List SelectEntry}
    {joins joins' : Joins} (hj : Joins.Declare joins entries) (hj' : Joins.Declare joins' entries')
    (h : Same (embedBody spread entries joins) (embedBody spread' entries' joins')) :
    spread = spread' ∧ joins = joins' ∧
      Same (.arr (toJsonAll entries)) (.arr (toJsonAll entries')) := by
  obtain ⟨hselect, hspread, hjoin⟩ := field?_embedBody spread entries joins
  obtain ⟨hselect', hspread', hjoin'⟩ := field?_embedBody spread' entries' joins'
  have hlists := Json.same_of_rel_some (hselect ▸ hselect' ▸ h.field? "select")
  have hspreads := Json.eq_of_rel_flag (hspread ▸ hspread' ▸ h.field? "spread")
  have hjoins : Option.Rel Same (if joins ≠ [] then some (Joins.toJson joins) else none)
      (if joins' ≠ [] then some (Joins.toJson joins') else none) :=
    hjoin ▸ hjoin' ▸ h.field? "join"
  refine ⟨hspreads, ?_, hlists⟩
  by_cases hempty : joins = []
  · by_cases hempty' : joins' = []
    · rw [hempty, hempty']
    · rw [if_neg (not_not.mpr hempty), if_pos hempty'] at hjoins
      cases hjoins
  · by_cases hempty' : joins' = []
    · rw [if_pos hempty, if_neg (not_not.mpr hempty')] at hjoins
      cases hjoins
    · rw [if_pos hempty, if_pos hempty'] at hjoins
      cases hjoins with
      | some hsame => exact Joins.eq_of_same hj.ascending hj'.ascending hsame

theorem starred_eq_of_toJson_eq_str {e : SelectEntry} {s : String} (h : e.toJson = .str s) :
    e.starred = (if s = "*" then .wildcard else .column s) := by
  cases e with
  | wildcard =>
    cases h
    rfl
  | column name =>
    cases h
    rfl
  | field f => cases h
  | embed name spread clauses entries joins =>
    rw [toJson] at h
    cases h

mutual

theorem starred_eq_of_same : ∀ e e' : SelectEntry, e.WellFormed → e'.WellFormed →
    Same e.toJson e'.toJson → e.starred = e'.starred
  | .wildcard, e', _, _, h => by
    have he' : e'.toJson = .str "*" := Same.eq_str h
    rw [starred_eq_of_toJson_eq_str he']
    rfl
  | .column name, e', _, _, h => by
    have he' : e'.toJson = .str name := Same.eq_str h
    rw [starred_eq_of_toJson_eq_str he', starred]
  | .field f, e', _, he', h => by
    rw [toJson] at h
    cases e' with
    | wildcard => exact absurd h Same.not_obj_str
    | column name' => exact absurd h Same.not_obj_str
    | field g =>
      obtain ⟨hname, hbody⟩ := h.singleton
      rw [Field.eq_of_same hname hbody]
    | embed name' spread' clauses' entries' joins' =>
      obtain ⟨-, rfl, -, -⟩ := he'
      rw [toJson_embed] at h
      obtain ⟨-, hbody⟩ := h.singleton
      have hselect := hbody.isSome_field? "select"
      rw [f.field?_toJson.2.2.2.2.2.2, (field?_embedBody spread' entries' joins').1] at hselect
      cases hselect
  | .embed name spread clauses entries joins, e', he, he', h => by
    obtain ⟨-, rfl, hdeclare, hentries⟩ := he
    rw [toJson_embed] at h
    cases e' with
    | wildcard => exact absurd h Same.not_obj_str
    | column name' => exact absurd h Same.not_obj_str
    | field f =>
      obtain ⟨-, hbody⟩ := h.singleton
      have hselect := hbody.isSome_field? "select"
      rw [f.field?_toJson.2.2.2.2.2.2, (field?_embedBody spread entries joins).1] at hselect
      cases hselect
    | embed name' spread' clauses' entries' joins' =>
      obtain ⟨-, rfl, hdeclare', hentries'⟩ := he'
      rw [toJson_embed] at h
      obtain ⟨rfl, hbody⟩ := h.singleton
      obtain ⟨rfl, rfl, hlists⟩ := embed_eq_of_same hdeclare hdeclare' hbody
      have hstarred := starredAll_eq_of_same entries entries' hentries hentries' hlists.items
      rw [starred, starred, hstarred]

theorem starredAll_eq_of_same : ∀ es es' : List SelectEntry, WellFormedAll es → WellFormedAll es' →
    List.Forall₂ Same (toJsonAll es) (toJsonAll es') → starredAll es = starredAll es'
  | [], es', _, _, h => by
    cases es' with
    | nil => rfl
    | cons e' es' => cases h
  | e :: es, es', hes, hes', h => by
    cases es' with
    | nil => cases h
    | cons e' es' =>
      cases h with
      | cons hfirst hrest =>
        rw [starredAll, starredAll, starred_eq_of_same e e' hes.1 hes'.1 hfirst,
          starredAll_eq_of_same es es' hes.2 hes'.2 hrest]

end

end SelectEntry

namespace Select

/-- Of two select lists that are read the JSON of the entries and that of the joins are the same, up
to the order of members, exactly if the lists are equal once the columns named with the star are all
columns; then the JSON is even equal. An entry is an object with a list under `select` exactly if it
is an embed. -/
theorem same_toJson_iff {t t' : Select} {s s' : List Char} {maxDepth maxDepth' : Nat}
    (h : parse maxDepth s = .ok t) (h' : parse maxDepth' s' = .ok t') :
    (Same (.arr (SelectEntry.toJsonAll t.entries)) (.arr (SelectEntry.toJsonAll t'.entries)) ∧
        Same (Joins.toJson t.joins) (Joins.toJson t'.joins) ↔ t.starred = t'.starred) ∧
      (t.starred = t'.starred → SelectEntry.toJsonAll t.entries = SelectEntry.toJsonAll t'.entries ∧
        Joins.toJson t.joins = Joins.toJson t'.joins) ∧
      ∀ e : SelectEntry, (∃ name body, e.toJson = .obj [(name, body)] ∧
        (body.field? "select").isSome = true) ↔ ∃ name, e.Embeds name := by
  obtain ⟨ht, -⟩ := parse_within h
  obtain ⟨ht', -⟩ := parse_within h'
  have hequal : t.starred = t'.starred →
      SelectEntry.toJsonAll t.entries = SelectEntry.toJsonAll t'.entries ∧
        Joins.toJson t.joins = Joins.toJson t'.joins := by
    intro hstarred
    have hentries : SelectEntry.starredAll t.entries = SelectEntry.starredAll t'.entries :=
      congrArg Select.entries hstarred
    have hjoins : t.starred.joins = t'.starred.joins := congrArg Select.joins hstarred
    rw [← SelectEntry.toJsonAll_starredAll t.entries, hentries,
      SelectEntry.toJsonAll_starredAll]
    exact ⟨rfl, congrArg Joins.toJson hjoins⟩
  refine ⟨⟨?_, fun hstarred => ?_⟩, hequal, SelectEntry.exists_select_iff⟩
  · rintro ⟨hlists, hjoins⟩
    have hentries := SelectEntry.starredAll_eq_of_same t.entries t'.entries ht.entries ht'.entries
      hlists.items
    have hjoins := Joins.eq_of_same ht.declare.ascending ht'.declare.ascending hjoins
    unfold starred
    rw [hentries, hjoins]
  · obtain ⟨hentries, hjoins⟩ := hequal hstarred
    exact ⟨.of_eq (by rw [hentries]), .of_eq hjoins⟩

/-- A column named with the star is not told from the wildcard, in an embed either, but the key `0`
is told from the index. -/
theorem same_toJson_iff_star :
    ∃ t t' t'' : Select, parse 16 "a!inner(\"*\",x->\"0\")".toList = .ok t ∧
      parse 16 "a!inner(*,x->\"0\")".toList = .ok t' ∧
      parse 16 "a!inner(*,x->0)".toList = .ok t'' ∧
      Same (.arr (SelectEntry.toJsonAll t.entries)) (.arr (SelectEntry.toJsonAll t'.entries)) ∧
      ¬ (Same (.arr (SelectEntry.toJsonAll t.entries)) (.arr (SelectEntry.toJsonAll t''.entries)) ∧
        Same (Joins.toJson t.joins) (Joins.toJson t''.joins)) := by
  have hkey : parse 16 "a!inner(\"*\",x->\"0\")".toList =
      .ok ⟨[.embed "a" false {} [.column "*",
        .field { name := "0", column := some "x", path := [.key "0"] }] []],
        [("a", { table := "a", type := .inner })]⟩ :=
    parse_eq_of_agrees (by decide +kernel)
  have hstar : parse 16 "a!inner(*,x->\"0\")".toList =
      .ok ⟨[.embed "a" false {} [.wildcard,
        .field { name := "0", column := some "x", path := [.key "0"] }] []],
        [("a", { table := "a", type := .inner })]⟩ :=
    parse_eq_of_agrees (by decide +kernel)
  have hindex : parse 16 "a!inner(*,x->0)".toList =
      .ok ⟨[.embed "a" false {} [.wildcard,
        .field { name := "x", column := some "x", path := [.index 0] }] []],
        [("a", { table := "a", type := .inner })]⟩ :=
    parse_eq_of_agrees (by decide +kernel)
  refine ⟨_, _, _, hkey, hstar, hindex, ((same_toJson_iff hkey hstar).1.mpr rfl).1, fun h => ?_⟩
  have hstarred := (same_toJson_iff hkey hindex).1.mp h
  simp [starred, SelectEntry.starredAll, SelectEntry.starred] at hstarred

end Select

end RestQuery
