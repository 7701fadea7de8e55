import RestQuery.Proofs.Metadata.Interleaving
import RestQuery.Proofs.Metadata.Preferences
import RestQuery.Proofs.Query.Windows

/-!
# What is refused leaves no trace

A lenient query goes on after an invalid preference, form of the answer, list of columns or clause
as if it had not been there: the metadata and the windows are those of the strict query without what
is refused. So nothing that stood before is lost, and of a value with an invalid part no other part
is taken.
-/

namespace RestQuery

/-! ## Metadata -/

namespace Metadata

/-- Whether a step adds to the metadata. Which ones they are does not matter
(`isOk_eq_taken`). -/
def taken (step : Step) : Bool := (step.run {}).1.isOk

/-- A step is refused whatever the metadata are or not at all, and where it is refused it leaves the
metadata as they were. -/
structure LeavesNoTrace (step : Step) : Prop where
  /-- Whether it is refused does not hang on the metadata. -/
  isOk_eq_taken : ∀ m, (step.run m).1.isOk = taken step
  /-- Where it is refused it has changed nothing. -/
  unchanged : ∀ m, taken step = false → (step.run m).2 = m

variable {Change : (Metadata → Metadata) → Prop} {step : Step} {ctx : Context}
  {operation : Operation}

theorem Decided.leavesNoTrace (h : Decided Change step) : LeavesNoTrace step := by
  have hsame (m : Metadata) : (step.run m).1.isOk = taken step := by
    unfold taken
    cases h with
    | refused cause h => rw [h, h]
    | changes f hf h => rw [h, h]
  refine ⟨hsame, fun m htaken => ?_⟩
  have hrefused : (step.run m).1.isOk = false := (hsame m).trans htaken
  cases herror : (step.run m).1 with
  | error e => exact h.unchanged_of_error herror
  | ok _ =>
    rw [herror] at hrefused
    cases hrefused

/-- What is taken is taken under both handlings. -/
theorem Decided.attempt_of_taken (h : Decided Change step) (htaken : taken step = true)
    (m : Metadata) :
    ∃ m', attempt .strict step m = .ok m' ∧ attempt .lenient step m = .ok m' := by
  obtain ⟨_, hok⟩ := exists_eq_ok ((h.leavesNoTrace.isOk_eq_taken m).trans htaken)
  exact ⟨(step.run m).2, attempt_of_ok .strict hok, h.attempt_lenient m⟩

/-- What is refused is passed over, and a lenient query goes on with the metadata as they were. -/
theorem Decided.attempt_of_not_taken (h : Decided Change step) (htaken : taken step = false)
    (m : Metadata) : attempt .lenient step m = .ok m := by
  rw [h.attempt_lenient, h.leavesNoTrace.unchanged m htaken]

theorem Decided.attemptWith {step : String → Step} (h : ∀ s, Decided Change (step s))
    (s : Option String) (m : Metadata) :
    ∃ m', attemptWith .strict step (s.filter fun s => taken (step s)) m = .ok m' ∧
      attemptWith .lenient step s m = .ok m' := by
  cases s with
  | none => exact ⟨m, rfl, rfl⟩
  | some s =>
    cases htaken : taken (step s) with
    | true =>
      rw [Option.filter_some, htaken, if_pos rfl]
      exact (h s).attempt_of_taken htaken m
    | false =>
      rw [Option.filter_some, htaken, if_neg Bool.false_ne_true]
      exact ⟨m, rfl, (h s).attempt_of_not_taken htaken m⟩

theorem taken_addColumns (operation : Operation) (columns : String) :
    taken (addColumns operation columns) = operation.isInsertLike := by
  unfold taken addColumns
  cases operation.isInsertLike <;> rfl

end Metadata

open Metadata in
/-- The context without the preferences, the form of the answer and the columns that the metadata of
an operation are refused. -/
def Context.withoutRefused (operation : Operation) (ctx : Context) : Context :=
  { ctx with
    negotiation := { ctx.negotiation with
      preferences := ctx.negotiation.preferences.filter fun p => taken (addPreference p)
      accept := ctx.negotiation.accept.filter fun accept => taken (addAccept accept) }
    params :=
      if operation.isInsertLike then ctx.params else ctx.params.filter (·.1 ≠ "columns") }

namespace Metadata

variable {ctx : Context} {operation : Operation}

theorem last?_withoutRefused : Params.last? (ctx.withoutRefused operation).params "columns" =
    (Params.last? ctx.params "columns").filter fun columns =>
      taken (addColumns operation columns) := by
  simp only [taken_addColumns, Context.withoutRefused]
  cases operation.isInsertLike with
  | true =>
    rw [if_pos rfl]
    cases Params.last? ctx.params "columns" <;> rfl
  | false =>
    have hnone : Params.all (ctx.params.filter (·.1 ≠ "columns")) "columns" = [] := by
      unfold Params.all
      rw [List.filter_filter, List.map_eq_nil_iff, List.filter_eq_nil_iff]
      simp
    unfold Params.last?
    rw [if_neg Bool.false_ne_true, hnone]
    simp

/-- What a lenient query adds to metadata the strict one adds without what is refused. -/
theorem addAll_withoutRefused (ctx : Context) (operation : Operation) (m : Metadata) :
    ∃ m', addAll ((ctx.withoutRefused operation).withHandling .strict) operation m = .ok m' ∧
      addAll (ctx.withHandling .lenient) operation m = .ok m' := by
  have hpreferences : ∃ m₁ m₁',
      (ctx.negotiation.preferences.filter fun p => taken (addPreference p)).foldlM
        (fun m p => attempt .strict (addPreference p) m) m = .ok m₁ ∧
      ctx.negotiation.preferences.foldlM
        (fun m p => attempt .lenient (addPreference p) m) m = .ok m₁' ∧ m₁ = m₁' := by
    refine foldlM_filter ?_ ?_ rfl
    · rintro m _ p - htaken rfl
      obtain ⟨m', hstrict, hlenient⟩ := (decided_addPreference p).attempt_of_taken htaken m
      exact ⟨m', m', hstrict, hlenient, rfl⟩
    · rintro m _ p - htaken rfl
      exact ⟨m, (decided_addPreference p).attempt_of_not_taken htaken m, rfl⟩
  obtain ⟨m₁, _, hstrict₁, hlenient₁, rfl⟩ := hpreferences
  obtain ⟨m₂, hstrict₂, hlenient₂⟩ :=
    Decided.attemptWith decided_addAccept ctx.negotiation.accept m₁
  obtain ⟨m₃, hstrict₃, hlenient₃⟩ :=
    Decided.attemptWith (decided_addColumns operation) (Params.last? ctx.params "columns") m₂
  refine ⟨m₃, ?_, ?_⟩
  · refine bind_eq_ok.mpr ⟨m₁, hstrict₁, bind_eq_ok.mpr ⟨m₂, hstrict₂, ?_⟩⟩
    rw [← last?_withoutRefused] at hstrict₃
    exact hstrict₃
  · exact bind_eq_ok.mpr ⟨m₁, hlenient₁, bind_eq_ok.mpr ⟨m₂, hlenient₂, hlenient₃⟩⟩

/-- The metadata of a lenient query are those of the strict one without what is refused, which
succeeds, up to the handling that they say. -/
theorem ofContext_withoutRefused (ctx : Context) (operation : Operation) :
    ∃ m, ofContext ((ctx.withoutRefused operation).withHandling .strict) operation = .ok m ∧
      ofContext (ctx.withHandling .lenient) operation = .ok (m.withHandling .lenient) := by
  obtain ⟨m, hstrict, hlenient⟩ :=
    addAll_withoutRefused ctx operation { head := ctx.method = .head }
  refine ⟨m.withHandling .strict, ?_, ?_⟩
  · have hstart := addAll_withHandling (h := .strict)
      ((ctx.withoutRefused operation).withHandling .strict) operation
      { head := ctx.method = .head }
    rw [hstrict] at hstart
    exact hstart
  · have hstart := addAll_withHandling (h := .lenient) (ctx.withHandling .lenient) operation
      { head := ctx.method = .head }
    rw [hlenient] at hstart
    exact hstart

end Metadata

/-! ## Windows -/

namespace OrderTerm

/-- A term of a sort order that cannot be read is malformed or invalid. -/
theorem parse_error {s : List Char} {e : Error} (h : parse s = .error e) :
    e.kind = .parse ∨ ∃ cause, e = .invalid cause := by
  have hwords (words : List (List Char)) (ws : Words) :
      OnlyInvalid (ws.addAll s words) := by
    induction words generalizing ws with
    | nil => exact .ok ws
    | cons word words ih =>
      unfold Words.addAll
      split
      · exact ih _
      · exact .invalid _
  unfold parse at h
  dsimp only at h
  split at h
  · cases h
    exact .inl rfl
  · split at h
    · cases h
      exact .inr ⟨_, rfl⟩
    · split at h
      · cases h
        exact .inr ⟨_, rfl⟩
      · split at h
        · next hadd =>
          cases h
          exact .inr (hwords _ _ _ hadd)
        · cases h

theorem parseEach_error {pieces : List (List Char)} {e : Error} (h : parseEach pieces = .error e) :
    e.kind = .parse ∨ ∃ cause, e = .invalid cause := by
  induction pieces with
  | nil => cases h
  | cons s pieces ih =>
    unfold parseEach at h
    split at h
    · next hfirst =>
      cases h
      exact parse_error hfirst
    · split at h
      · next hrest =>
        cases h
        exact ih hrest
      · cases h

/-- A sort order that cannot be read is malformed or invalid. -/
theorem parseAll_error {s : List Char} {e : Error} (h : parseAll s = .error e) :
    e.kind = .parse ∨ ∃ cause, e = .invalid cause := by
  unfold parseAll at h
  split at h
  · cases h
  · split at h
    · cases h
      exact .inl rfl
    · exact parseEach_error h

end OrderTerm

namespace Windows

/-- Whether the value of a clause can be read. -/
def reads (c : Clause) (key value : String) : Bool :=
  match c with
  | .order => (OrderTerm.parseAll value.toList).isOk
  | .limit | .offset => (readCount key value).isOk

/-- Whether a parameter is no clause, or a clause of a level that is there with a value that can be
read. -/
def takes (ctx : Context) (param : String × String) : Bool :=
  match ParamKey.classify param.1 with
  | .clause path c => path.all ctx.hasEmbed && reads c param.1 param.2
  | _ => true

/-- Whether no sort order of the parameters is malformed. -/
def WellFormedOrders (params : Params) : Prop :=
  ∀ param ∈ params, ∀ path, ParamKey.classify param.1 = .clause path .order →
    ∀ e, OrderTerm.parseAll param.2.toList = .error e → e.kind ≠ .parse

variable {ctx : Context} {c : Clause} {key value : String} {ws ws' : Windows}

theorem onlyInvalid_readCount (key value : String) : OnlyInvalid (readCount key value) := by
  unfold readCount
  split
  · exact .ok _
  · exact .invalid _

/-- A value that can be read changes the windows in one way under both handlings. -/
theorem change_of_reads (h : reads c key value = true) :
    ∃ f, ∀ handling, change handling c key value = .ok f := by
  unfold change
  cases c with
  | order =>
    obtain ⟨terms, hcheck⟩ := check_of_isOk h
    exact ⟨fun w => { w with order := w.order ++ terms }, fun handling => by rw [hcheck]; rfl⟩
  | limit =>
    obtain ⟨n, hcheck⟩ := check_of_isOk h
    exact ⟨fun w => { w with limit := some n }, fun handling => by rw [hcheck]; rfl⟩
  | offset =>
    obtain ⟨n, hcheck⟩ := check_of_isOk h
    exact ⟨fun w => { w with offset := some n }, fun handling => by rw [hcheck]; rfl⟩

/-- A value that is invalid changes nothing in a lenient query. -/
theorem change_of_not_reads (h : reads c key value = false)
    (horder : c = .order → OnlyInvalid (OrderTerm.parseAll value.toList)) :
    change .lenient c key value = .ok id := by
  unfold change
  cases c with
  | order =>
    rw [(horder rfl).check_lenient h]
    rfl
  | limit | offset =>
    rw [(onlyInvalid_readCount key value).check_lenient h]
    rfl

/-- Windows that are the same at each level, where a level without a window has the empty one. -/
structure SameWindows (ws ws' : Windows) : Prop where
  /-- The names of the first are in order. -/
  ascending : Keyed.Ascending ws.embedded
  /-- The names of the second are in order. -/
  ascending' : Keyed.Ascending ws'.embedded
  /-- Each level has the same window. -/
  part : ∀ place, ws.part {} place = ws'.part {} place

theorem SameWindows.alter {path : Option String} (h : SameWindows ws ws')
    (f : Window → Window) : SameWindows (ws.alter {} path f) (ws'.alter {} path f) where
  ascending := Routed.ascending_alter h.ascending
  ascending' := Routed.ascending_alter h.ascending'
  part place := by
    rw [Routed.part_alter h.ascending, Routed.part_alter h.ascending', h.part, h.part]

/-- A level that gets a window which is empty has the same window as before. -/
theorem SameWindows.alter_id {path : Option String} (h : SameWindows ws ws') :
    SameWindows ws (ws'.alter {} path id) where
  ascending := h.ascending
  ascending' := Routed.ascending_alter h.ascending'
  part place := by
    rw [Routed.part_alter h.ascending', h.part]
    split
    · next he => rw [he, id]
    · rfl

theorem filter_eq_none_iff {path : Option String} {p : String → Bool} :
    path.filter (fun path => !p path) = none ↔ path.all p = true := by
  cases path with
  | none => simp
  | some path => cases hp : p path <;> simp [Option.filter, hp]

section

variable {path : Option String}

/-- A clause of a level that is there changes the window of the level. -/
theorem addParam_clause {f : Window → Window} (hrole : ParamKey.classify key = .clause path c)
    (hplace : path.all ctx.hasEmbed = true) (hchange : change ctx.handling c key value = .ok f) :
    addParam ctx ws (key, value) = .ok (ws.alter {} path f) := by
  unfold addParam
  dsimp only
  rw [hrole]
  dsimp only
  rw [filter_eq_none_iff.mpr hplace, hchange]
  rfl

/-- A clause of no level is passed over in a lenient query. -/
theorem addParam_clause_not_embedded (hrole : ParamKey.classify key = .clause path c)
    (hplace : path.all ctx.hasEmbed = false) :
    addParam (ctx.withHandling .lenient) ws (key, value) = .ok ws := by
  obtain ⟨missing, hmissing⟩ :
      ∃ missing, path.filter (fun p => !ctx.hasEmbed p) = some missing := by
    refine Option.ne_none_iff_exists'.mp fun hnone => ?_
    rw [filter_eq_none_iff.mp hnone] at hplace
    cases hplace
  unfold addParam
  dsimp only
  rw [hrole]
  simp only [Context.hasEmbed_withHandling, hmissing]
  rfl

theorem addParam_not_clause (hrole : ∀ path c, ParamKey.classify key ≠ .clause path c) :
    addParam ctx ws (key, value) = .ok ws := by
  unfold addParam
  dsimp only
  split
  · next path c hclause => exact absurd hclause (hrole path c)
  · rfl

end

/-- A parameter that is taken makes the same change in a strict and in a lenient query. -/
theorem addParam_of_takes {param : String × String} (htakes : takes ctx param = true)
    (h : SameWindows ws ws') :
    ∃ changed changed', addParam (ctx.withHandling .strict) ws param = .ok changed ∧
      addParam (ctx.withHandling .lenient) ws' param = .ok changed' ∧
      SameWindows changed changed' := by
  obtain ⟨key, value⟩ := param
  unfold takes at htakes
  dsimp only at htakes
  split at htakes
  · next path c hrole =>
    obtain ⟨hplace, hreads⟩ := Bool.and_eq_true_iff.mp htakes
    obtain ⟨f, hf⟩ := change_of_reads hreads
    exact ⟨ws.alter {} path f, ws'.alter {} path f, addParam_clause hrole hplace (hf _),
      addParam_clause hrole hplace (hf _), h.alter f⟩
  · next hrole => exact ⟨ws, ws', addParam_not_clause hrole, addParam_not_clause hrole, h⟩

/-- A parameter that is not taken leaves a lenient query as it was. -/
theorem addParam_of_not_takes {param : String × String} (htakes : takes ctx param = false)
    (horder : ∀ path, ParamKey.classify param.1 = .clause path .order →
      OnlyInvalid (OrderTerm.parseAll param.2.toList))
    (h : SameWindows ws ws') :
    ∃ changed', addParam (ctx.withHandling .lenient) ws' param = .ok changed' ∧
      SameWindows ws changed' := by
  obtain ⟨key, value⟩ := param
  unfold takes at htakes
  dsimp only at htakes
  split at htakes
  · next path c hrole =>
    cases hplace : path.all ctx.hasEmbed with
    | false => exact ⟨ws', addParam_clause_not_embedded hrole hplace, h⟩
    | true =>
      have hreads : reads c key value = false := by
        rw [hplace, Bool.true_and] at htakes
        exact htakes
      have hchange := change_of_not_reads hreads fun hc => horder path (hc ▸ hrole)
      exact ⟨ws'.alter {} path id, addParam_clause hrole hplace hchange, h.alter_id⟩
  · cases htakes

end Windows

/-- The context without the clauses that the windows are refused. -/
def Context.withoutRefusedClauses (ctx : Context) : Context :=
  { ctx with params := ctx.params.filter (Windows.takes ctx) }

namespace Windows

variable {ctx : Context}

/-- The windows of a lenient query are those of the strict one without what is refused, which
succeeds. -/
theorem ofContext_withoutRefused (h : WellFormedOrders ctx.params) :
    ∃ ws ws', ofContext (ctx.withoutRefusedClauses.withHandling .strict) = .ok ws ∧
      ofContext (ctx.withHandling .lenient) = .ok ws' ∧ SameWindows ws ws' := by
  refine foldlM_filter (fun ws ws' param _ htakes hsame => addParam_of_takes htakes hsame)
    (fun ws ws' param hparam htakes hsame => addParam_of_not_takes htakes ?_ hsame)
    ⟨Keyed.ascending_nil, Keyed.ascending_nil, fun _ => rfl⟩
  intro path hrole e he
  exact (OrderTerm.parseAll_error he).resolve_left (h param hparam path hrole e he)

theorem SameWindows.root_eq {ws ws' : Windows} (h : SameWindows ws ws') : ws'.root = ws.root :=
  (h.part none).symm

theorem SameWindows.filter_eq {ws ws' : Windows} (h : SameWindows ws ws') :
    ws'.embedded.filter (·.2 ≠ {}) = ws.embedded.filter (·.2 ≠ {}) :=
  Keyed.filter_ne_eq h.ascending' h.ascending fun n => (h.part (some n)).symm

end Windows

/-! ## Both -/

namespace Context

open Metadata in
/-- A preference, a form of the answer or a list of columns that is refused leaves all metadata as
they were, and whether it is refused does not hang on them. So the metadata of a lenient query are
those that the strict one finds without what is refused, up to the handling that they say. The
windows, where no sort order is malformed, are those that the strict one finds without the clauses
that are refused, but for empty windows of embeds. Both strict queries succeed. -/
theorem lenient_eq_strict_withoutRefused (ctx : Context) (operation : Operation) :
    ((∀ p, LeavesNoTrace (addPreference p)) ∧ (∀ accept, LeavesNoTrace (addAccept accept)) ∧
      ∀ columns, LeavesNoTrace (addColumns operation columns)) ∧
    (∃ m, Metadata.ofContext ((ctx.withoutRefused operation).withHandling .strict) operation =
        .ok m ∧
      Metadata.ofContext (ctx.withHandling .lenient) operation = .ok (m.withHandling .lenient)) ∧
    (Windows.WellFormedOrders ctx.params → ∃ ws ws',
      Windows.ofContext (ctx.withoutRefusedClauses.withHandling .strict) = .ok ws ∧
      Windows.ofContext (ctx.withHandling .lenient) = .ok ws' ∧
      ws'.root = ws.root ∧
      ws'.embedded.filter (·.2 ≠ {}) = ws.embedded.filter (·.2 ≠ {})) := by
  refine ⟨⟨fun p => (decided_addPreference p).leavesNoTrace,
    fun accept => (decided_addAccept accept).leavesNoTrace,
    fun columns => (decided_addColumns operation columns).leavesNoTrace⟩,
    ofContext_withoutRefused ctx operation, fun h => ?_⟩
  obtain ⟨ws, ws', hstrict, hlenient, hsame⟩ := Windows.ofContext_withoutRefused h
  exact ⟨ws, ws', hstrict, hlenient, hsame.root_eq, hsame.filter_eq⟩

/-- What is good comes first: a way to count and a limit. After it come a way to count that there is
none, a preference for an unknown key, a plan with an unknown option, columns of a query that takes
none, a bad limit, a sort order with a bad second term and a clause of no embed. -/
def doubtful : Context where
  method := .get
  target := .table "items"
  negotiation := {
    preferences := [⟨"count", "exact"⟩, ⟨"count", "many"⟩, ⟨"color", "red"⟩]
    accept := some "application/vnd.pgrst.plan+json;options=analyze|loud" }
  params := [("limit", "5"), ("columns", "id"), ("limit", "ten"), ("a.order", "x,y.up"),
    ("ghost.limit", "1")]
  embeds := ["a"]
  payload := none
  handling := .lenient

theorem metadata_doubtful :
    Metadata.ofContext (doubtful.withHandling .lenient) .query = .ok { count := some .exact } := rfl

theorem parseAll_doubtful : OrderTerm.parseAll "x,y.up".toList =
    .error (.invalid (.orderWord "up" "y.up")) := by
  have hcut : Value.splitTopLevel ',' "x,y.up".toList = .ok ["x".toList, "y.up".toList] := by
    decide +kernel
  unfold OrderTerm.parseAll
  rw [hcut]
  rfl

theorem windows_doubtful : Windows.ofContext (doubtful.withHandling .lenient) =
    .ok { root := { limit := some 5 }, embedded := [("a", {})] } := by
  have hgood : Windows.addParam doubtful { root := {} } ("limit", "5") =
      .ok { root := { limit := some 5 } } := rfl
  have hcolumns : Windows.addParam doubtful { root := { limit := some 5 } } ("columns", "id") =
      .ok { root := { limit := some 5 } } := rfl
  have hcount : Windows.addParam doubtful { root := { limit := some 5 } } ("limit", "ten") =
      .ok { root := { limit := some 5 } } := rfl
  have horder : Windows.addParam doubtful { root := { limit := some 5 } } ("a.order", "x,y.up") =
      .ok { root := { limit := some 5 }, embedded := [("a", {})] } := by
    have hrole : ParamKey.classify "a.order" = .clause (some "a") .order := rfl
    have hchange : Windows.change doubtful.handling .order "a.order" "x,y.up" = .ok id := by
      unfold Windows.change
      dsimp only
      rw [parseAll_doubtful]
      rfl
    exact Windows.addParam_clause hrole rfl hchange
  have hplace : Windows.addParam doubtful
      { root := { limit := some 5 }, embedded := [("a", {})] } ("ghost.limit", "1") =
      .ok { root := { limit := some 5 }, embedded := [("a", {})] } := rfl
  show List.foldlM (Windows.addParam doubtful) { root := {} } [("limit", "5"), ("columns", "id"),
    ("limit", "ten"), ("a.order", "x,y.up"), ("ghost.limit", "1")] = _
  simp only [List.foldlM_cons, List.foldlM_nil, hgood, hcolumns, hcount, horder, hplace, ok_bind,
    pure_eq_ok]

open Metadata in
/-- The good way to count and the good limit stand, and nothing is taken of the plan and of the sort
order. -/
theorem lenient_eq_strict_withoutRefused_doubtful :
    Windows.WellFormedOrders doubtful.params ∧
    (addPreference ⟨"count", "many"⟩ |>.run { count := some .exact }).2 =
      { count := some .exact } ∧
    (addAccept "application/vnd.pgrst.plan+json;options=analyze|loud" |>.run {}).2.plan = none ∧
    (doubtful.withoutRefused .query).negotiation = { preferences := [⟨"count", "exact"⟩] } ∧
    (∃ m, Metadata.ofContext ((doubtful.withoutRefused .query).withHandling .strict) .query =
        .ok m ∧
      m.withHandling .lenient = { count := some .exact }) ∧
    ∃ ws, Windows.ofContext (doubtful.withoutRefusedClauses.withHandling .strict) = .ok ws ∧
      ws.root = { limit := some 5 } ∧ ws.embedded.filter (·.2 ≠ {}) = [] := by
  have horders : Windows.WellFormedOrders doubtful.params := by
    intro param hparam path hrole e he
    simp only [doubtful, List.mem_cons, List.not_mem_nil, or_false] at hparam
    rcases hparam with rfl | rfl | rfl | rfl | rfl
    · cases hrole
    · cases hrole
    · cases hrole
    · rw [parseAll_doubtful] at he
      cases he
      decide
    · cases hrole
  obtain ⟨⟨hpreference, haccept, -⟩, hmetadata, hwindows⟩ :=
    lenient_eq_strict_withoutRefused doubtful .query
  have hcount := (hpreference ⟨"count", "many"⟩).unchanged { count := some .exact } rfl
  have hplan := (haccept "application/vnd.pgrst.plan+json;options=analyze|loud").unchanged {} rfl
  obtain ⟨m, hmstrict, hmlenient⟩ := hmetadata
  rw [metadata_doubtful] at hmlenient
  obtain ⟨ws, ws', hstrict, hlenient, hroot, hembedded⟩ := hwindows horders
  rw [windows_doubtful] at hlenient
  cases hlenient
  exact ⟨horders, hcount, by rw [hplan], rfl, ⟨m, hmstrict, (Except.ok.inj hmlenient).symm⟩,
    ws, hstrict, hroot.symm, hembedded.symm⟩

end Context

end RestQuery
