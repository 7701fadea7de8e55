import RestQuery.Proofs.Ast.Assembly
import RestQuery.Proofs.Metadata.Preferences
import RestQuery.Proofs.Query.Filters
import RestQuery.Proofs.Query.Windows
import RestQuery.Proofs.Select.Agreement
import RestQuery.Request

/-!
# Requests under both handlings

Lenient handling changes only what strict handling refuses: a tree that is found strictly is found
leniently, with the other handling in its metadata. What a lenient run still refuses as invalid are
parts for embeds that cannot be found, and nothing else.
-/

namespace RestQuery

/-- The configuration with another handling. -/
def Config.withHandling (h : Handling) (c : Config) : Config := { c with handling := h }

namespace Request

open Relaxes

variable {config : Config} {r : Request} {ctx : Context} {select : Option Select} {p : Parts}
  {ast : Ast} {h : Handling}

/-! ## Reading -/

/-- A request that has no preference for a handling. -/
def LeavesHandling (r : Request) : Prop :=
  ∀ prefer, r.headers.all "prefer" = .ok prefer →
    ∀ p ∈ prefer.flatMap Http.Preference.parseAll, p.key ≠ "handling"

/-- The handling of a request that has no preference for one is that of the configuration. -/
theorem ofNegotiation_eq_handling (hr : r.LeavesHandling) {n : Http.Negotiation}
    (hn : Http.Negotiation.ofHeaders config r.method r.headers = .ok n) :
    Handling.ofNegotiation config n = .ok config.handling := by
  unfold Http.Negotiation.ofHeaders at hn
  obtain ⟨profile, -, hn⟩ := bind_eq_ok.mp hn
  obtain ⟨schema, -, hn⟩ := bind_eq_ok.mp hn
  obtain ⟨prefer, hprefer, hn⟩ := bind_eq_ok.mp hn
  obtain ⟨accept, -, hn⟩ := bind_eq_ok.mp hn
  cases hn
  have hnone : (prefer.flatMap Http.Preference.parseAll).reverse.find? (·.key = "handling") =
      none := by
    rw [List.find?_eq_none]
    intro p hp
    simpa using hr prefer hprefer p (List.mem_reverse.mp hp)
  unfold Handling.ofNegotiation Http.Negotiation.preference?
  rw [hnone]
  rfl

/-- Such a request is read alike under every handling of the configuration, up to the handling. -/
theorem read_withHandling (hr : r.LeavesHandling)
    (hread : r.read (config.withHandling h) = .ok (ctx, select)) (h' : Handling) :
    ctx = ctx.withHandling h ∧
      r.read (config.withHandling h') = .ok (ctx.withHandling h', select) := by
  unfold read at hread ⊢
  obtain ⟨url, hurl, hread⟩ := bind_eq_ok.mp hread
  obtain ⟨contentType, hcontentType, hread⟩ := bind_eq_ok.mp hread
  obtain ⟨target, htarget, hread⟩ := bind_eq_ok.mp hread
  obtain ⟨negotiation, hnegotiation, hread⟩ := bind_eq_ok.mp hread
  obtain ⟨select', hselect, hread⟩ := bind_eq_ok.mp hread
  obtain ⟨payload, hpayload, hread⟩ := bind_eq_ok.mp hread
  -- The handling comes last; nothing before it looks at that of the configuration.
  rw [ofNegotiation_eq_handling hr hnegotiation, ok_bind] at hread
  cases hread
  refine ⟨rfl, ?_⟩
  have hnegotiation' : Http.Negotiation.ofHeaders (config.withHandling h') r.method r.headers =
      .ok negotiation := hnegotiation
  rw [hurl, ok_bind, hcontentType, ok_bind]
  refine bind_eq_ok.mpr ⟨target, htarget, bind_eq_ok.mpr ⟨negotiation, hnegotiation', ?_⟩⟩
  refine bind_eq_ok.mpr ⟨select, hselect, bind_eq_ok.mpr ⟨payload, hpayload, ?_⟩⟩
  rw [ofNegotiation_eq_handling hr hnegotiation']
  rfl

/-! ## Parts -/

theorem relaxes_callOf (ctx : Context) (operation : Operation) :
    Relaxes (callOf (ctx.withHandling .strict) operation)
      (callOf (ctx.withHandling .lenient) operation) :=
  ite Iff.rfl ((Call.relaxes_ofContext ctx).map some) (ok none)

/-- All that the parts of a query are made of. -/
theorem parts_eq_ok :
    parts ctx select = .ok p ↔ ∃ operation filters windows metadata call,
      Operation.ofContext ctx = .ok operation ∧ Filters.ofContext ctx = .ok filters ∧
      Windows.ofContext ctx = .ok windows ∧ Metadata.ofContext ctx operation = .ok metadata ∧
      callOf ctx operation = .ok call ∧
      p = {
        operation, target := ctx.target, schema := ctx.negotiation.schema, select, filters, windows
        metadata, call
        conflict := if operation = .upsert then some (Conflict.ofContext ctx) else none
        values := valuesOf operation ctx.payload } := by
  unfold parts
  constructor
  · intro hp
    obtain ⟨operation, hoperation, hp⟩ := bind_eq_ok.mp hp
    obtain ⟨filters, hfilters, hp⟩ := bind_eq_ok.mp hp
    obtain ⟨windows, hwindows, hp⟩ := bind_eq_ok.mp hp
    obtain ⟨metadata, hmetadata, hp⟩ := bind_eq_ok.mp hp
    obtain ⟨call, hcall, hp⟩ := bind_eq_ok.mp hp
    cases hp
    exact ⟨operation, filters, windows, metadata, call, hoperation, hfilters, hwindows, hmetadata,
      hcall, rfl⟩
  · rintro ⟨operation, filters, windows, metadata, call, hoperation, hfilters, hwindows, hmetadata,
      hcall, rfl⟩
    rw [hoperation, ok_bind, hfilters, ok_bind, hwindows, ok_bind, hmetadata, ok_bind, hcall,
      ok_bind]
    rfl

/-- The parts of a strict run are those of the lenient one, up to the handling that they say. -/
theorem parts_withHandling (hp : parts (ctx.withHandling .strict) select = .ok p) :
    p = p.withHandling .strict ∧
      parts (ctx.withHandling .lenient) select = .ok (p.withHandling .lenient) := by
  obtain ⟨operation, filters, windows, metadata, call, hoperation, hfilters, hwindows, hmetadata,
    hcall, rfl⟩ := parts_eq_ok.mp hp
  have hword : metadata.handling = .strict := Metadata.handling_ofContext hmetadata
  have hmetadata' : Metadata.ofContext (ctx.withHandling .lenient) operation =
      .ok (metadata.withHandling .lenient) := by
    refine (Metadata.relaxes_ofContext ctx operation).keeps _ ?_
    rw [hmetadata]
    rfl
  refine ⟨?_, parts_eq_ok.mpr ?_⟩
  · unfold Parts.withHandling
    rw [← hword]
  · have hoperation' := (relaxes_operation ctx).keeps _ hoperation
    have hfilters' := (Filters.relaxes_ofContext ctx).keeps _ hfilters
    have hwindows' := (Windows.relaxes_ofContext ctx).keeps _ hwindows
    have hcall' := (relaxes_callOf ctx operation).keeps _ hcall
    exact ⟨operation, filters, windows, metadata.withHandling .lenient, call, hoperation',
      hfilters', hwindows', hmetadata', hcall', rfl⟩

theorem forgives_parts (ctx : Context) (select : Option Select) :
    Forgives (parts (ctx.withHandling .lenient) select) :=
  (relaxes_operation ctx).forgives.bind fun operation =>
    (Filters.relaxes_ofContext ctx).forgives.bind fun _ =>
      (Windows.relaxes_ofContext ctx).forgives.bind fun _ =>
        (Metadata.relaxes_ofContext ctx operation).forgives.bind fun _ =>
          (relaxes_callOf ctx operation).forgives.bind fun _ => .ok _

theorem select_parts (hp : parts ctx select = .ok p) :
    p.select = select ∧ p.metadata.handling = ctx.handling := by
  obtain ⟨_, _, _, _, _, -, -, -, hmetadata, -, rfl⟩ := parts_eq_ok.mp hp
  exact ⟨rfl, Metadata.handling_ofContext hmetadata⟩

theorem hasEmbed_of_addressed (hp : parts ctx select = .ok p) :
    ∀ path ∈ p.addressed, ctx.hasEmbed path = true := by
  obtain ⟨_, _, _, _, _, -, hfilters, hwindows, -, -, rfl⟩ := parts_eq_ok.mp hp
  intro path hpath
  rcases List.mem_append.mp hpath with hmem | hmem
  · obtain ⟨part, hpart, rfl⟩ := List.mem_map.mp hmem
    exact Filters.addresses_ofContext hfilters part hpart
  · obtain ⟨part, hpart, rfl⟩ := List.mem_map.mp hmem
    exact Windows.addresses_ofContext hwindows part hpart

/-! ## Trees -/

theorem toAst_of_read (hread : r.read config = .ok (ctx, select)) :
    r.toAst config = parts ctx select >>= Parts.assemble := by
  unfold toAst
  rw [hread]
  rfl

/-- A tree that a request without a preference for a handling stands for strictly it stands for
leniently, with the other handling in its metadata. -/
theorem toAst_lenient (hr : r.LeavesHandling)
    (h : r.toAst (config.withHandling .strict) = .ok ast) :
    r.toAst (config.withHandling .lenient) = .ok (ast.withHandling .lenient) := by
  obtain ⟨⟨ctx, select⟩, hread, -⟩ := bind_eq_ok.mp h
  obtain ⟨hctx, hread'⟩ := read_withHandling hr hread .lenient
  rw [toAst_of_read hread] at h
  obtain ⟨p, hp, h⟩ := bind_eq_ok.mp h
  rw [hctx] at hp
  obtain ⟨hp', hparts⟩ := parts_withHandling hp
  rw [hp'] at h
  rw [toAst_of_read hread', hparts, ok_bind, Parts.assemble_withHandling h]

/-- A request that reads the table `items`, without headers. -/
def items (target : String) : Request := { method := .get, target }

/-- What is known of such a request. -/
def itemsContext (params : Params) (embeds : List String) (h : Handling) : Context where
  method := .get
  target := .table "items"
  negotiation := {}
  params
  embeds
  payload := none
  handling := h

/-- One condition is the same under both handlings. -/
theorem toAst_lenient_items :
    ∃ ast, (items "/items?a=gt.1").toAst (Config.withHandling .strict {}) = .ok ast ∧
      (items "/items?a=gt.1").toAst (Config.withHandling .lenient {}) =
        .ok (ast.withHandling .lenient) := by
  have hurl : Url.ofTarget "/items?a=gt.1" = .ok ⟨"/items".toList, some "a=gt.1".toList⟩ := by
    rfl
  have hparams : Params.ofQuery (some "a=gt.1".toList) = [("a", "gt.1")] := by
    rfl
  have hleaves : (items "/items?a=gt.1").LeavesHandling := by
    intro prefer hprefer
    cases hprefer
    simp
  have hread : (items "/items?a=gt.1").read (Config.withHandling .strict {}) =
      .ok (itemsContext [("a", "gt.1")] [] .strict, none) := by
    unfold read items
    rw [hurl, ok_bind]
    dsimp only
    rw [hparams]
    rfl
  have hast : ∃ ast, (items "/items?a=gt.1").toAst (Config.withHandling .strict {}) = .ok ast := by
    rw [toAst_of_read hread]
    exact ⟨_, rfl⟩
  obtain ⟨ast, h⟩ := hast
  exact ⟨ast, h, toAst_lenient hleaves h⟩

theorem kind_eq_validation {e : Error} : e.kind = .validation ↔ ∃ cause, e = .invalid cause := by
  cases e <;> simp [Error.kind]

/-- What is left of a select list without the entries whose name is used before. -/
def IsKept (select : Option Select) (es : List SelectEntry) : Prop :=
  SelectEntry.distinctNames .lenient ((select.map (·.entries)).getD []) = .ok es

theorem assemble_parts_invalid_iff (hp : parts ctx select = .ok p) (hl : ctx.handling = .lenient) :
    (∃ cause, p.assemble = .error (.invalid cause)) ↔
      ∃ es, IsKept select es ∧ ∃ path ∈ p.addressed, SelectEntry.findPath? path es = none := by
  obtain ⟨hselect, hword⟩ := select_parts hp
  rw [← hselect]
  exact Parts.assemble_invalid_iff (hword.trans hl)

/-- A lenient run with a filter or a window for an embed that cannot be found is refused. -/
theorem validation_of_missing {es : List SelectEntry} (path : String)
    (hread : r.read config = .ok (ctx, select)) (hl : ctx.handling = .lenient)
    (hp : parts ctx select = .ok p) (hes : IsKept select es) (hpath : path ∈ p.addressed)
    (hnone : SelectEntry.findPath? path es = none) :
    ∃ e, r.toAst config = .error e ∧ e.kind = .validation := by
  obtain ⟨cause, h⟩ := (assemble_parts_invalid_iff hp hl).mpr ⟨es, hes, path, hpath, hnone⟩
  refine ⟨.invalid cause, ?_, rfl⟩
  rw [toAst_of_read hread, hp, ok_bind, h]

/-- A lenient run that is refused as invalid has a filter or a window for an embed that cannot be
found. -/
theorem missing_of_invalid {cause : Invalid} (hread : r.read config = .ok (ctx, select))
    (hl : ctx.handling = .lenient) (h : r.toAst config = .error (.invalid cause)) :
    ∃ p es, parts ctx select = .ok p ∧ IsKept select es ∧
      ∃ path ∈ p.addressed, SelectEntry.findPath? path es = none := by
  have hctx : ctx = ctx.withHandling .lenient := by
    unfold Context.withHandling
    rw [← hl]
  rw [toAst_of_read hread] at h
  rcases bind_eq_error.mp h with h | ⟨p, hp, h⟩
  · rw [hctx] at h
    exact absurd h (forgives_parts ctx select cause)
  · obtain ⟨es, hes, hmissing⟩ := (assemble_parts_invalid_iff hp hl).mp ⟨cause, h⟩
    exact ⟨p, es, hp, hes, hmissing⟩

/-- A lenient run is refused as invalid exactly if a filter or a window is for an embed that cannot
be found once the entries with a used name are dropped. -/
theorem toAst_validation_iff (hread : r.read config = .ok (ctx, select))
    (hl : ctx.handling = .lenient) :
    (∃ e, r.toAst config = .error e ∧ e.kind = .validation) ↔
      ∃ p es, parts ctx select = .ok p ∧ IsKept select es ∧
        ∃ path ∈ p.addressed, SelectEntry.findPath? path es = none := by
  constructor
  · rintro ⟨e, h, hkind⟩
    obtain ⟨cause, rfl⟩ := kind_eq_validation.mp hkind
    exact missing_of_invalid hread hl h
  · rintro ⟨p, es, hp, hes, path, hpath, hnone⟩
    exact validation_of_missing path hread hl hp hes hpath hnone

/-- If all embeds of the select list can be found once the entries with a used name are dropped, a
lenient run fails with nothing invalid. -/
theorem forgives_toAst (hread : r.read config = .ok (ctx, select)) (hl : ctx.handling = .lenient)
    (hfound : ∀ es, IsKept select es →
      ∀ path, ctx.hasEmbed path = true → SelectEntry.findPath? path es ≠ none) :
    Forgives (r.toAst config) := by
  intro cause h
  obtain ⟨p, es, hp, hes, path, hpath, hnone⟩ := missing_of_invalid hread hl h
  exact hfound es hes path (hasEmbed_of_addressed hp path hpath) hnone

theorem read_items {target list : String} {query : List Char} {params : Params} {t : Select}
    (hurl : Url.ofTarget target = .ok ⟨"/items".toList, some query⟩)
    (hparams : Params.ofQuery (some query) = params)
    (hlast : Params.last? params "select" = some list)
    (hlist : Select.parse 16 list.toList = .ok t) :
    (items target).read {} = .ok (itemsContext params t.embedPaths .lenient, some t) := by
  have hselect : readSelect {} params = .ok (some t) := by
    unfold readSelect
    rw [hlast]
    dsimp only
    rw [hlist]
  unfold read items
  rw [hurl, ok_bind]
  dsimp only
  rw [hparams, hselect]
  rfl

/-- The embed is not found whose name has a point. -/
theorem toAst_validation_point :
    ∃ e, (items "/items?select=%22a.b%22(id)&a.b.x=eq.1").toAst {} = .error e ∧
      e.kind = .validation := by
  have hurl : Url.ofTarget "/items?select=%22a.b%22(id)&a.b.x=eq.1" =
      .ok ⟨"/items".toList, some "select=%22a.b%22(id)&a.b.x=eq.1".toList⟩ := by
    rfl
  have hparams : Params.ofQuery (some "select=%22a.b%22(id)&a.b.x=eq.1".toList) =
      [("select", "\"a.b\"(id)"), ("a.b.x", "eq.1")] := by
    rfl
  have hlist : Select.parse 16 "\"a.b\"(id)".toList =
      .ok ⟨[.embed "a.b" false {} [.column "id"] []], [("a.b", { table := "a.b" })]⟩ :=
    Select.parse_eq_of_agrees (by decide +kernel)
  exact (toAst_validation_iff (read_items hurl hparams rfl hlist) rfl).mpr
    ⟨_, _, rfl, rfl, "a.b", by decide, rfl⟩

/-- The embed is not found that stands in one whose name is used before. -/
theorem toAst_validation_duplicate :
    ∃ ctx select e, (items "/items?select=a:x(id),a:y(b(id))&a.b.id=eq.1").read {} =
        .ok (ctx, select) ∧ ctx.handling = .lenient ∧
      (items "/items?select=a:x(id),a:y(b(id))&a.b.id=eq.1").toAst {} = .error e ∧
      e.kind = .validation := by
  have hurl : Url.ofTarget "/items?select=a:x(id),a:y(b(id))&a.b.id=eq.1" =
      .ok ⟨"/items".toList, some "select=a:x(id),a:y(b(id))&a.b.id=eq.1".toList⟩ := by
    rfl
  have hparams : Params.ofQuery (some "select=a:x(id),a:y(b(id))&a.b.id=eq.1".toList) =
      [("select", "a:x(id),a:y(b(id))"), ("a.b.id", "eq.1")] := by
    rfl
  have hlist : Select.parse 16 "a:x(id),a:y(b(id))".toList =
      .ok ⟨[.embed "a" false {} [.column "id"] [],
          .embed "a" false {} [.embed "b" false {} [.column "id"] []] [("b", { table := "b" })]],
        [("a", { table := "x" })]⟩ :=
    Select.parse_eq_of_agrees (by decide +kernel)
  have hread := read_items hurl hparams rfl hlist
  obtain ⟨e, h, hkind⟩ := validation_of_missing "a.b" hread rfl rfl rfl (by decide) rfl
  exact ⟨_, _, e, hread, rfl, h, hkind⟩

end Request

end RestQuery
