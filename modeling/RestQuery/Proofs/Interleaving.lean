import RestQuery.Proofs.Metadata.Interleaving
import RestQuery.Proofs.Request

/-!
# Preferences do not depend on their headers

Requests that are alike but for their preferences stand for the same tree if the same values are
preferred for every key, in the same order. How the preferences are interleaved, and in how many
headers they stand, decides at most which of several faults is reported.
-/

namespace RestQuery

open Http (Preference)

/-! ## Headers -/

namespace Http.Headers

variable {headers headers' : Headers} {name other : String}

/-- Headers of one name are looked up without regard to those of another. -/
theorem first?_filter (hname : name ≠ other) :
    first? (headers.filter (·.1 ≠ other)) name = first? headers name := by
  have hfind : (headers.filter (·.1 ≠ other)).find? (·.1 = name) = headers.find? (·.1 = name) := by
    rw [List.find?_filter]
    congr 1
    funext header
    by_cases hheader : header.1 = name
    · simp [hheader, hname]
    · simp [hheader]
  unfold first?
  rw [hfind]

/-- Whether a header holds nothing but visible characters, blanks and tabs. -/
def Visible (header : String × String) : Prop :=
  ∀ c ∈ header.2.toList, c = '\t' ∨ 0x20 ≤ c.toNat ∧ c.toNat < 0x7F

theorem readValue_of_visible {header : String × String} (h : Visible header) :
    readValue name header.2 = .ok header.2 := by
  have hall : (header.2.toList.all fun c => c = '\t' || (0x20 ≤ c.toNat && c.toNat < 0x7F)) =
      true := by
    simpa [Visible] using h
  unfold readValue
  rw [if_pos hall]

/-- If all headers of a name are visible, they can be read. -/
theorem all_of_visible (h : ∀ header ∈ headers, header.1 = name → Visible header) :
    headers.all name = .ok ((headers.filter (·.1 = name)).map (·.2)) := by
  unfold all
  rw [mapM_eq_ok, List.forall₂_map_right_iff, List.forall₂_same]
  intro header hheader
  obtain ⟨hmem, hname⟩ := List.mem_filter.mp hheader
  exact readValue_of_visible (h header hmem (by simpa using hname))

/-- The preferences in headers, in order. -/
def preferences (headers : Headers) : List Preference :=
  (headers.filter (·.1 = "prefer")).flatMap fun header => Preference.parseAll header.2

theorem preferences_append (headers headers' : Headers) :
    preferences (headers ++ headers') = preferences headers ++ preferences headers' := by
  unfold preferences
  rw [List.filter_append, List.flatMap_append]

theorem preferences_cons (value : String) (headers : Headers) :
    preferences (("prefer", value) :: headers) =
      Preference.parseAll value ++ preferences headers := by
  unfold preferences
  rw [List.filter_cons_of_pos (by simp), List.flatMap_cons]

theorem visible_join {a b : String} (ha : Visible ("prefer", a)) (hb : Visible ("prefer", b)) :
    Visible ("prefer", a ++ "," ++ b) := by
  intro c hc
  have hmem : c ∈ a.toList ∨ c = ',' ∨ c ∈ b.toList := by simpa using hc
  rcases hmem with hc | rfl | hc
  · exact ha c hc
  · exact .inr (by decide)
  · exact hb c hc

end Http.Headers

/-! ## Contexts -/

/-- The context with other preferences. -/
def Context.withPreferences (ps : List Preference) (ctx : Context) : Context :=
  { ctx with negotiation := { ctx.negotiation with preferences := ps } }

variable {config : Config} {ctx : Context} {ps : List Preference} {operation : Operation}

theorem preference?_of_sameValues {n n' : Http.Negotiation}
    (h : Preference.SameValues n.preferences n'.preferences) : n.preference? = n'.preference? := by
  funext key
  rw [Preference.preference?_eq_getLast?, Preference.preference?_eq_getLast?, h key]

theorem Handling.ofNegotiation_of_sameValues {n n' : Http.Negotiation}
    (h : Preference.SameValues n.preferences n'.preferences) :
    ofNegotiation config n = ofNegotiation config n' := by
  unfold ofNegotiation
  rw [preference?_of_sameValues h]

section

variable (hps : Preference.SameValues ctx.negotiation.preferences ps)
include hps

theorem Context.preference?_withPreferences :
    (ctx.withPreferences ps).negotiation.preference? = ctx.negotiation.preference? := by
  have hsame : Preference.SameValues ctx.negotiation.preferences
      (ctx.withPreferences ps).negotiation.preferences := hps
  exact (preference?_of_sameValues hsame).symm

theorem Operation.ofContext_withPreferences :
    ofContext (ctx.withPreferences ps) = ofContext ctx := by
  unfold ofContext ofPost
  rw [ctx.preference?_withPreferences hps]
  rfl

theorem Conflict.ofContext_withPreferences :
    ofContext (ctx.withPreferences ps) = ofContext ctx := by
  unfold ofContext
  rw [ctx.preference?_withPreferences hps]
  rfl

theorem Request.callOf_withPreferences :
    Request.callOf (ctx.withPreferences ps) operation = Request.callOf ctx operation := by
  unfold Request.callOf Call.ofContext Call.ofBody Call.passesWhole
  rw [ctx.preference?_withPreferences hps]
  rfl

theorem Metadata.ofContext_withPreferences {m : Metadata} (h : ofContext ctx operation = .ok m) :
    ofContext (ctx.withPreferences ps) operation = .ok m := by
  unfold ofContext addAll at h ⊢
  obtain ⟨m', hpreferences, hrest⟩ := bind_eq_ok.mp h
  exact bind_eq_ok.mpr ⟨m', addPreferences_of_sameValues hps hpreferences, hrest⟩

end

theorem Filters.ofContext_withPreferences :
    Filters.ofContext (ctx.withPreferences ps) = Filters.ofContext ctx := by
  have hstep : Filters.addParam (ctx.withPreferences ps) = Filters.addParam ctx :=
    Filters.addParam_update { ctx.negotiation with preferences := ps } ctx.params
  unfold Filters.ofContext
  rw [hstep]
  rfl

namespace Request

variable {r r' : Request} {select : Option Select} {p : Parts} {ast : Ast}

theorem parts_withPreferences (hps : Preference.SameValues ctx.negotiation.preferences ps)
    (hp : parts ctx select = .ok p) : parts (ctx.withPreferences ps) select = .ok p := by
  obtain ⟨operation, filters, windows, metadata, call, hoperation, hfilters, hwindows, hmetadata,
    hcall, rfl⟩ := parts_eq_ok.mp hp
  have hconflict := Conflict.ofContext_withPreferences hps
  refine parts_eq_ok.mpr ⟨operation, filters, windows, metadata, call, ?_, ?_, hwindows,
    Metadata.ofContext_withPreferences hps hmetadata, ?_, ?_⟩
  · rw [Operation.ofContext_withPreferences hps, hoperation]
  · rw [Filters.ofContext_withPreferences, hfilters]
  · rw [callOf_withPreferences hps, hcall]
  · rw [hconflict]
    rfl

/-! ## Requests -/

/-- Two requests are alike but for the headers with preferences. Those can be read, and the same
values are preferred for every key, in the same order. -/
structure SamePreferences (r r' : Request) : Prop where
  /-- The methods are the same. -/
  method : r.method = r'.method
  /-- The targets are the same. -/
  target : r.target = r'.target
  /-- The other headers are the same, in the same order. -/
  headers : r.headers.filter (·.1 ≠ "prefer") = r'.headers.filter (·.1 ≠ "prefer")
  /-- The bodies are the same. -/
  body : r.body = r'.body
  /-- The preferences of the first request can be read. -/
  visible : ∀ header ∈ r.headers, header.1 = "prefer" → Http.Headers.Visible header
  /-- The preferences of the second request can be read. -/
  visible' : ∀ header ∈ r'.headers, header.1 = "prefer" → Http.Headers.Visible header
  /-- The values for every key are the same. -/
  values : Preference.SameValues r.headers.preferences r'.headers.preferences

theorem SamePreferences.symm (h : SamePreferences r r') : SamePreferences r' r where
  method := h.method.symm
  target := h.target.symm
  headers := h.headers.symm
  body := h.body.symm
  visible := h.visible'
  visible' := h.visible
  values := h.values.symm

theorem SamePreferences.trans {r'' : Request} (h : SamePreferences r r')
    (h' : SamePreferences r' r'') : SamePreferences r r'' where
  method := h.method.trans h'.method
  target := h.target.trans h'.target
  headers := h.headers.trans h'.headers
  body := h.body.trans h'.body
  visible := h.visible
  visible' := h'.visible'
  values := fun key => (h.values key).trans (h'.values key)

/-- Two neighbouring headers with preferences may be joined by a comma. -/
theorem samePreferences_join (r : Request) (before after : Http.Headers) {a b : String}
    (hvisible : ∀ header ∈ before ++ ("prefer", a) :: ("prefer", b) :: after,
      header.1 = "prefer" → Http.Headers.Visible header) :
    SamePreferences { r with headers := before ++ ("prefer", a) :: ("prefer", b) :: after }
      { r with headers := before ++ ("prefer", a ++ "," ++ b) :: after } where
  method := rfl
  target := rfl
  headers := by simp
  body := rfl
  visible := hvisible
  visible' := by
    intro header hheader hname
    rcases List.mem_append.mp hheader with hbefore | hrest
    · exact hvisible header (List.mem_append_left _ hbefore) hname
    · rcases List.mem_cons.mp hrest with rfl | hafter
      · exact Http.Headers.visible_join (hvisible ("prefer", a) (by simp) rfl)
          (hvisible ("prefer", b) (by simp) rfl)
      · exact hvisible header (by simp [hafter]) hname
  values := by
    intro key
    dsimp only
    rw [Http.Headers.preferences_append, Http.Headers.preferences_append,
      Http.Headers.preferences_cons, Http.Headers.preferences_cons, Http.Headers.preferences_cons,
      Preference.parseAll_join, List.append_assoc]

/-- Two neighbouring headers with preferences may change places if they have no key in common. -/
theorem samePreferences_exchange (r : Request) (before after : Http.Headers) {a b : String}
    (hvisible : ∀ header ∈ before ++ ("prefer", a) :: ("prefer", b) :: after,
      header.1 = "prefer" → Http.Headers.Visible header)
    (hkeys : ∀ p ∈ Preference.parseAll a, ∀ q ∈ Preference.parseAll b, p.key ≠ q.key) :
    SamePreferences { r with headers := before ++ ("prefer", a) :: ("prefer", b) :: after }
      { r with headers := before ++ ("prefer", b) :: ("prefer", a) :: after } where
  method := rfl
  target := rfl
  headers := by simp
  body := rfl
  visible := hvisible
  visible' := by
    intro header hheader
    have hperm : (before ++ ("prefer", b) :: ("prefer", a) :: after).Perm
        (before ++ ("prefer", a) :: ("prefer", b) :: after) :=
      (List.Perm.swap _ _ _).append_left before
    exact hvisible header (hperm.mem_iff.mp hheader)
  values := by
    dsimp only
    simp only [Http.Headers.preferences_append, Http.Headers.preferences_cons]
    exact .exchange _ _ hkeys

/-- Headers of another name are looked up alike. -/
theorem SamePreferences.first? (h : SamePreferences r r') {name : String}
    (hname : name ≠ "prefer") : r.headers.first? name = r'.headers.first? name := by
  rw [← Http.Headers.first?_filter hname, h.headers, Http.Headers.first?_filter hname]

theorem all_prefer (h : ∀ header ∈ r.headers, header.1 = "prefer" → Http.Headers.Visible header) :
    ∃ prefer, r.headers.all "prefer" = .ok prefer ∧
      prefer.flatMap Preference.parseAll = r.headers.preferences := by
  refine ⟨_, Http.Headers.all_of_visible h, ?_⟩
  rw [List.flatMap_map]
  rfl

/-- What the headers of alike requests ask for differs in the preferences alone. -/
theorem ofHeaders_of_samePreferences {n : Http.Negotiation} (h : SamePreferences r r')
    (hn : Http.Negotiation.ofHeaders config r.method r.headers = .ok n) :
    n.preferences = r.headers.preferences ∧
      Http.Negotiation.ofHeaders config r'.method r'.headers =
        .ok { n with preferences := r'.headers.preferences } := by
  have hprofile : r.headers.first? (Http.Negotiation.profileHeader r.method) =
      r'.headers.first? (Http.Negotiation.profileHeader r'.method) := by
    rw [← h.method]
    unfold Http.Negotiation.profileHeader
    split
    · exact h.first? (by decide)
    · exact h.first? (by decide)
  have haccept : r.headers.first? "accept" = r'.headers.first? "accept" := h.first? (by decide)
  obtain ⟨prefer, hprefer, hall⟩ := all_prefer h.visible
  obtain ⟨prefer', hprefer', hall'⟩ := all_prefer h.visible'
  unfold Http.Negotiation.ofHeaders at hn ⊢
  obtain ⟨profile, hfirst, hn⟩ := bind_eq_ok.mp hn
  obtain ⟨schema, hschema, hn⟩ := bind_eq_ok.mp hn
  rw [hprefer, ok_bind] at hn
  obtain ⟨accept, hlast, hn⟩ := bind_eq_ok.mp hn
  cases hn
  refine ⟨hall, ?_⟩
  rw [← hprofile, hfirst, ok_bind, hschema, ok_bind, hprefer', ok_bind, ← haccept, hlast, ok_bind,
    hall']
  rfl

/-- Alike requests are read alike, up to the preferences. -/
theorem read_of_samePreferences (h : SamePreferences r r')
    (hread : r.read config = .ok (ctx, select)) :
    ctx.negotiation.preferences = r.headers.preferences ∧
      r'.read config = .ok (ctx.withPreferences r'.headers.preferences, select) := by
  unfold read at hread ⊢
  obtain ⟨url, hurl, hread⟩ := bind_eq_ok.mp hread
  obtain ⟨contentType, hcontentType, hread⟩ := bind_eq_ok.mp hread
  obtain ⟨target, htarget, hread⟩ := bind_eq_ok.mp hread
  obtain ⟨negotiation, hnegotiation, hread⟩ := bind_eq_ok.mp hread
  obtain ⟨select', hselect, hread⟩ := bind_eq_ok.mp hread
  obtain ⟨payload, hpayload, hread⟩ := bind_eq_ok.mp hread
  obtain ⟨handling, hhandling, hread⟩ := bind_eq_ok.mp hread
  cases hread
  obtain ⟨hpreferences, hnegotiation'⟩ := ofHeaders_of_samePreferences h hnegotiation
  refine ⟨hpreferences, ?_⟩
  have hsame : Preference.SameValues negotiation.preferences r'.headers.preferences := by
    rw [hpreferences]
    exact h.values
  have hhandling' : Handling.ofNegotiation config
      { negotiation with preferences := r'.headers.preferences } = .ok handling := by
    rw [← hhandling]
    exact (Handling.ofNegotiation_of_sameValues hsame).symm
  rw [← h.target, hurl, ok_bind, ← h.first? (by decide), hcontentType, ok_bind, ← h.body,
    ← h.method]
  rw [← h.method] at hnegotiation'
  refine bind_eq_ok.mpr ⟨target, htarget, bind_eq_ok.mpr ⟨_, hnegotiation', ?_⟩⟩
  refine bind_eq_ok.mpr ⟨select, hselect, bind_eq_ok.mpr ⟨payload, hpayload, ?_⟩⟩
  exact bind_eq_ok.mpr ⟨handling, hhandling', rfl⟩

theorem toAst_of_samePreferences (h : SamePreferences r r') (hast : r.toAst config = .ok ast) :
    r'.toAst config = .ok ast := by
  obtain ⟨⟨ctx, select⟩, hread, -⟩ := bind_eq_ok.mp hast
  obtain ⟨hpreferences, hread'⟩ := read_of_samePreferences h hread
  rw [toAst_of_read hread] at hast
  obtain ⟨p, hp, hassemble⟩ := bind_eq_ok.mp hast
  have hsame : Preference.SameValues ctx.negotiation.preferences r'.headers.preferences := by
    rw [hpreferences]
    exact h.values
  rw [toAst_of_read hread', parts_withPreferences hsame hp, ok_bind, hassemble]

/-- Requests that are alike but for the way in which their preferences are interleaved and spread
over headers stand for the same tree, or both for none. -/
theorem toAst_interleaved (h : SamePreferences r r') (config : Config) (ast : Ast) :
    r.toAst config = .ok ast ↔ r'.toAst config = .ok ast := by
  constructor
  · intro hast
    exact toAst_of_samePreferences h hast
  · intro hast
    exact toAst_of_samePreferences h.symm hast

/-- A request that reads the table `items`, with preferences in some headers. -/
def preferring (values : List String) : Request :=
  { items "/items" with headers := values.map fun value => ("prefer", value) }

theorem read_preferring {values : List String} {n : Http.Negotiation} {handling : Handling}
    (hn : Http.Negotiation.ofHeaders {} .get (preferring values).headers = .ok n)
    (hhandling : Handling.ofNegotiation {} n = .ok handling) :
    (preferring values).read {} =
      .ok ({ itemsContext [] [] handling with negotiation := n }, none) := by
  have hurl : Url.ofTarget "/items" = .ok ⟨"/items".toList, none⟩ := by rfl
  have hfirst : (preferring values).headers.first? "content-type" = .ok none := by
    have hnone : (preferring values).headers.find? (·.1 = "content-type") = none := by
      simp [preferring, List.find?_eq_none]
    unfold Http.Headers.first?
    rw [hnone]
  unfold read
  rw [hfirst]
  dsimp only [preferring, items] at hn ⊢
  rw [hurl, ok_bind, ok_bind]
  dsimp only
  rw [hn]
  refine bind_eq_ok.mpr ⟨.table "items", rfl, bind_eq_ok.mpr ⟨n, rfl, ?_⟩⟩
  refine bind_eq_ok.mpr ⟨none, rfl, bind_eq_ok.mpr ⟨none, rfl, ?_⟩⟩
  exact bind_eq_ok.mpr ⟨handling, hhandling, rfl⟩

/-- Two headers may change places and be joined, if the values for each key stay in their order. -/
theorem toAst_interleaved_joined :
    ∃ ast, (preferring ["count=exact, count=planned", "Tx=rollback"]).toAst {} = .ok ast ∧
      (preferring ["Tx=rollback,count=exact, count=planned"]).toAst {} = .ok ast := by
  have hcount : Preference.parseAll "count=exact, count=planned" =
      [⟨"count", "exact"⟩, ⟨"count", "planned"⟩] := by
    rfl
  have htx : Preference.parseAll "Tx=rollback" = [⟨"tx", "rollback"⟩] := by
    rfl
  have hexchange : SamePreferences (preferring ["count=exact, count=planned", "Tx=rollback"])
      (preferring ["Tx=rollback", "count=exact, count=planned"]) := by
    refine samePreferences_exchange (items "/items") [] [] ?_ ?_
    · simp [Http.Headers.Visible]
    · rw [hcount, htx]
      decide
  have hjoin : SamePreferences (preferring ["Tx=rollback", "count=exact, count=planned"])
      (preferring ["Tx=rollback,count=exact, count=planned"]) := by
    refine samePreferences_join (items "/items") [] [] ?_
    simp [Http.Headers.Visible]
  have hnegotiation : Http.Negotiation.ofHeaders {} .get
      (preferring ["count=exact, count=planned", "Tx=rollback"]).headers =
        .ok { preferences := [⟨"count", "exact"⟩, ⟨"count", "planned"⟩, ⟨"tx", "rollback"⟩] } := by
    rfl
  have hast : ∃ ast, (preferring ["count=exact, count=planned", "Tx=rollback"]).toAst {} =
      .ok ast := by
    rw [toAst_of_read (read_preferring hnegotiation rfl)]
    exact ⟨_, rfl⟩
  obtain ⟨ast, h⟩ := hast
  exact ⟨ast, h, (toAst_interleaved (hexchange.trans hjoin) {} ast).mp h⟩

end Request

end RestQuery
