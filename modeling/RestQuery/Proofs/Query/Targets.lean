import RestQuery.Proofs.Outcome
import RestQuery.Proofs.Text.Scanning
import RestQuery.Proofs.Text.Splitting
import RestQuery.Proofs.Url.Percent
import RestQuery.Query.Target

/-!
# Which paths name a target

A path is what stands before all paths, and then segments with slashes around them. A segment stands
for the name whose bytes its triples are read as, and this is asked only after the path is cut into
segments: so every name can be written as a segment, and none is taken for anything else. The paths
that name a target are said here without cutting (`Routes`), and shown to be those that are read.
-/

namespace RestQuery.Target

open Text (Begins begins_nil begins_cons)

variable {c : Char} {base path rest seg gap : List Char} {segs : List (List Char)}
  {names : List String} {name : String}

/-! ## Segments -/

/-- There are no characters but slashes. -/
def OnlySlashes (s : List Char) : Prop := ∀ c ∈ s, c = '/'

theorem OnlySlashes.begins (h : OnlySlashes gap) : Begins ['/'] gap := by
  intro c hc
  simpa using h c (List.mem_of_mem_head? hc)

theorem OnlySlashes.begins_append (h : OnlySlashes gap) (hne : gap ≠ []) :
    Begins ['/'] (gap ++ rest) := by
  obtain ⟨c, gap, rfl⟩ := List.exists_cons_of_ne_nil hne
  simpa using h c List.mem_cons_self

/-- A text is made of segments, with slashes before, between and after them. -/
inductive HasSegments : List Char → List (List Char) → Prop where
  /-- The empty text has no segment. -/
  | nil : HasSegments [] []
  /-- A slash may come before anything. -/
  | slash {rest : List Char} {segs : List (List Char)} (h : HasSegments rest segs) :
      HasSegments ('/' :: rest) segs
  /-- A segment goes on to the next slash. -/
  | segment {seg rest : List Char} {segs : List (List Char)} (hne : seg ≠ []) (hslash : '/' ∉ seg)
      (hend : Begins ['/'] rest) (h : HasSegments rest segs) :
      HasSegments (seg ++ rest) (seg :: segs)

theorem HasSegments.slashes (hs : OnlySlashes gap) (h : HasSegments rest segs) :
    HasSegments (gap ++ rest) segs := by
  induction gap with
  | nil => exact h
  | cons c gap ih =>
    obtain ⟨rfl, hgap⟩ := List.forall_mem_cons.mp hs
    exact .slash (ih hgap)

theorem OnlySlashes.hasSegments (h : OnlySlashes gap) : HasSegments gap [] := by
  have hall := HasSegments.nil.slashes h
  rwa [List.append_nil] at hall

/-- The pieces between slashes that are not empty. -/
def pieces (path : List Char) : List (List Char) :=
  (Text.splitAll '/' path).filter fun s => !s.isEmpty

theorem pieces_cons_slash : pieces ('/' :: rest) = pieces rest := by
  simp [pieces, Text.splitAll]

theorem pieces_of_not_mem (hne : seg ≠ []) (hslash : '/' ∉ seg) : pieces seg = [seg] := by
  unfold pieces
  rw [Text.splitAll_of_not_mem hslash]
  simp [hne]

theorem pieces_append_slash (path : List Char) :
    pieces (path ++ '/' :: rest) = pieces path ++ pieces rest := by
  unfold pieces
  rw [Text.splitAll_append, List.filter_append]

/-- The segments of a text are its pieces that are not empty. -/
theorem HasSegments.pieces_eq (h : HasSegments path segs) : pieces path = segs := by
  induction h with
  | nil => rfl
  | slash _ ih => rw [pieces_cons_slash, ih]
  | @segment seg rest segs hne hslash hend _ ih =>
    cases rest with
    | nil =>
      rw [← ih, List.append_nil]
      exact pieces_of_not_mem hne hslash
    | cons c rest =>
      obtain rfl : c = '/' := by simpa using hend
      rw [pieces_append_slash, pieces_of_not_mem hne hslash, ← ih, pieces_cons_slash]
      rfl

/-- A character that is no slash is the first of a segment: of the one that follows it at once, or
of one of its own. -/
theorem HasSegments.cons (hc : c ≠ '/') (h : HasSegments path segs) :
    ∃ segs', HasSegments (c :: path) segs' := by
  have hown (h : Begins ['/'] path) (hpath : HasSegments path segs) :
      HasSegments (c :: path) ([c] :: segs) := by
    have hsegment : '/' ∉ [c] := by simpa using hc.symm
    show HasSegments ([c] ++ path) ([c] :: segs)
    exact .segment (List.cons_ne_nil c []) hsegment h hpath
  cases h with
  | nil => exact ⟨_, hown (by simp) .nil⟩
  | slash h => exact ⟨_, hown (by simp) (.slash h)⟩
  | @segment seg rest segs hne hnot hend h =>
    have hsegment : '/' ∉ c :: seg := by simpa using ⟨hc.symm, hnot⟩
    refine ⟨(c :: seg) :: segs, ?_⟩
    show HasSegments ((c :: seg) ++ rest) ((c :: seg) :: segs)
    exact .segment (List.cons_ne_nil c seg) hsegment hend h

theorem exists_hasSegments (path : List Char) : ∃ segs, HasSegments path segs := by
  induction path with
  | nil => exact ⟨[], .nil⟩
  | cons c path ih =>
    obtain ⟨segs, h⟩ := ih
    by_cases hc : c = '/'
    · rw [hc]
      exact ⟨segs, .slash h⟩
    · exact h.cons hc

theorem hasSegments_iff : HasSegments path segs ↔ pieces path = segs := by
  refine ⟨HasSegments.pieces_eq, ?_⟩
  rintro rfl
  obtain ⟨segs, h⟩ := exists_hasSegments path
  rwa [h.pieces_eq]

/-! ## Names -/

/-- The triples of a segment are read as the bytes of a name. -/
def Spells (seg : List Char) (name : String) : Prop :=
  Url.percentDecodeText seg = Text.Utf8.encode name.toList

theorem decodeSegment_eq_ok_iff : decodeSegment seg = .ok name ↔ Spells seg name := by
  unfold decodeSegment Spells
  rw [← Text.Utf8.decode_eq_ok_iff]
  cases Text.Utf8.decode (Url.percentDecodeText seg) with
  | error fault => simp
  | ok cs =>
    rw [Except.ok.injEq, Except.ok.injEq, ← String.toList_inj, String.toList_ofList]

theorem segments_eq_ok_iff :
    segments path = .ok names ↔ ∃ segs, HasSegments path segs ∧ List.Forall₂ Spells segs names := by
  have hspells : segments path = .ok names ↔ List.Forall₂ Spells (pieces path) names := by
    unfold segments
    rw [mapM_eq_ok]
    simp only [decodeSegment_eq_ok_iff]
    exact Iff.rfl
  simp only [hspells, hasSegments_iff, exists_eq_left']

/-- Every name is spelled by its bytes as triples. -/
theorem spells_encodeText (name : String) : Spells (Url.encodeText name.toList) name :=
  Url.percentDecodeText_encodeText name.toList

/-! ## The base path -/

/-- `base` is a base path without the slashes at its end. -/
structure IsBase (basePath base : List Char) : Prop where
  /-- Only slashes are missing. -/
  spelled : ∃ gap, basePath = base ++ gap ∧ OnlySlashes gap
  /-- None is left. -/
  ends : base.getLast? ≠ some '/'

theorem IsBase.trimSlashes_eq {basePath : List Char} (h : IsBase basePath base) :
    trimSlashes basePath = base := by
  obtain ⟨gap, rfl, hgap⟩ := h.spelled
  have hstops : Text.Stops (fun c => decide (c = '/')) base.reverse := by
    intro c hc
    rw [List.head?_reverse] at hc
    have hne : c ≠ '/' := fun hslash => h.ends (hslash ▸ hc)
    simpa using hne
  have hdrop : (gap.reverse ++ base.reverse).dropWhile (fun c => decide (c = '/')) =
      base.reverse :=
    Text.dropWhile_run (fun c hc => by simpa using hgap c (List.mem_reverse.mp hc)) hstops
  unfold trimSlashes
  rw [List.reverse_append, hdrop, List.reverse_reverse]

/-- `rest` is what a path has after the base path, which ends where a segment ends. -/
structure Under (base path rest : List Char) : Prop where
  /-- The base path comes first. -/
  spelled : path = base ++ rest
  /-- A base path that is not empty is followed by a slash or by nothing. -/
  ends : base ≠ [] → Begins ['/'] rest

theorem stripBase_eq_ok_iff {basePath : List Char} (h : IsBase basePath base) :
    stripBase basePath path = .ok rest ↔ Under base path rest := by
  unfold stripBase
  rw [h.trimSlashes_eq]
  by_cases hbase : base = []
  · subst hbase
    constructor
    · intro hpath
      cases hpath
      exact ⟨rfl, fun hne => absurd rfl hne⟩
    · rintro ⟨rfl, -⟩
      rfl
  · simp only [List.isEmpty_iff, hbase, if_false]
    constructor
    · intro hpath
      split at hpath
      · next hdrop =>
        cases hpath
        exact ⟨Text.dropStart?_eq_some_iff.mp hdrop, fun _ => by simp⟩
      · next rest' hdrop =>
        cases hpath
        exact ⟨Text.dropStart?_eq_some_iff.mp hdrop, fun _ => by simp⟩
      · cases hpath
    · rintro ⟨hpath, hend⟩
      rw [Text.dropStart?_eq_some_iff.mpr hpath]
      cases rest with
      | nil => rfl
      | cons c rest =>
        obtain rfl : c = '/' := by simpa using hend hbase
        rfl

/-! ## Targets -/

/-- A path names a target, where `base` stands before all paths and `mark` is the name of the
segment that marks functions. -/
inductive Routes (base : List Char) (mark : String) (path : List Char) : Target → Prop where
  /-- A table is named by one segment. -/
  | table {rest seg : List Char} {name : String} (hrest : Under base path rest)
      (h : HasSegments rest [seg]) (hseg : Spells seg name) (hname : name ≠ mark) :
      Routes base mark path (.table name)
  /-- A function is named by the segment after the mark. -/
  | function {rest first second : List Char} {name : String} (hrest : Under base path rest)
      (h : HasSegments rest [first, second]) (hfirst : Spells first mark)
      (hsecond : Spells second name) : Routes base mark path (.function name)

variable {mark : String} {config : Config} {target : Target}

theorem ofSegments_eq_ok_iff :
    ofSegments mark path names = .ok target ↔
      (∃ name, names = [name] ∧ name ≠ mark ∧ target = .table name) ∨
        ∃ name, names = [mark, name] ∧ target = .function name := by
  match names with
  | [] => simp [ofSegments]
  | [only] =>
    unfold ofSegments
    by_cases honly : only = mark
    · simp [honly]
    · have hmark : ¬mark = only := Ne.symm honly
      simp [honly, hmark, eq_comm]
  | [first, second] =>
    unfold ofSegments
    by_cases hfirst : first = mark <;> simp [hfirst, eq_comm]
  | _ :: _ :: _ :: _ => simp [ofSegments]

/-- The paths that name a target are those that are read as it. -/
theorem ofPath_eq_ok_iff (hbase : IsBase config.basePath.toList base) :
    ofPath config path = .ok target ↔ Routes base config.rpcSegment path target := by
  unfold ofPath
  simp only [bind_eq_ok, stripBase_eq_ok_iff hbase, segments_eq_ok_iff, ofSegments_eq_ok_iff]
  constructor
  · rintro ⟨rest, hrest, names, ⟨segs, hsegs, hnames⟩,
      ⟨name, rfl, hname, rfl⟩ | ⟨name, rfl, rfl⟩⟩
    · obtain ⟨seg, none, hseg, hnone, rfl⟩ := List.forall₂_cons_right_iff.mp hnames
      obtain rfl := List.forall₂_nil_right_iff.mp hnone
      exact .table hrest hsegs hseg hname
    · obtain ⟨first, more, hfirst, hmore, rfl⟩ := List.forall₂_cons_right_iff.mp hnames
      obtain ⟨second, none, hsecond, hnone, rfl⟩ := List.forall₂_cons_right_iff.mp hmore
      obtain rfl := List.forall₂_nil_right_iff.mp hnone
      exact .function hrest hsegs hfirst hsecond
  · rintro (⟨hrest, h, hseg, hname⟩ | ⟨hrest, h, hfirst, hsecond⟩)
    · exact ⟨_, hrest, _, ⟨_, h, .cons hseg .nil⟩, .inl ⟨_, rfl, hname, rfl⟩⟩
    · exact ⟨_, hrest, _, ⟨_, h, .cons hfirst (.cons hsecond .nil)⟩, .inr ⟨_, rfl, rfl⟩⟩

theorem Routes.exists_under {path : List Char} (h : Routes base mark path target) :
    ∃ rest, Under base path rest := by
  cases h with
  | table hrest => exact ⟨_, hrest⟩
  | function hrest => exact ⟨_, hrest⟩

/-- Only the segments after the base path count. -/
theorem Routes.respaced {rest' : List Char} (h : Routes base mark (base ++ rest) target)
    (hsegs : HasSegments rest segs) (hsegs' : HasSegments rest' segs)
    (hend : base ≠ [] → Begins ['/'] rest') : Routes base mark (base ++ rest') target := by
  have hunder : Under base (base ++ rest') rest' := ⟨rfl, hend⟩
  rw [← hsegs.pieces_eq] at hsegs'
  cases h with
  | table hrest h hseg hname =>
    obtain rfl := List.append_cancel_left hrest.spelled
    rw [h.pieces_eq] at hsegs'
    exact .table hunder hsegs' hseg hname
  | function hrest h hfirst hsecond =>
    obtain rfl := List.append_cancel_left hrest.spelled
    rw [h.pieces_eq] at hsegs'
    exact .function hunder hsegs' hfirst hsecond

/-- A path that goes on within the last segment of the base path names nothing. -/
theorem not_routes_sibling (hbase : base ≠ []) (hc : c ≠ '/') :
    ¬Routes base mark (base ++ c :: rest) target := by
  intro h
  obtain ⟨rest', hunder⟩ := h.exists_under
  obtain rfl := List.append_cancel_left hunder.spelled
  exact hc (by simpa using hunder.ends hbase)

/-- A name that is not empty is a segment as triples, with slashes before and after it. -/
theorem hasSegments_encodeText {after : List Char} (hname : name ≠ "")
    (hafter : Begins ['/'] after) (h : HasSegments after segs) (hgap : OnlySlashes gap) :
    HasSegments (gap ++ (Url.encodeText name.toList ++ after))
      (Url.encodeText name.toList :: segs) := by
  have hne : name.toList ≠ [] := by simpa using hname
  exact .slashes hgap
    (.segment (Url.encodeText_ne_nil hne) (Url.slash_not_mem_encodeText _) hafter h)

/-- The paths that are read as targets are those that name them. So every name that is written with
triples is reached, whatever characters are in it, and what spaces the segments out does not count;
and a path that only begins like the base path is refused. -/
theorem ofPath_routes (config : Config) (base : List Char)
    (hbase : IsBase config.basePath.toList base) :
    (∀ path target, ofPath config path = .ok target ↔
        Routes base config.rpcSegment path target) ∧
      (∀ before after name, OnlySlashes before → OnlySlashes after → (base ≠ [] → before ≠ []) →
        name ≠ "" → name ≠ config.rpcSegment →
        ofPath config (base ++ (before ++ (Url.encodeText name.toList ++ after))) =
          .ok (.table name)) ∧
      (config.rpcSegment ≠ "" → ∀ before between after name, OnlySlashes before →
        OnlySlashes between → OnlySlashes after → (base ≠ [] → before ≠ []) → between ≠ [] →
        name ≠ "" →
        ofPath config (base ++ (before ++ (Url.encodeText config.rpcSegment.toList ++
            (between ++ (Url.encodeText name.toList ++ after))))) = .ok (.function name)) ∧
      (∀ rest rest' segs target, HasSegments rest segs → HasSegments rest' segs →
        (base ≠ [] → Begins ['/'] rest') → ofPath config (base ++ rest) = .ok target →
        ofPath config (base ++ rest') = .ok target) ∧
      (base ≠ [] → ∀ c rest target, c ≠ '/' →
        ofPath config (base ++ c :: rest) ≠ .ok target) := by
  have hread (path : List Char) (target : Target) :
      ofPath config path = .ok target ↔ Routes base config.rpcSegment path target :=
    ofPath_eq_ok_iff hbase
  refine ⟨hread, ?_, ?_, ?_, ?_⟩
  · intro before after name hbefore hafter hgap hname hmark
    have hsegs := hasSegments_encodeText hname hafter.begins hafter.hasSegments hbefore
    exact (hread _ _).mpr (.table ⟨rfl, fun hne => hbefore.begins_append (hgap hne)⟩ hsegs
      (spells_encodeText name) hmark)
  · intro hmark before between after name hbefore hbetween hafter hgap hsep hname
    have hlast := hasSegments_encodeText hname hafter.begins hafter.hasSegments hbetween
    have hsegs := hasSegments_encodeText hmark (hbetween.begins_append hsep) hlast hbefore
    exact (hread _ _).mpr (.function ⟨rfl, fun hne => hbefore.begins_append (hgap hne)⟩ hsegs
      (spells_encodeText _) (spells_encodeText name))
  · intro rest rest' segs target hsegs hsegs' hend h
    exact (hread _ _).mpr (((hread _ _).mp h).respaced hsegs hsegs' hend)
  · intro hne c rest target hc h
    exact not_routes_sibling hne hc ((hread _ _).mp h)

/-- A name with a slash, a percent sign and a letter beyond ASCII, as a table and as a function. -/
theorem ofPath_routes_slash :
    IsBase "/rest/v1//".toList "/rest/v1".toList ∧ OnlySlashes "//".toList ∧
      HasSegments "//items".toList ["items".toList] ∧ HasSegments "/items".toList ["items".toList] ∧
      ofPath { basePath := "/rest/v1//", rpcSegment := "r/c" }
          ("/rest/v1".toList ++ ("//".toList ++ (Url.encodeText "ü/%".toList ++ "//".toList))) =
        .ok (.table "ü/%") ∧
      ofPath { basePath := "/rest/v1//", rpcSegment := "r/c" }
          ("/rest/v1".toList ++ ("//".toList ++ (Url.encodeText "r/c".toList ++
            ("//".toList ++ (Url.encodeText "ü/%".toList ++ "//".toList))))) =
        .ok (.function "ü/%") ∧
      (ofPath { basePath := "/rest/v1//", rpcSegment := "r/c" }
          ("/rest/v1".toList ++ "/items".toList) = .ok (.table "items") →
        ofPath { basePath := "/rest/v1//", rpcSegment := "r/c" }
          ("/rest/v1".toList ++ "//items".toList) = .ok (.table "items")) ∧
      ofPath { basePath := "/rest/v1//", rpcSegment := "r/c" }
          ("/rest/v1".toList ++ '0' :: "/items".toList) ≠ .ok (.table "items") := by
  have hbase : IsBase "/rest/v1//".toList "/rest/v1".toList :=
    ⟨⟨"//".toList, by decide, by simp [OnlySlashes]⟩, by decide⟩
  have hslashes : OnlySlashes "//".toList := by simp [OnlySlashes]
  have hitems : HasSegments "/items".toList ["items".toList] := hasSegments_iff.mpr (by decide)
  have hitems' : HasSegments "//items".toList ["items".toList] := hasSegments_iff.mpr (by decide)
  obtain ⟨-, htable, hfunction, hrespaced, hsibling⟩ :=
    ofPath_routes { basePath := "/rest/v1//", rpcSegment := "r/c" } "/rest/v1".toList hbase
  refine ⟨hbase, hslashes, hitems', hitems, ?_, ?_, ?_, ?_⟩
  · exact htable _ _ "ü/%" hslashes hslashes (by decide) (by decide) (by decide)
  · exact hfunction (by decide) _ _ _ "ü/%" hslashes hslashes hslashes (by decide) (by decide)
      (by decide)
  · exact hrespaced _ _ _ _ hitems hitems' (by simp)
  · exact hsibling (by decide) '0' _ _ (by decide)

end RestQuery.Target
