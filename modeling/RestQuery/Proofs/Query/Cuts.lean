import RestQuery.Proofs.Operator.Spelling
import RestQuery.Proofs.Text.Splitting
import RestQuery.Proofs.Text.Utf8
import RestQuery.Query.Filters

/-!
# Where a condition is cut

A condition is cut behind the shortest column that leaves an operator expression. If no column does,
the fault is that of the modifier behind the longest column that has a faulty one there, and
otherwise that of the whole text. This is said of all ways to cut the text at a point.

The cut is also found by a scan that goes from point to point, remembers the last fault of a
modifier, and counts in bytes how long a column is. Its invariant speaks of the cuts that it has
passed. So it ends, after at most one round more than there are points, with the cut of the
condition, and no length in bytes leads it out of the text. Main statement: all this of every text
(`splitCondition_shortest`).
-/

namespace RestQuery.Filters

variable {s column column' rest rest' expression expression' piece : List Char}
  {fault : Expression.Fault}

/-! ## Cuts and faults -/

/-- A text is a column with a name, a point, and the rest. -/
structure IsCut (s column rest : List Char) : Prop where
  /-- The column and the rest are all of the text, but for the point. -/
  text : s = column ++ '.' :: rest
  /-- The column has a name. -/
  named : column ≠ []

/-- The column is the shortest one that leaves an operator expression. -/
structure IsShortestCut (s column expression : List Char) : Prop extends
    IsCut s column expression where
  /-- The column leaves an operator expression. -/
  accepts : Expression.accepts expression = true
  /-- Shorter ones leave none. -/
  shortest : ∀ column' rest', IsCut s column' rest' → column'.length < column.length →
    Expression.accepts rest' = false

/-- The fault that some of its cuts give a text if none of them leaves an operator expression. -/
inductive Blames (s : List Char) (cuts : List Char → List Char → Prop) :
    Expression.Fault → Prop where
  /-- It is that of the modifier behind the longest column that has a faulty one there. -/
  | modifier {m : Expression.ModifierFault} {column rest : List Char} (hcut : cuts column rest)
      (hfault : Expression.parse rest = .error (.modifier m))
      (hlongest : ∀ column' rest', cuts column' rest' → column.length < column'.length →
        ∀ m', Expression.parse rest' ≠ .error (.modifier m')) :
      Blames s cuts (.modifier m)
  /-- If there is none, it is that of the whole text. -/
  | unknown (hnone : ∀ column rest, cuts column rest →
        ∀ m, Expression.parse rest ≠ .error (.modifier m)) :
      Blames s cuts (.unknownOperator s)

variable {cuts cuts' : List Char → List Char → Prop}

theorem IsCut.eq_of_length (h : IsCut s column rest) (h' : IsCut s column' rest')
    (hlength : column.length = column'.length) : column = column' ∧ rest = rest' := by
  have hsame : column ++ '.' :: rest = column' ++ '.' :: rest' := h.text.symm.trans h'.text
  obtain ⟨hcolumn, htail⟩ := List.append_inj hsame hlength
  exact ⟨hcolumn, (List.cons.inj htail).2⟩

/-- The longer the column is, the shorter the rest. -/
theorem IsCut.length_lt_iff (h : IsCut s column rest) (h' : IsCut s column' rest') :
    column.length < column'.length ↔ rest'.length < rest.length := by
  have hsame := congrArg List.length (h.text.symm.trans h'.text)
  simp only [List.length_append, List.length_cons] at hsame
  omega

theorem IsShortestCut.length_le (h : IsShortestCut s column expression)
    (hcut : IsCut s column' rest') (haccepts : Expression.accepts rest' = true) :
    column.length ≤ column'.length := by
  refine Nat.le_of_not_lt fun hlt => ?_
  rw [h.shortest _ _ hcut hlt] at haccepts
  cases haccepts

theorem IsShortestCut.unique (h : IsShortestCut s column expression)
    (h' : IsShortestCut s column' expression') :
    column = column' ∧ expression = expression' := by
  have hlength := Nat.le_antisymm (h.length_le h'.toIsCut h'.accepts)
    (h'.length_le h.toIsCut h.accepts)
  exact h.toIsCut.eq_of_length h'.toIsCut hlength

/-- Only one fault is to blame. -/
theorem Blames.unique {fault' : Expression.Fault} (h : Blames s (IsCut s) fault)
    (h' : Blames s (IsCut s) fault') : fault = fault' := by
  cases h with
  | modifier hcut hfault hlongest =>
    cases h' with
    | modifier hcut' hfault' hlongest' =>
      have hlength := Nat.le_antisymm
        (Nat.le_of_not_lt fun hlt => hlongest' _ _ hcut hlt _ hfault)
        (Nat.le_of_not_lt fun hlt => hlongest _ _ hcut' hlt _ hfault')
      obtain ⟨-, rfl⟩ := hcut.eq_of_length hcut' hlength
      exact Except.error.inj (hfault.symm.trans hfault')
    | unknown hnone => exact absurd hfault (hnone _ _ hcut _)
  | unknown hnone =>
    cases h' with
    | modifier hcut' hfault' _ => exact absurd hfault' (hnone _ _ hcut' _)
    | unknown _ => rfl

/-- More cuts without a faulty modifier change nothing. -/
theorem Blames.mono (h : Blames s cuts fault) (hsub : ∀ column rest, cuts column rest →
      cuts' column rest)
    (hnew : ∀ column rest, cuts' column rest → cuts column rest ∨
      ∀ m, Expression.parse rest ≠ .error (.modifier m)) : Blames s cuts' fault := by
  cases h with
  | modifier hcut hfault hlongest =>
    refine .modifier (hsub _ _ hcut) hfault fun column' rest' hcut' hlt => ?_
    exact (hnew _ _ hcut').elim (fun hold => hlongest _ _ hold hlt) id
  | unknown hnone =>
    exact .unknown fun column rest hcut => (hnew _ _ hcut).elim (hnone _ _) id

/-! ## The list of all cuts -/

/-- The cuts of a text, from the shortest column to the longest. -/
def columnCuts (s : List Char) : List (List Char × List Char) :=
  (Text.cuts '.' s).filter fun p => !p.1.isEmpty

/-- The fault of a text that is no operator expression. -/
def fault? (s : List Char) : Option Expression.Fault :=
  match Expression.parse s with
  | .error fault => some fault
  | .ok _ => none

/-- Whether a fault is that of a modifier. -/
def isModifierFault : Expression.Fault → Bool
  | .modifier _ => true
  | .unknownOperator _ => false

theorem mem_columnCuts : (column, rest) ∈ columnCuts s ↔ IsCut s column rest := by
  unfold columnCuts
  rw [List.mem_filter, Text.mem_cuts]
  constructor
  · rintro ⟨htext, hnamed⟩
    exact ⟨htext, by simpa using hnamed⟩
  · rintro ⟨htext, hnamed⟩
    exact ⟨htext, by simpa using hnamed⟩

theorem pairwise_columnCuts :
    (columnCuts s).Pairwise fun p q => p.1.length < q.1.length :=
  Text.pairwise_cuts.filter _

theorem fault?_eq_some_iff : fault? s = some fault ↔ Expression.parse s = .error fault := by
  unfold fault?
  cases Expression.parse s <;> simp

theorem isModifierFault_iff : isModifierFault fault = true ↔ ∃ m, fault = .modifier m := by
  cases fault <;> simp [isModifierFault]

/-- The first item found in a list that is in order has none before it in the order. -/
theorem eq_false_of_find? {α : Type} {r : α → α → Prop} {p : α → Bool} {items : List α} {a b : α}
    (horder : items.Pairwise r) (hasymm : ∀ a b, r a b → ¬r b a) (hfound : items.find? p = some a)
    (hb : b ∈ items) (hba : r b a) : p b = false := by
  obtain ⟨-, earlier, later, rfl, hearlier⟩ := List.find?_eq_some_iff_append.mp hfound
  obtain ⟨-, hlater, -⟩ := List.pairwise_append.mp horder
  rcases List.mem_append.mp hb with hb | hb
  · simpa using hearlier b hb
  · rcases List.mem_cons.mp hb with rfl | hb
    · exact absurd hba (hasymm _ _ hba)
    · exact absurd hba (hasymm _ _ (List.rel_of_pairwise_cons hlater hb))

theorem splitCondition_eq : splitCondition s =
    match (columnCuts s).find? fun p => Expression.accepts p.2 with
    | some p => .ok p
    | none => .error (conditionFault s ((columnCuts s).filterMap fun p => fault? p.2)) := rfl

theorem conditionFault_eq {faults : List Expression.Fault} :
    conditionFault s faults =
      (faults.reverse.find? isModifierFault).getD (.unknownOperator s) := rfl

theorem blames_conditionFault :
    Blames s (IsCut s) (conditionFault s ((columnCuts s).filterMap fun p => fault? p.2)) := by
  rw [conditionFault_eq, ← List.filterMap_reverse, List.find?_filterMap]
  cases hfound : (columnCuts s).reverse.find? fun p => (fault? p.2).any isModifierFault with
  | none =>
    refine .unknown fun column rest hcut m hfault => ?_
    have hnone := List.find?_eq_none.mp hfound (column, rest)
      (List.mem_reverse.mpr (mem_columnCuts.mpr hcut))
    rw [fault?_eq_some_iff.mpr hfault] at hnone
    exact hnone rfl
  | some p =>
    obtain ⟨column, rest⟩ := p
    have hcut : IsCut s column rest :=
      mem_columnCuts.mp (List.mem_reverse.mp (List.mem_of_find?_eq_some hfound))
    have hany := List.find?_some hfound
    obtain ⟨fault, hfault, hmodifier⟩ := (Option.any_eq_true _ _).mp hany
    obtain ⟨m, rfl⟩ := isModifierFault_iff.mp hmodifier
    show Blames s (IsCut s) ((fault? rest).getD (.unknownOperator s))
    rw [hfault]
    have hparse := fault?_eq_some_iff.mp hfault
    refine .modifier hcut hparse fun column' rest' hcut' hlt m' hfault' => ?_
    -- From the end of the list the longest columns come first.
    have hfalse := eq_false_of_find? (b := (column', rest'))
      (List.pairwise_reverse.mpr pairwise_columnCuts) (fun _ _ => Nat.lt_asymm) hfound
      (List.mem_reverse.mpr (mem_columnCuts.mpr hcut')) hlt
    rw [fault?_eq_some_iff.mpr hfault'] at hfalse
    cases hfalse

theorem isShortestCut_of_find? {p : List Char × List Char}
    (h : (columnCuts s).find? (fun p => Expression.accepts p.2) = some p) :
    IsShortestCut s p.1 p.2 := by
  have haccepts := List.find?_some h
  refine ⟨mem_columnCuts.mp (List.mem_of_find?_eq_some h), haccepts, ?_⟩
  intro column' rest' hcut' hlt
  exact eq_false_of_find? (b := (column', rest')) pairwise_columnCuts (fun _ _ => Nat.lt_asymm) h
    (mem_columnCuts.mpr hcut') hlt

theorem splitCondition_eq_ok_iff :
    splitCondition s = .ok (column, expression) ↔ IsShortestCut s column expression := by
  rw [splitCondition_eq]
  split
  · next p hp =>
    constructor
    · intro h
      cases h
      exact isShortestCut_of_find? hp
    · intro h
      obtain ⟨hcolumn, hexpression⟩ := (isShortestCut_of_find? hp).unique h
      exact congrArg Except.ok (Prod.ext hcolumn hexpression)
  · next hnone =>
    constructor
    · intro h
      cases h
    · intro h
      exact absurd h.accepts (List.find?_eq_none.mp hnone _ (mem_columnCuts.mpr h.toIsCut))

theorem splitCondition_eq_error_iff : splitCondition s = .error fault ↔
    (∀ column rest, IsCut s column rest → Expression.accepts rest = false) ∧
      Blames s (IsCut s) fault := by
  rw [splitCondition_eq]
  split
  · next p hp =>
    constructor
    · intro h
      cases h
    · rintro ⟨hnone, -⟩
      have hshortest := isShortestCut_of_find? hp
      have hfalse := hnone _ _ hshortest.toIsCut
      rw [hshortest.accepts] at hfalse
      cases hfalse
  · next hnone =>
    constructor
    · intro h
      cases h
      refine ⟨fun column rest hcut => ?_, blames_conditionFault⟩
      simpa using List.find?_eq_none.mp hnone _ (mem_columnCuts.mpr hcut)
    · rintro ⟨-, hblames⟩
      exact congrArg Except.error (blames_conditionFault.unique hblames)

/-! ## From point to point -/

/-- How far a scan for the cut of a condition has come. -/
structure CutScan where
  /-- What is left of the condition. -/
  rest : List Char
  /-- The fault of the condition if no cut is found. -/
  fault : Expression.Fault

namespace CutScan

/-- What a round of a scan comes to. -/
inductive Round where
  /-- A length in bytes is negative, or no character of the condition ends there. -/
  | outside
  /-- The scan is at its end. -/
  | ends (result : Except Expression.Fault (List Char × List Char))
  /-- The scan goes on. -/
  | goesOn (scan : CutScan)

/-- The difference of two lengths, if it is not negative. -/
def less? (m n : Nat) : Option Nat := if n ≤ m then some (m - n) else none

/-- The column before the point before `rest`, from the lengths of the texts in bytes. -/
def columnBefore? (s rest : List Char) : Option (List Char) := do
  let behind ← less? (Text.Utf8.byteLength s) (Text.Utf8.byteLength rest)
  let length ← less? behind 1
  let characters ← Text.Utf8.charOffset? s length
  return s.take characters

/-- One round of a scan: it stops behind the next point, and ends there if the column before it has
a name and leaves an operator expression. -/
def round (s : List Char) (scan : CutScan) : Round :=
  match Text.splitOnce '.' scan.rest with
  | none => .ends (.error scan.fault)
  | some (_, rest) =>
    match columnBefore? s rest with
    | none => .outside
    | some column =>
      if column.isEmpty then .goesOn ⟨rest, scan.fault⟩
      else
        match Expression.parse rest with
        | .ok _ => .ends (.ok (column, rest))
        | .error (.modifier m) => .goesOn ⟨rest, .modifier m⟩
        | .error (.unknownOperator _) => .goesOn ⟨rest, scan.fault⟩

/-- A scan before its first round. -/
def start (s : List Char) : CutScan := ⟨s, .unknownOperator s⟩

/-- What at most `n` rounds of a scan come to. -/
def run (s : List Char) : Nat → CutScan → Round
  | 0, scan => .goesOn scan
  | n + 1, scan =>
    match scan.round s with
    | .goesOn next => run s n next
    | stop => stop

/-- A cut that a scan has passed when `rest` is left. -/
def Passed (s rest column expression : List Char) : Prop :=
  IsCut s column expression ∧ rest.length ≤ expression.length

/-- What holds of a scan in every round. -/
structure Sound (s : List Char) (scan : CutScan) : Prop where
  /-- What is left ends the condition. -/
  suffix : scan.rest <:+ s
  /-- No cut that was passed leaves an operator expression. -/
  refused : ∀ column rest, Passed s scan.rest column rest → Expression.accepts rest = false
  /-- The fault is that of the condition among the cuts that were passed. -/
  blames : Blames s (Passed s scan.rest) scan.fault

variable {scan : CutScan} {left : List Char}

/-- A column is as long in bytes as its condition without the point and the rest. -/
theorem columnBefore?_append : columnBefore? (column ++ '.' :: rest) rest = some column := by
  have hpoint : Text.Utf8.byteLength ('.' :: rest) = 1 + Text.Utf8.byteLength rest := rfl
  have hbehind : less? (Text.Utf8.byteLength (column ++ '.' :: rest)) (Text.Utf8.byteLength rest) =
      some (Text.Utf8.byteLength column + 1) := by
    rw [Text.Utf8.byteLength_append, hpoint, less?, if_pos (by omega)]
    congr 1
    omega
  have hlength : less? (Text.Utf8.byteLength column + 1) 1 =
      some (Text.Utf8.byteLength column) := if_pos (Nat.le_add_left _ _)
  unfold columnBefore?
  simp only [hbehind, hlength, Text.Utf8.charOffset?_append, Option.bind_eq_bind, Option.bind_some,
    List.take_left, Option.pure_def]

/-- The point of a cut that was not passed is in what is left. -/
theorem exists_of_not_passed (hsuffix : left <:+ s) (hcut : IsCut s column rest)
    (h : rest.length < left.length) : ∃ between, left = between ++ '.' :: rest := by
  have hrest : '.' :: rest <:+ s := ⟨column, hcut.text.symm⟩
  obtain ⟨between, hbetween⟩ := List.suffix_of_suffix_length_le hrest hsuffix h
  exact ⟨between, hbetween.symm⟩

/-- Where `left` is left, the next point stands between `column`, which may be empty, and `rest`. -/
structure NextPoint (s left column rest : List Char) : Prop where
  /-- The column and the rest are all of the text, but for the point. -/
  text : s = column ++ '.' :: rest
  /-- Less is left behind the point. -/
  shorter : rest.length < left.length
  /-- All cuts before the point were passed. -/
  first : ∀ column' rest', IsCut s column' rest' → rest.length < rest'.length →
    left.length ≤ rest'.length

theorem exists_nextPoint (hsuffix : left <:+ s)
    (hsplit : Text.splitOnce '.' left = some (piece, rest)) :
    ∃ column, NextPoint s left column rest := by
  obtain ⟨hleft, hpiece⟩ := Text.splitOnce_eq_some_iff.mp hsplit
  obtain ⟨before, hbefore⟩ := hsuffix
  refine ⟨before ++ piece, ?_, ?_, ?_⟩
  · rw [← hbefore, hleft, List.append_assoc]
  · rw [hleft, List.length_append, List.length_cons]
    omega
  · intro column' rest' hcut hlt
    refine Nat.le_of_not_lt fun hunpassed => hpiece ?_
    -- A point before the next one would stand in the piece before that.
    obtain ⟨between, hbetween⟩ := exists_of_not_passed ⟨before, hbefore⟩ hcut hunpassed
    rw [hleft] at hbetween
    rcases List.append_eq_append_iff.mp hbetween with ⟨more, -, hmore⟩ | ⟨more, hmore, htail⟩
    · have hlength := congrArg List.length hmore
      simp only [List.length_append, List.length_cons] at hlength
      omega
    · cases more with
      | nil =>
        obtain ⟨-, rfl⟩ := List.cons.inj htail
        exact absurd hlt (Nat.lt_irrefl _)
      | cons c more =>
        obtain ⟨rfl, -⟩ := List.cons.inj htail
        rw [hmore]
        simp

theorem NextPoint.columnBefore? (h : NextPoint s left column rest) :
    CutScan.columnBefore? s rest = some column := by
  rw [h.text]
  exact columnBefore?_append

/-- Behind the next point one more cut is passed. -/
theorem NextPoint.passed_cases (h : NextPoint s left column rest)
    (hpassed : Passed s rest column' rest') :
    Passed s left column' rest' ∨ column' = column ∧ rest' = rest := by
  obtain ⟨hcut, hle⟩ := hpassed
  rcases Nat.lt_or_eq_of_le hle with hlt | hlength
  · exact .inl ⟨hcut, h.first column' rest' hcut hlt⟩
  · have hsame : column' ++ '.' :: rest' = column ++ '.' :: rest := hcut.text.symm.trans h.text
    obtain ⟨hcolumn, htail⟩ := List.append_inj' hsame (by simp [hlength])
    exact .inr ⟨hcolumn, (List.cons.inj htail).2⟩

/-- Nothing is passed before the first round. -/
theorem sound_start (s : List Char) : Sound s (start s) := by
  have hnone : ∀ column rest, ¬Passed s s column rest := by
    rintro column rest ⟨hcut, hle⟩
    rw [hcut.text, List.length_append, List.length_cons] at hle
    omega
  refine ⟨List.suffix_rfl, fun column rest h => absurd h (hnone column rest), ?_⟩
  exact .unknown fun column rest h => absurd h (hnone column rest)

/-- A scan with no point left has passed all cuts. -/
theorem Sound.ends (h : Sound s scan) (hsplit : Text.splitOnce '.' scan.rest = none) :
    splitCondition s = .error scan.fault := by
  have hpassed : ∀ column rest, IsCut s column rest → Passed s scan.rest column rest := by
    intro column rest hcut
    refine ⟨hcut, Nat.le_of_not_lt fun hlt => ?_⟩
    obtain ⟨between, hbetween⟩ := exists_of_not_passed h.suffix hcut hlt
    rw [Text.splitOnce_eq_none_iff, hbetween] at hsplit
    exact hsplit (by simp)
  refine splitCondition_eq_error_iff.mpr ⟨fun column rest hcut => ?_, ?_⟩
  · exact h.refused column rest (hpassed column rest hcut)
  · exact h.blames.mono (fun _ _ hold => hold.1) fun column rest hcut =>
      .inl (hpassed column rest hcut)

/-- The next cut is the one of the condition if it leaves an operator expression, since those that
were passed leave none. -/
theorem Sound.found (h : Sound s scan) (hnext : NextPoint s scan.rest column rest)
    (hnamed : column ≠ []) (haccepts : Expression.accepts rest = true) :
    splitCondition s = .ok (column, rest) := by
  have hcut : IsCut s column rest := ⟨hnext.text, hnamed⟩
  refine splitCondition_eq_ok_iff.mpr ⟨hcut, haccepts, fun column' rest' hcut' hlt => ?_⟩
  have hless : rest.length < rest'.length := (hcut'.length_lt_iff hcut).mp hlt
  exact h.refused column' rest' ⟨hcut', hnext.first column' rest' hcut' hless⟩

/-- A scan stays sound behind the next point if the cut there leaves no operator expression. -/
theorem Sound.next (h : Sound s scan) (hnext : NextPoint s scan.rest column rest)
    (hrefused : IsCut s column rest → Expression.accepts rest = false)
    (hblames : Blames s (Passed s rest) fault) : Sound s ⟨rest, fault⟩ := by
  refine ⟨⟨column ++ ['.'], ?_⟩, fun column' rest' hpassed => ?_, hblames⟩
  · rw [hnext.text]
    simp
  · rcases hnext.passed_cases hpassed with hold | ⟨rfl, rfl⟩
    · exact h.refused column' rest' hold
    · exact hrefused hpassed.1

/-- The fault is kept where the next cut has no faulty modifier. -/
theorem Sound.blames_kept (h : Sound s scan) (hnext : NextPoint s scan.rest column rest)
    (hnone : IsCut s column rest → ∀ m, Expression.parse rest ≠ .error (.modifier m)) :
    Blames s (Passed s rest) scan.fault := by
  refine h.blames.mono (fun column' rest' hold => ?_) fun column' rest' hpassed => ?_
  · exact ⟨hold.1, Nat.le_trans (Nat.le_of_lt hnext.shorter) hold.2⟩
  · rcases hnext.passed_cases hpassed with hold | ⟨rfl, rfl⟩
    · exact .inl hold
    · exact .inr (hnone hpassed.1)

/-- No column that was passed is longer than the last one. -/
theorem blames_passed {m : Expression.ModifierFault} (hcut : IsCut s column rest)
    (hfault : Expression.parse rest = .error (.modifier m)) :
    Blames s (Passed s rest) (.modifier m) := by
  refine .modifier ⟨hcut, Nat.le_refl _⟩ hfault fun column' rest' hpassed hlt => ?_
  have hless : rest'.length < rest.length := (hcut.length_lt_iff hpassed.1).mp hlt
  exact absurd hpassed.2 (Nat.not_le_of_lt hless)

/-- A sound scan is in its last round, which finds the cut of the condition, or has a sound scan
with fewer points left as its next. -/
theorem Sound.round (h : Sound s scan) : scan.round s = .ends (splitCondition s) ∨
    ∃ next, scan.round s = .goesOn next ∧ Sound s next ∧
      next.rest.count '.' < scan.rest.count '.' := by
  cases hsplit : Text.splitOnce '.' scan.rest with
  | none =>
    left
    rw [h.ends hsplit, CutScan.round, hsplit]
  | some found =>
    obtain ⟨piece, rest⟩ := found
    obtain ⟨column, hnext⟩ := exists_nextPoint h.suffix hsplit
    have hcolumn := hnext.columnBefore?
    have hcount : rest.count '.' < scan.rest.count '.' := by
      rw [(Text.splitOnce_eq_some_iff.mp hsplit).1, List.count_append, List.count_cons_self]
      omega
    cases column with
    | nil =>
      -- The text before the point is no column, so there is no new cut.
      have hnone : ¬IsCut s [] rest := fun hcut => hcut.named rfl
      right
      refine ⟨⟨rest, scan.fault⟩, ?_, ?_, hcount⟩
      · simp only [CutScan.round, hsplit, hcolumn]
        rfl
      · exact h.next hnext (fun hcut => absurd hcut hnone)
          (h.blames_kept hnext fun hcut => absurd hcut hnone)
    | cons c column =>
      have hnamed : c :: column ≠ [] := List.cons_ne_nil c column
      cases hparse : Expression.parse rest with
      | ok e =>
        left
        have haccepts : Expression.accepts rest = true := Expression.accepts_iff.mpr ⟨e, hparse⟩
        rw [h.found hnext hnamed haccepts]
        simp only [CutScan.round, hsplit, hcolumn, hparse]
        rfl
      | error fault =>
        right
        have hrefused : Expression.accepts rest = false := by
          rw [Expression.accepts, hparse]
          rfl
        cases fault with
        | modifier m =>
          refine ⟨⟨rest, .modifier m⟩, ?_, ?_, hcount⟩
          · simp only [CutScan.round, hsplit, hcolumn, hparse]
            rfl
          · exact h.next hnext (fun _ => hrefused) (blames_passed ⟨hnext.text, hnamed⟩ hparse)
        | unknownOperator token =>
          refine ⟨⟨rest, scan.fault⟩, ?_, ?_, hcount⟩
          · simp only [CutScan.round, hsplit, hcolumn, hparse]
            rfl
          · refine h.next hnext (fun _ => hrefused) (h.blames_kept hnext ?_)
            rw [hparse]
            rintro - m hm
            cases hm

/-- A sound scan never leaves the text, and ends once it has had more rounds than there are points
left. -/
theorem Sound.run (h : Sound s scan) (n : Nat) : CutScan.run s n scan ≠ .outside ∧
    (scan.rest.count '.' < n → CutScan.run s n scan = .ends (splitCondition s)) := by
  induction n generalizing scan with
  | zero =>
    refine ⟨?_, fun hlt => absurd hlt (Nat.not_lt_zero _)⟩
    intro hrun
    cases hrun
  | succ n ih =>
    rw [CutScan.run]
    rcases h.round with hround | ⟨next, hround, hnext, hcount⟩
    · rw [hround]
      refine ⟨?_, fun _ => rfl⟩
      intro hrun
      cases hrun
    · rw [hround]
      obtain ⟨hinside, hends⟩ := ih hnext
      exact ⟨hinside, fun hlt => hends (by omega)⟩

end CutScan

/-- A condition is cut behind the shortest column that leaves an operator expression. If no column
does, the fault is that of the modifier behind the longest column that has a faulty one there, and
otherwise that of the whole text. A scan from point to point finds this cut after at most one round
more than there are points, and never leaves the text. -/
theorem splitCondition_shortest (s : List Char) :
    (∀ column expression,
      splitCondition s = .ok (column, expression) ↔ IsShortestCut s column expression) ∧
    ((∃ fault, splitCondition s = .error fault) ↔
      ¬∃ column expression, IsCut s column expression ∧ Expression.accepts expression = true) ∧
    (∀ fault, splitCondition s = .error fault ↔
      (¬∃ column expression, IsCut s column expression ∧ Expression.accepts expression = true) ∧
        Blames s (IsCut s) fault) ∧
    CutScan.run s (s.count '.' + 1) (CutScan.start s) = .ends (splitCondition s) ∧
    ∀ n, CutScan.run s n (CutScan.start s) ≠ .outside := by
  have hrefused : (∀ column rest, IsCut s column rest → Expression.accepts rest = false) ↔
      ¬∃ column expression, IsCut s column expression ∧ Expression.accepts expression = true := by
    simp only [not_exists, not_and, Bool.not_eq_true]
  have hsound := CutScan.sound_start s
  refine ⟨fun column expression => splitCondition_eq_ok_iff, ?_, ?_, ?_, fun n => (hsound.run n).1⟩
  · constructor
    · rintro ⟨fault, h⟩
      exact hrefused.mp (splitCondition_eq_error_iff.mp h).1
    · intro h
      cases hsplit : splitCondition s with
      | ok p =>
        obtain ⟨column, expression⟩ := p
        have hshortest := splitCondition_eq_ok_iff.mp hsplit
        exact absurd ⟨column, expression, hshortest.toIsCut, hshortest.accepts⟩ h
      | error fault => exact ⟨fault, rfl⟩
  · intro fault
    rw [splitCondition_eq_error_iff, hrefused]
  · exact (hsound.run _).2 (Nat.lt_succ_self _)

-- A column may hold points and be called like a negation, and the operand may hold points too.
example : splitCondition "not.ä.not.eq.1.5".toList =
    .ok ("not.ä".toList, "not.eq.1.5".toList) := by
  decide +kernel

-- Of the faults of `eq(x)`, `b` and `like(` the last one of a modifier is kept.
example : splitCondition "ä.eq(x).b.like(".toList =
    .error (.modifier (.unclosed "like(".toList)) := by
  decide +kernel

end RestQuery.Filters
