import RestQuery.Proofs.Select.Reading

/-!
# Fields read back

A field is read back from what `Select.render` writes of it, with the name that is left out where it
is the default one. This fails only where a key of its path is cut short.
-/

namespace RestQuery.Select

open Text (Stops Begins)

variable {rest s left : List Char} {maxDepth levels : Nat} {nested : Option ListReader}
  {name : Option String} {node : Node}

/-! ## First characters -/

/-- What an entry is written with in front. -/
def BeginsEntry (c : Char) : Prop := c = '*' ∨ c = '.' ∨ c = '"' ∨ isNameChar c = true

theorem BeginsEntry.not_blank {c : Char} (h : BeginsEntry c) :
    (c = ' ' || c = '\t' || c = '\r' || c = '\n') = false := by
  by_contra hb
  simp only [Bool.not_eq_false, Bool.or_eq_true, decide_eq_true_eq] at hb
  rcases hb with ((rfl | rfl) | rfl) | rfl <;> revert h <;> unfold BeginsEntry <;> decide

theorem BeginsEntry.ne_bracket {c : Char} (h : BeginsEntry c) : c ≠ ')' := by
  rintro rfl
  revert h
  unfold BeginsEntry
  decide

/-- No blank is skipped before an entry. -/
theorem skipBlanks_of_beginsEntry {c : Char} (hc : BeginsEntry c) :
    skipBlanks (c :: s) = c :: s := by
  rw [skipBlanks, List.dropWhile_cons, if_neg (by simp [hc.not_blank])]

/-! ## Names before a colon -/

/-- The name that is written before a colon: none where it is the default one. -/
def writtenName (name default : String) : Option String :=
  if name = default then none else some name

@[simp] theorem writtenName_getD (name default : String) :
    (writtenName name default).getD default = name := by
  unfold writtenName
  split
  · next h => exact h.symm
  · rfl

/-- A name is written with a quote or one of its own characters in front. -/
theorem renderName_eq_cons (name : String) :
    ∃ c cs, renderName name = c :: cs ∧ (c = '"' ∨ isNameChar c = true) := by
  by_cases hp : IsPlain name.toList
  · rw [renderName_of_isPlain hp]
    obtain ⟨c, cs, hcs⟩ := List.exists_cons_of_ne_nil hp.1
    exact ⟨c, cs, hcs, .inr (hp.2 c (hcs ▸ List.mem_cons_self))⟩
  · exact ⟨'"', _, renderName_of_not_isPlain hp, .inl rfl⟩

theorem skipBlanks_renderName {name : String} :
    skipBlanks (renderName name ++ rest) = renderName name ++ rest := by
  obtain ⟨c, cs, hcs, hc⟩ := renderName_eq_cons name
  rw [hcs, List.cons_append, skipBlanks_of_beginsEntry (.inr (.inr hc))]

/-- What may follow the name of a column or table: an arrow, a point, a modifier, a bracket, the end
of the node, or the two colons of a cast, but not the colon after a name that is given. -/
structure FollowsName (s : List Char) : Prop where
  /-- The first character. -/
  begins : Begins ['-', ':', '.', '!', '(', ',', ')'] s
  /-- A colon does not stand alone. -/
  colon : ∀ t, s = ':' :: t → ∃ u, t = ':' :: u

theorem FollowsName.stops (h : FollowsName s) : Stops isNameChar s := h.begins.stops (by decide)

/-- A node without a name before a colon is read as it stands. -/
theorem readAliased_unnamed {source : String} (hs : source ≠ "") (h : FollowsName s) :
    readAliased maxDepth nested (renderName source ++ s) =
      readNamed maxDepth nested none (renderName source ++ s) := by
  unfold readAliased
  rw [readName_renderName hs h.stops, ok_bind]
  dsimp only
  split
  · rfl
  · next t hnot =>
    obtain ⟨u, rfl⟩ := h.colon t rfl
    exact absurd rfl (hnot u)
  · rfl

/-- A node after a name and a colon gets the name. -/
theorem readAliased_named {n source : String} (hn : n ≠ "") :
    readAliased maxDepth nested (renderName n ++ [':'] ++ (renderName source ++ s)) =
      readNamed maxDepth nested (some n) (renderName source ++ s) := by
  have hstop : Stops isNameChar (':' :: (renderName source ++ s)) := by simp; decide
  obtain ⟨c, cs, hcs, hc⟩ := renderName_eq_cons source
  -- A second colon would make the first one that of a cast.
  have hcolon : c ≠ ':' := by
    rintro rfl
    rcases hc with hc | hc
    · exact absurd hc (by decide)
    · exact absurd hc (by decide)
  unfold readAliased
  rw [List.append_assoc, List.singleton_append, readName_renderName hn hstop, ok_bind]
  dsimp only
  split
  · next t heq =>
    rw [hcs] at heq
    simp only [List.cons_append, List.cons.injEq, true_and] at heq
    exact absurd heq.1 hcolon
  · next t _ heq =>
    cases heq
    rw [skipBlanks_renderName]
  · next hnot =>
    exact absurd rfl (hnot _)

/-- A node gets the name that is written before it, if one is. -/
theorem readAliased_written {n default source : String} (hn : n ≠ "") (hs : source ≠ "")
    (h : FollowsName s) :
    readAliased maxDepth nested
        ((if n = default then [] else renderName n ++ [':']) ++ (renderName source ++ s)) =
      readNamed maxDepth nested (writtenName n default) (renderName source ++ s) := by
  unfold writtenName
  split
  · exact readAliased_unnamed hs h
  · exact readAliased_named hn

/-! ## Fields of a column -/

/-- What is written of an aggregate, with the cast before it. -/
def renderAggregate (f : Field) : List Char :=
  match f.aggregate with
  | some a => renderCast f.preCast ++ '.' :: a.name.toList ++ "()".toList
  | none => []

/-- What is written of a field after its column. -/
def renderTail (f : Field) : List Char :=
  renderPath f.pathAsText f.path ++ (renderAggregate f ++ renderCast f.cast)

theorem renderField_column {f : Field} {column : String} (h : f.column = some column) :
    renderField f = (if f.name = f.defaultName then [] else renderName f.name ++ [':']) ++
      (renderName column ++ renderTail f) := by
  cases ha : f.aggregate <;> simp [renderField, renderTail, renderAggregate, h, ha]

theorem begins_renderCast (cast : Option String) : Begins [':'] (renderCast cast) := by
  cases cast <;> simp [renderCast]

theorem begins_renderAggregate (f : Field) : Begins [':', '.'] (renderAggregate f) := by
  unfold renderAggregate
  split
  · cases f.preCast <;> simp [renderCast]
  · simp

/-- A text that begins with a colon where a cast or a field goes on begins with two. -/
theorem colon_renderCast (cast : Option String) (hr : Begins ['.', ',', ')'] rest) :
    ∀ t, renderCast cast ++ rest = ':' :: t → ∃ u, t = ':' :: u := by
  intro t ht
  cases cast with
  | none =>
    change rest = ':' :: t at ht
    subst ht
    exact absurd (hr ':' rfl) (by decide)
  | some type =>
    cases ht
    exact ⟨_, rfl⟩

/-- What follows the path of a field ends the path. -/
theorem begins_renderAggregate_append (f : Field) (hr : Begins [',', ')'] rest) :
    Begins [':', '.', ',', ')'] (renderAggregate f ++ renderCast f.cast ++ rest) := by
  refine Begins.append (Begins.append ?_ ?_) (hr.mono (by simp))
  · exact (begins_renderAggregate f).mono (by simp)
  · exact (begins_renderCast _).mono (by simp)

theorem begins_renderTail (f : Field) (hr : Begins [',', ')'] rest) :
    Begins ['-', ':', '.', ',', ')'] (renderTail f ++ rest) := by
  rw [renderTail, List.append_assoc]
  refine Begins.append ?_ ((begins_renderAggregate_append f hr).mono (by simp))
  exact (begins_renderPath _ _).mono (by simp)

theorem followsName_renderTail (f : Field) (hr : Begins [',', ')'] rest) :
    FollowsName (renderTail f ++ rest) := by
  refine ⟨(begins_renderTail f hr).mono (by simp), fun t ht => ?_⟩
  have hrest : Begins ['.', ',', ')'] rest := hr.mono (by simp)
  unfold renderTail at ht
  cases hp : renderPath f.pathAsText f.path with
  | cons c cs =>
    have hc : c = '-' := by simpa [hp] using begins_renderPath f.pathAsText f.path
    rw [hp, hc] at ht
    cases ht
  | nil =>
    rw [hp] at ht
    unfold renderAggregate at ht
    split at ht
    · simp only [List.nil_append, List.append_assoc] at ht
      exact colon_renderCast _ (by simp) t ht
    · exact colon_renderCast _ hrest t ht

theorem length_le_renderPath (asText : Bool) (path : List PathKey) :
    path.length ≤ (renderPath asText path).length := by
  induction path with
  | nil => simp
  | cons k path ih =>
    cases path with
    | nil => cases asText <;> simp [renderPath]
    | cons k' path =>
      rw [renderPath_cons_cons]
      simp only [List.length_cons, List.length_append] at ih ⊢
      have : "->".toList.length = 2 := rfl
      omega

theorem length_le_renderPath_append (asText : Bool) (path : List PathKey) (s : List Char) :
    path.length ≤ (renderPath asText path ++ s).length := by
  have := length_le_renderPath asText path
  simp only [List.length_append]
  omega

theorem readPath_renderTail {f : Field} (hf : f.WellFormed)
    (hcut : ∀ k ∈ f.path, isCutShort k = false) (hr : Begins [',', ')'] rest) :
    readPath (renderTail f ++ rest) =
      .ok ((f.path, f.pathAsText), renderAggregate f ++ (renderCast f.cast ++ rest)) := by
  unfold readPath renderTail
  rw [List.append_assoc, readPathWithin_renderPath hf.keys hcut hf.text_path
    (begins_renderAggregate_append f hr) (length_le_renderPath_append _ _ _)]
  rw [List.append_assoc]

/-- A field whose path is read back has no key that is cut short. -/
theorem isCutShort_of_readPath {f : Field} {asText : Bool} (hf : f.WellFormed)
    (hr : Begins [',', ')'] rest)
    (h : readPath (renderTail f ++ rest) = .ok ((f.path, asText), left)) :
    ∀ k ∈ f.path, isCutShort k = false := by
  unfold readPath renderTail at h
  rw [List.append_assoc] at h
  exact isCutShort_of_readPathWithin hf.keys (begins_renderAggregate_append f hr)
    (length_le_renderPath_append _ _ _) h

theorem readField_renderTail {f : Field} {column : String} (hf : f.WellFormed)
    (hc : f.column = some column) (hcut : ∀ k ∈ f.path, isCutShort k = false)
    (hr : Begins [',', ')'] rest) :
    readField column name (renderTail f ++ rest) =
      .ok (⟨Field.toEntry { f with name := name.getD f.defaultName }, none⟩, rest) := by
  have hrest : Begins ['.', ',', ')'] rest := hr.mono (by simp)
  have hcast := readCast_renderCast hf.cast_type hrest
  unfold readField
  rw [readPath_renderTail hf hcut hr, ok_bind]
  cases ha : f.aggregate with
  | none =>
    have hpre := hf.preCast_none ha
    simp only [renderAggregate, ha, List.nil_append, hcast, ok_bind, readAggregate_none hr]
    simp [Field.defaultName, hc, ha, hpre]
  | some a =>
    have hpre : readCast (renderCast f.preCast ++ ('.' :: a.name.toList ++ "()".toList ++
        (renderCast f.cast ++ rest))) =
        .ok (f.preCast, '.' :: a.name.toList ++ "()".toList ++ (renderCast f.cast ++ rest)) :=
      readCast_renderCast hf.preCast_type (by simp)
    have htext : renderAggregate f ++ (renderCast f.cast ++ rest) =
        renderCast f.preCast ++ ('.' :: a.name.toList ++ "()".toList ++
          (renderCast f.cast ++ rest)) := by
      simp [renderAggregate, ha]
    simp only [htext, hpre, readAggregate_some, hcast, ok_bind]
    simp [Field.defaultName, hc, ha]

/-- A name that neither a modifier nor a bracket follows is that of a column. -/
theorem readNamed_field {column : String} (hc : column ≠ "")
    (hbegin : Begins ['-', ':', '.', ',', ')'] s) :
    readNamed maxDepth nested name (renderName column ++ s) = readField column name s := by
  unfold readNamed
  rw [readName_renderName hc (hbegin.stops (by decide)), ok_bind]
  dsimp only
  split
  · exact absurd (hbegin '(' rfl) (by decide)
  · split
    · exact absurd (hbegin '!' rfl) (by decide)
    · exact absurd (hbegin '(' rfl) (by decide)
    · rfl

/-- A field of a column is read after its name, if one is written. -/
theorem readAliased_renderField_column {f : Field} {column : String} (hf : f.WellFormed)
    (hc : f.column = some column) (hr : Begins [',', ')'] rest) :
    readAliased maxDepth nested (renderField f ++ rest) =
      readField column (writtenName f.name f.defaultName) (renderTail f ++ rest) := by
  have hne := hf.column_ne column hc
  rw [renderField_column hc, List.append_assoc, List.append_assoc,
    readAliased_written hf.name_ne hne (followsName_renderTail f hr),
    readNamed_field hne (begins_renderTail f hr)]

/-! ## The count of rows -/

theorem isPlain_count : IsPlain "count".toList := isPlain_iff.mpr (by decide)

theorem renderName_count : renderName "count" = "count".toList :=
  renderName_of_isPlain isPlain_count

theorem readNamed_count :
    readNamed maxDepth nested name ("count()".toList ++ s) =
      (readCast s >>= fun r =>
        .ok (⟨.field { Field.rowCount with
          name := name.getD Field.rowCount.name, cast := r.1 }, none⟩, r.2)) := by
  have hname : readName ("count".toList ++ '(' :: ')' :: s) = .ok ("count", '(' :: ')' :: s) :=
    readName_plain isPlain_count (by simp; decide)
  unfold readNamed
  rw [show "count()".toList ++ s = "count".toList ++ '(' :: ')' :: s from rfl, hname, ok_bind]
  rfl

theorem readAliased_renderField_rowCount {f : Field} (hf : f.WellFormed) (hc : f.column = none)
    (hr : Begins [',', ')'] rest) :
    readAliased maxDepth nested (renderField f ++ rest) = .ok (⟨.field f, none⟩, rest) := by
  have hdefault : f.defaultName = "count" := by
    rw [hf.rowCount hc]
    rfl
  have htext : renderField f ++ rest =
      (if f.name = "count" then [] else renderName f.name ++ [':']) ++
        (renderName "count" ++ ("()".toList ++ (renderCast f.cast ++ rest))) := by
    simp [renderField, hc, hdefault, renderName_count]
  rw [htext, readAliased_written hf.name_ne (by decide) ⟨by simp, by simp⟩, renderName_count]
  rw [show "count".toList ++ ("()".toList ++ (renderCast f.cast ++ rest)) =
    "count()".toList ++ (renderCast f.cast ++ rest) from rfl, readNamed_count,
    readCast_renderCast hf.cast_type (hr.mono (by simp)), ok_bind]
  have hname : (writtenName f.name "count").getD Field.rowCount.name = f.name :=
    writtenName_getD f.name "count"
  simp only [hname]
  rw [← hf.rowCount hc]

/-! ## Fields -/

/-- A field is read back, unless a key of its path is cut short. -/
theorem readAliased_renderField {f : Field} (hf : f.WellFormed)
    (hcut : ∀ k ∈ f.path, isCutShort k = false) (hr : Begins [',', ')'] rest) :
    readAliased maxDepth nested (renderField f ++ rest) = .ok (⟨f.toEntry, none⟩, rest) := by
  cases hc : f.column with
  | none =>
    have hentry : f.toEntry = .field f := by
      rw [hf.rowCount hc]
      simp [Field.toEntry, Field.rowCount]
    rw [readAliased_renderField_rowCount hf hc hr, hentry]
  | some column =>
    rw [readAliased_renderField_column hf hc hr, readField_renderTail hf hc hcut hr,
      writtenName_getD]

/-- A field that is read back has no key that is cut short. -/
theorem isCutShort_of_readAliased {f : Field} (hf : f.WellFormed) (hr : Begins [',', ')'] rest)
    (h : readAliased maxDepth nested (renderField f ++ rest) = .ok (node, left))
    (he : node.entry = .field f) : ∀ k ∈ f.path, isCutShort k = false := by
  cases hc : f.column with
  | none =>
    have hpath : f.path = [] := by
      rw [hf.rowCount hc]
      rfl
    simp [hpath]
  | some column =>
    rw [readAliased_renderField_column hf hc hr] at h
    have hname : ∀ n ∈ writtenName f.name f.defaultName, n ≠ "" := by
      intro n hn
      unfold writtenName at hn
      split at hn
      · cases hn
      · cases hn
        exact hf.name_ne
    obtain ⟨g, rfl, -, s, hpath⟩ := readField_cases (hf.column_ne column hc) hname h
    have hg : g = f := Field.eq_of_toEntry he
    subst hg
    exact isCutShort_of_readPath hf hr hpath

end RestQuery.Select
