import RestQuery.Proofs.Select.Fields

/-!
# Embeds read back

What `Select.render` writes of an embed before its list is read back, so that reading the embed
comes down to reading its list. One embed is not read as such: without entries, over a table called
`count` and without modifiers it is written as the count of rows is.
-/

namespace RestQuery.Select

open Text (Stops Begins)

variable {rest s inner left : List Char} {maxDepth : Nat} {nested : Option ListReader}
  {read : ListReader} {name : Option String} {join : Join} {node : Node}

/-! ## Modifiers -/

/-- What is written of a hint. -/
def renderHint : Option String → List Char
  | some hint => '!' :: renderName hint
  | none => []

/-- What is written of a join type. -/
def renderType : JoinType → List Char
  | .left => []
  | .inner => "!inner".toList

/-- What is written of a join after its table. -/
def renderModifiers (join : Join) : List Char := renderHint join.hint ++ renderType join.type

theorem renderHead_eq (name : String) (spread : Bool) (join : Join) :
    renderHead name spread join =
      (if spread then "...".toList else []) ++
        ((if name = join.table then [] else renderName name ++ [':']) ++
          (renderName join.table ++ renderModifiers join)) := by
  obtain ⟨table, type, hint⟩ := join
  cases type <;> cases hint <;>
    simp [renderHead, renderModifiers, renderHint, renderType]

theorem begins_renderModifiers (join : Join) : Begins ['!'] (renderModifiers join) := by
  obtain ⟨table, type, hint⟩ := join
  cases type <;> cases hint <;> simp [renderModifiers, renderHint, renderType]

theorem readModifiersWithin_end (fuel : Nat) (join : Join) (type : Option JoinType) :
    readModifiersWithin fuel join type ('(' :: inner) = .ok ((join, type), '(' :: inner) := by
  cases fuel <;> simp [readModifiersWithin]

/-- The join type is read back; a left join is what is taken where none is given. -/
theorem readModifiersWithin_type {fuel : Nat} (hfuel : 0 < fuel) (join : Join) (type : JoinType)
    (inner : List Char) :
    ∃ given : Option JoinType, given.getD .left = type ∧
      readModifiersWithin fuel join none (renderType type ++ '(' :: inner) =
        .ok ((join, given), '(' :: inner) := by
  cases type with
  | left => exact ⟨none, rfl, readModifiersWithin_end fuel join none⟩
  | inner =>
    obtain ⟨n, rfl⟩ := Nat.exists_eq_add_of_lt hfuel
    have hplain : IsPlain "inner".toList := isPlain_iff.mpr (by decide)
    have hname : readName ("inner".toList ++ '(' :: inner) = .ok ("inner", '(' :: inner) :=
      readName_plain hplain (by simp; decide)
    refine ⟨some .inner, rfl, ?_⟩
    show readModifiersWithin (0 + n + 1) join none ('!' :: ("inner".toList ++ '(' :: inner)) = _
    simp only [readModifiersWithin, hname, ok_bind]
    exact readModifiersWithin_end _ join _

theorem readModifiersWithin_hint (fuel : Nat) (join : Join) {hint : String} (hne : hint ≠ "")
    (hword : hint ≠ "inner" ∧ hint ≠ "left") (hnone : join.hint = none)
    (hs : Stops isNameChar s) :
    readModifiersWithin (fuel + 1) join none ('!' :: (renderName hint ++ s)) =
      readModifiersWithin fuel { join with hint := some hint } none s := by
  have hif : ¬ (hint = "inner" || hint = "left") = true := by simpa using hword
  simp only [readModifiersWithin, readName_renderName hne hs, ok_bind, if_neg hif, hnone]
  rfl

theorem readJoin_renderModifiers (hj : join.WellFormed) :
    readJoin join.table (renderModifiers join ++ '(' :: inner) = .ok (join, '(' :: inner) := by
  obtain ⟨table, type, hint⟩ := join
  have hpos : 0 < (renderType type ++ '(' :: inner).length := by
    simp only [List.length_append, List.length_cons]
    omega
  unfold readJoin renderModifiers
  cases hint with
  | none =>
    obtain ⟨given, hgiven, hread⟩ := readModifiersWithin_type hpos { table } type inner
    simp only [renderHint, List.nil_append, hread, ok_bind, hgiven, pure_eq_ok]
  | some hint =>
    have hstop : Stops isNameChar (renderType type ++ '(' :: inner) := by
      cases type <;> (simp [renderType]; decide)
    have hlen : 0 < (renderName hint ++ (renderType type ++ '(' :: inner)).length := by
      simp only [List.length_append, List.length_cons]
      omega
    obtain ⟨given, hgiven, hread⟩ := readModifiersWithin_type hlen { table, hint := some hint }
      type inner
    have htext : renderHint (some hint) ++ renderType type ++ '(' :: inner =
        '!' :: (renderName hint ++ (renderType type ++ '(' :: inner)) := by
      simp [renderHint]
    have hhint := readModifiersWithin_hint
      (renderName hint ++ (renderType type ++ '(' :: inner)).length { table }
      (hj.hint_ne hint rfl) (hj.hint_word hint rfl) rfl hstop
    simp only [htext, List.length_cons, hhint, hread, ok_bind, hgiven, pure_eq_ok]

theorem begins_renderModifiers_bracket (join : Join) (inner : List Char) :
    Begins ['!', '('] (renderModifiers join ++ '(' :: inner) :=
  Begins.append ((begins_renderModifiers join).mono (by simp)) (by simp)

/-! ## Embeds -/

/-- What becomes of an embed once its list is read. -/
def closeEmbed (name : String) (join : Join) (r : Select × List Char) :
    Reading (Node × List Char) :=
  match skipBlanks r.2 with
  | ')' :: left => .ok (⟨.embed name false {} r.1.entries r.1.joins, some (name, join)⟩, left)
  | s => stop s .openList

/-- What follows the table of an embed is read by reading the list. -/
theorem readEmbed_renderModifiers (hj : join.WellFormed) :
    readEmbed maxDepth (some read) join.table name (renderModifiers join ++ '(' :: inner) =
      read inner >>= closeEmbed (name.getD join.table) join := by
  unfold readEmbed
  rw [readJoin_renderModifiers hj, ok_bind]
  rfl

/-- Only an embed that is written without modifiers and without entries over a table called `count`
is read as the count of rows. -/
theorem readNamed_embed (hj : join.WellFormed)
    (hcount : join = { table := "count" } → inner.head? ≠ some ')') :
    readNamed maxDepth nested name
        (renderName join.table ++ (renderModifiers join ++ '(' :: inner)) =
      readEmbed maxDepth nested join.table name (renderModifiers join ++ '(' :: inner) := by
  have hbegin := begins_renderModifiers_bracket join inner
  unfold readNamed
  rw [readName_renderName hj.table_ne (hbegin.stops (by decide)), ok_bind]
  dsimp only
  split
  -- The count of rows is looked for first, so its text has to be excluded.
  · next rest htable htext =>
    have hjoin : join = { table := "count" } := by
      obtain ⟨table, type, hint⟩ := join
      cases type <;> cases hint <;> simp_all [renderModifiers, renderHint, renderType]
    subst hjoin
    cases htext
    exact absurd rfl (hcount rfl)
  · split
    · rfl
    · rfl
    · next hmodifier hbracket =>
      cases htext : renderModifiers join ++ '(' :: inner with
      | nil => simp at htext
      | cons c s =>
        have hc : c = '!' ∨ c = '(' := by simpa [htext] using hbegin
        rcases hc with rfl | rfl
        · exact (hmodifier s htext).elim
        · exact (hbracket s htext).elim

theorem followsName_renderModifiers (join : Join) :
    FollowsName (renderModifiers join ++ '(' :: inner) := by
  have hbegin := begins_renderModifiers_bracket join inner
  refine ⟨hbegin.mono (by simp), fun t ht => ?_⟩
  rw [ht] at hbegin
  exact absurd (hbegin ':' rfl) (by decide)

/-- An embed is read up to its list, with the name that is written before its table if one is. -/
theorem readAliased_renderHead {n : String} (hn : n ≠ "") (hj : join.WellFormed)
    (hcount : join = { table := "count" } → inner.head? ≠ some ')') :
    readAliased maxDepth (some read) (renderHead n false join ++ '(' :: inner) =
      read inner >>= closeEmbed n join := by
  have htext : renderHead n false join ++ '(' :: inner =
      (if n = join.table then [] else renderName n ++ [':']) ++
        (renderName join.table ++ (renderModifiers join ++ '(' :: inner)) := by
    simp [renderHead_eq]
  rw [htext, readAliased_written hn hj.table_ne (followsName_renderModifiers join),
    readNamed_embed hj hcount, readEmbed_renderModifiers hj, writtenName_getD]

/-- An embed that is written as the count of rows is read as that. -/
theorem readAliased_renderHead_count {n : String} (hn : n ≠ "")
    (h : readAliased maxDepth nested
      (renderHead n false { table := "count" } ++ '(' :: ')' :: rest) = .ok (node, left)) :
    ∃ f, node.entry = .field f := by
  have htext : renderHead n false { table := "count" } ++ '(' :: ')' :: rest =
      (if n = "count" then [] else renderName n ++ [':']) ++
        (renderName "count" ++ ("()".toList ++ rest)) := by
    simp [renderHead_eq, renderModifiers, renderHint, renderType]
  rw [htext, readAliased_written hn (by decide) ⟨by simp, by simp⟩, renderName_count] at h
  rw [show "count".toList ++ ("()".toList ++ rest) = "count()".toList ++ rest from rfl,
    readNamed_count] at h
  obtain ⟨r, -, hnode⟩ := bind_eq_ok.mp h
  cases hnode
  exact ⟨_, rfl⟩

end RestQuery.Select
