import Mathlib.Data.List.Infix
import RestQuery.Error
import RestQuery.Proofs.Select.Pieces
import RestQuery.Proofs.Text.Utf8

/-!
# Where the reading of a select list stops

What a reader leaves, and what is left where it stops, ends the text that it was given. So the place
of a fault is a place in the select list. Main statement: what stands before a character that is
left over is read as a list by itself (`parse_position`).
-/

namespace RestQuery

namespace Select

variable {α β : Type} {maxDepth levels : Nat} {nested : Option ListReader}
  {s t left rest : List Char} {name : Option String} {outcome : Reading (α × List Char)} {a : α}
  {fault : Fault}

/-! ## Readings within a text -/

/-- Whether a fault is that a character is left over, which no reader finds. -/
def Fault.isLeftOver : Fault → Bool
  | .unexpected _ => true
  | _ => false

/-- What is left of a text, or was left where a reader stopped, ends the text. -/
def Stays (s : List Char) (outcome : Reading (α × List Char)) : Prop :=
  match outcome with
  | .ok (_, left) => left <:+ s
  | .error e => e.rest <:+ s ∧ e.fault.isLeftOver = false

theorem Stays.ok (h : left <:+ s) : Stays s (.ok (a, left)) := h

theorem Stays.stop (h : rest <:+ s) (hfault : fault.isLeftOver = false) :
    Stays (α := α) s (stop rest fault) :=
  ⟨h, hfault⟩

theorem Stays.suffix (h : Stays s outcome) (hok : outcome = .ok (a, left)) : left <:+ s := by
  rw [hok] at h
  exact h

theorem Stays.of_suffix (h : Stays t outcome) (ht : t <:+ s) : Stays s outcome := by
  cases outcome with
  | ok p => exact List.IsSuffix.trans h ht
  | error e => exact ⟨h.1.trans ht, h.2⟩

/-- What is read next may stop anywhere in the text. -/
theorem Stays.bind_of_suffix {next : α × List Char → Reading (β × List Char)} (h : Stays s outcome)
    (hnext : ∀ a left, left <:+ s → Stays s (next (a, left))) : Stays s (outcome >>= next) := by
  cases outcome with
  | ok p => exact hnext p.1 p.2 h
  | error e => exact h

/-- What is read next is read from what was left. -/
theorem Stays.bind {next : α × List Char → Reading (β × List Char)} (h : Stays s outcome)
    (hnext : ∀ a left, Stays left (next (a, left))) : Stays s (outcome >>= next) :=
  h.bind_of_suffix fun a left hleft => (hnext a left).of_suffix hleft

/-! ## Names, casts and paths -/

theorem skipBlanks_suffix : skipBlanks s <:+ s := List.dropWhile_suffix _

theorem stays_readName : Stays s (readName s) := by
  unfold readName
  split
  · split
    · exact .stop List.suffix_rfl rfl
    · exact .stop List.suffix_rfl rfl
    · next hquoted =>
      obtain ⟨q, rfl, -⟩ := Value.quoted?_eq_some hquoted
      exact .ok (List.suffix_append q _)
  · dsimp only
    split
    · exact .stop List.suffix_rfl rfl
    · exact .ok (List.dropWhile_suffix _)

theorem stays_readCast : Stays s (readCast s) := by
  unfold readCast
  split
  · next rest =>
    have hrest : rest <:+ ':' :: ':' :: rest := List.suffix_append [':', ':'] rest
    have hafter : rest.dropWhile isTypeChar <:+ ':' :: ':' :: rest :=
      (List.dropWhile_suffix _).trans hrest
    dsimp only
    split
    · exact .stop hrest rfl
    · split
      · next left hleft =>
        rw [hleft] at hafter
        exact .ok ((List.suffix_append ['[', ']'] left).trans hafter)
      · exact .ok hafter
  · exact .ok List.suffix_rfl

theorem stays_readKey : Stays s (readKey s) := by
  unfold readKey
  split
  · next hindex =>
    obtain ⟨digits, rfl, -⟩ := readIndex?_eq_some hindex
    exact .ok (List.suffix_append digits _)
  · split
    · next hname =>
      exact .ok (stays_readName.suffix hname)
    · exact .stop List.suffix_rfl rfl

theorem stays_readPathWithin (fuel : Nat) : Stays s (readPathWithin fuel s) := by
  induction fuel generalizing s with
  | zero => exact .ok List.suffix_rfl
  | succ fuel ih =>
    unfold readPathWithin
    split
    · next rest =>
      refine (stays_readKey.bind fun key left => ?_).of_suffix
        (List.suffix_append ['-', '>', '>'] rest)
      dsimp only
      split
      · exact .stop List.suffix_rfl rfl
      · exact .ok List.suffix_rfl
    · next rest _ =>
      refine (stays_readKey.bind fun key left => ?_).of_suffix
        (List.suffix_append ['-', '>'] rest)
      exact ih.bind fun path left => .ok List.suffix_rfl
    · exact .ok List.suffix_rfl

theorem stays_readAggregate : Stays s (readAggregate s) := by
  unfold readAggregate
  split
  · next rest =>
    have hname := (stays_readName (s := rest)).of_suffix (List.suffix_cons '.' rest)
    refine hname.bind_of_suffix fun name after hafter => ?_
    dsimp only
    split
    · next left =>
      split
      · exact .ok ((List.suffix_append ['(', ')'] left).trans hafter)
      · exact .stop List.suffix_rfl rfl
    · exact .stop hafter rfl
  · exact .ok List.suffix_rfl

/-! ## Nodes -/

theorem stays_readField {column : String} : Stays s (readField column name s) := by
  unfold readField
  refine (stays_readPathWithin _).bind fun path s₁ => ?_
  refine stays_readCast.bind fun first s₂ => ?_
  refine stays_readAggregate.bind fun aggregate s₃ => ?_
  cases aggregate with
  | none => exact .ok List.suffix_rfl
  | some a => exact stays_readCast.bind fun second s₄ => .ok List.suffix_rfl

theorem stays_readModifiersWithin (fuel : Nat) (join : Join) (type : Option JoinType) :
    Stays s (readModifiersWithin fuel join type s) := by
  induction fuel generalizing s join type with
  | zero => exact .ok List.suffix_rfl
  | succ fuel ih =>
    unfold readModifiersWithin
    split
    · next rest =>
      have hname := (stays_readName (s := rest)).of_suffix (List.suffix_cons '!' rest)
      -- A modifier that is given twice is found at its mark, before its name.
      refine hname.bind_of_suffix fun word after hafter => ?_
      dsimp only
      split_ifs
      · exact .stop List.suffix_rfl rfl
      · exact (ih _ _).of_suffix hafter
      · exact (ih _ _).of_suffix hafter
      · exact .stop List.suffix_rfl rfl
      · exact (ih _ _).of_suffix hafter
    · exact .ok List.suffix_rfl

theorem stays_readJoin {table : String} : Stays s (readJoin table s) := by
  unfold readJoin
  exact (stays_readModifiersWithin _ _ _).bind fun p left => .ok List.suffix_rfl

/-- The lists in embeds are read within their text. -/
def NestedStays (nested : Option ListReader) : Prop := ∀ read ∈ nested, ∀ s, Stays s (read s)

theorem stays_readEmbed {table : String} (hnested : NestedStays nested) :
    Stays s (readEmbed maxDepth nested table name s) := by
  unfold readEmbed
  refine stays_readJoin.bind fun join opened => ?_
  dsimp only
  split
  · next inner =>
    cases nested with
    | none => exact .stop List.suffix_rfl rfl
    | some read =>
      refine ((hnested read rfl inner).bind fun select after => ?_).of_suffix
        (List.suffix_cons '(' inner)
      dsimp only
      split
      · next left hclose =>
        have hafter : ')' :: left <:+ after := hclose ▸ skipBlanks_suffix
        exact .ok ((List.suffix_cons ')' left).trans hafter)
      · exact .stop skipBlanks_suffix rfl
  · exact .stop List.suffix_rfl rfl

theorem stays_readNamed (hnested : NestedStays nested) :
    Stays s (readNamed maxDepth nested name s) := by
  unfold readNamed
  refine stays_readName.bind fun source rest => ?_
  dsimp only
  split
  · next left =>
    refine (stays_readCast.bind fun cast left => ?_).of_suffix (List.suffix_append ['(', ')'] left)
    exact .ok List.suffix_rfl
  · split
    · exact stays_readEmbed hnested
    · exact stays_readEmbed hnested
    · exact stays_readField

theorem stays_readAliased (hnested : NestedStays nested) :
    Stays s (readAliased maxDepth nested s) := by
  unfold readAliased
  refine stays_readName.bind_of_suffix fun given after hafter => ?_
  dsimp only
  split
  · exact stays_readNamed hnested
  · next rest _ =>
    have hrest : skipBlanks rest <:+ ':' :: rest :=
      skipBlanks_suffix.trans (List.suffix_cons ':' rest)
    exact (stays_readNamed hnested).of_suffix (hrest.trans hafter)
  · exact stays_readNamed hnested

theorem stays_readSpread (hnested : NestedStays nested) (hrest : rest <:+ s) :
    Stays s (readSpread maxDepth nested s rest) := by
  have halias : Stays rest (readAliased maxDepth nested rest) := stays_readAliased hnested
  unfold readSpread
  refine (halias.of_suffix hrest).bind_of_suffix fun node left hleft => ?_
  dsimp only
  split
  · exact .ok hleft
  · exact .stop List.suffix_rfl rfl

theorem stays_readNode (hnested : NestedStays nested) :
    Stays s (readNode maxDepth nested s) := by
  have hbare : Stays (skipBlanks s) (readBare maxDepth nested (skipBlanks s)) := by
    unfold readBare
    split
    · next rest hs =>
      rw [hs]
      exact stays_readSpread hnested (List.suffix_append ['.', '.', '.'] rest)
    · next rest hs =>
      rw [hs]
      exact .ok (List.suffix_cons '*' rest)
    · exact stays_readAliased hnested
  rw [readNode_eq_bind]
  refine (hbare.bind fun node left => ?_).of_suffix skipBlanks_suffix
  exact .ok skipBlanks_suffix

/-! ## Lists -/

theorem stays_sepBy {item : List Char → Reading (α × List Char)} {sep : Char}
    (hitem : ∀ s, Stays s (item s)) : Stays s (Text.sepBy item sep s) := by
  fun_induction Text.sepBy item sep s with
  | case1 s e hs =>
    have hstop := hitem s
    rw [hs] at hstop
    exact hstop
  | case2 s a hs => exact .ok List.nil_suffix
  | case3 s a rest hshorter e hmore hs ih =>
    have hrest : sep :: rest <:+ s := (hitem s).suffix hs
    rw [hmore] at ih
    exact ih.of_suffix ((List.suffix_cons sep rest).trans hrest)
  | case4 s a rest hshorter as left hmore hs ih =>
    have hrest : sep :: rest <:+ s := (hitem s).suffix hs
    exact .ok ((ih.suffix hmore).trans ((List.suffix_cons sep rest).trans hrest))
  | case5 s a rest hlonger hs => exact .ok ((hitem s).suffix hs)
  | case6 s a c rest hs hc => exact .ok ((hitem s).suffix hs)

theorem stays_readListWith (hnested : NestedStays nested) :
    Stays s (readListWith maxDepth nested s) := by
  unfold readListWith
  split
  · exact .ok List.nil_suffix
  · next rest hs =>
    exact .ok (hs ▸ skipBlanks_suffix)
  · have hnodes : Stays (skipBlanks s) (Text.sepBy (readNode maxDepth nested) ',' (skipBlanks s)) :=
      stays_sepBy fun s => stays_readNode hnested
    refine (hnodes.bind_of_suffix fun nodes left hleft => ?_).of_suffix skipBlanks_suffix
    exact .ok hleft

theorem nestedStays_nestedReader : NestedStays (nestedReader maxDepth levels) := by
  induction levels with
  | zero =>
    intro read hread
    cases hread
  | succ levels ih =>
    intro read hread s
    cases hread
    rw [readList_eq]
    exact stays_readListWith ih

/-- Every reading of a part at the end of `s` stays in `s`. -/
def StaysIn (s : List Char) (read : List Char → Reading (α × List Char)) : Prop :=
  ∀ t, t <:+ s → Stays s (read t)

theorem staysIn_of_stays {read : List Char → Reading (α × List Char)}
    (h : ∀ t, Stays t (read t)) : StaysIn s read :=
  fun t ht => (h t).of_suffix ht

theorem staysIn_readNode : StaysIn s (readNode maxDepth (nestedReader maxDepth levels)) :=
  staysIn_of_stays fun _ => stays_readNode nestedStays_nestedReader

theorem staysIn_readList : StaysIn s (readList maxDepth levels) := by
  rw [readList_eq]
  exact staysIn_of_stays fun _ => stays_readListWith nestedStays_nestedReader

/-! ## Whole lists -/

/-- What is left where the reading of a whole list ends: at its fault, or behind the list and the
blanks after it. -/
def unread (maxDepth : Nat) (s : List Char) : List Char :=
  match readList maxDepth maxDepth s with
  | .error e => e.rest
  | .ok (_, rest) => Text.trimStart rest

theorem unread_suffix : unread maxDepth s <:+ s := by
  have hstays : Stays s (readList maxDepth maxDepth s) := staysIn_readList s List.suffix_rfl
  unfold unread
  split
  · next e hread =>
    rw [hread] at hstays
    exact hstays.1
  · next select rest hread => exact (List.dropWhile_suffix _).trans (hstays.suffix hread)

/-- The place of a fault is that of what is not read. -/
theorem position_eq {failure : Failure} (h : parse maxDepth s = .error failure) :
    failure.position = s.length - (unread maxDepth s).length := by
  unfold parse at h
  unfold unread
  cases hread : readList maxDepth maxDepth s with
  | error e =>
    rw [hread] at h
    cases h
    rfl
  | ok p =>
    rw [hread] at h
    dsimp only at h ⊢
    cases hrest : Text.trimStart p.2 with
    | nil =>
      rw [hrest] at h
      cases h
    | cons c left =>
      rw [hrest] at h
      cases h
      rfl

/-- The place of what is left of a text, in characters and in bytes. -/
theorem charOffset?_of_suffix (h : rest <:+ s) :
    Text.Utf8.charOffset? s (Text.Utf8.byteLength s - Text.Utf8.byteLength rest) =
      some (s.length - rest.length) := by
  obtain ⟨before, rfl⟩ := h
  have hbytes : Text.Utf8.byteLength before + Text.Utf8.byteLength rest -
      Text.Utf8.byteLength rest = Text.Utf8.byteLength before := by omega
  have hlength : before.length + rest.length - rest.length = before.length := by omega
  rw [Text.Utf8.byteLength_append, hbytes, Text.Utf8.charOffset?_append, List.length_append,
    hlength]

/-- What stands before a character that is left over is read as a list by itself. -/
theorem parse_before {select : Select} {blanks : List Char} {c : Char}
    (h : readList maxDepth maxDepth s = .ok (select, blanks ++ c :: left))
    (hblanks : ∀ d ∈ blanks, Text.isBlank d = true) :
    ∃ before, s = before ++ c :: left ∧ parse maxDepth before = .ok select := by
  have hfront : ReadsFront (fun c => !Value.isDelimiter c) (maxDepth + 1)
      (readList maxDepth maxDepth) := by
    rw [readList_eq]
    exact readsFront_readListWith nestedFront_nestedReader
  obtain ⟨x, hx, -, hcut⟩ := hfront _ _ _ h
  refine ⟨x ++ blanks, by rw [hx, List.append_assoc], ?_⟩
  exact parse_eq_ok.mpr ⟨blanks, hcut blanks (c :: left) rfl, hblanks⟩

/-- A list cannot be read for a fault that a reader finds, or for a character that is left over. -/
theorem parse_error_cases {failure : Failure} (h : parse maxDepth s = .error failure) :
    (∃ e, readList maxDepth maxDepth s = .error e ∧
      failure = ⟨s.length - e.rest.length, e.fault⟩) ∨
    ∃ select blanks c left, readList maxDepth maxDepth s = .ok (select, blanks ++ c :: left) ∧
      (∀ d ∈ blanks, Text.isBlank d = true) ∧
      failure = ⟨s.length - (c :: left).length, .unexpected c⟩ := by
  unfold parse at h
  split at h
  · next e hread =>
    cases h
    exact .inl ⟨e, hread, rfl⟩
  · next select rest hread =>
    split at h
    · cases h
    · next c left hrest =>
      cases h
      have hblanks : ∀ d ∈ rest.takeWhile Text.isBlank, Text.isBlank d = true :=
        List.all_eq_true.mp List.all_takeWhile
      have hparts : rest.takeWhile Text.isBlank ++ c :: left = rest := by
        rw [← hrest]
        exact List.takeWhile_append_dropWhile
      rw [← hparts] at hread
      exact .inr ⟨select, _, c, left, hread, hblanks, rfl⟩

/-- Nothing that is read or left over on the way lies outside the text. So a list is read or fails
at a place in the text, which is that of what is not read, in characters as in bytes. What stands
before a character that is left over is read as a list by itself, with as many levels allowed. -/
theorem parse_position (maxDepth : Nat) (s : List Char) :
    (StaysIn s readName ∧ StaysIn s readCast ∧ StaysIn s readKey ∧ StaysIn s readPath ∧
      StaysIn s readAggregate ∧ ∀ levels,
        StaysIn s (readNode maxDepth (nestedReader maxDepth levels)) ∧
        StaysIn s (readList maxDepth levels)) ∧
    ∀ failure, parse maxDepth s = .error failure →
      (Error.select failure).kind = .parse ∧ (Error.select failure).stage? = some .select ∧
      (Error.select failure).position? = some failure.position ∧ failure.position ≤ s.length ∧
      (unread maxDepth s <:+ s ∧
        Text.Utf8.charOffset? s
          (Text.Utf8.byteLength s - Text.Utf8.byteLength (unread maxDepth s)) =
            some failure.position) ∧
      ∀ c, failure.fault = .unexpected c →
        s[failure.position]? = some c ∧ ∃ t, parse maxDepth (s.take failure.position) = .ok t := by
  refine ⟨⟨staysIn_of_stays fun _ => stays_readName, staysIn_of_stays fun _ => stays_readCast,
    staysIn_of_stays fun _ => stays_readKey, staysIn_of_stays fun _ => stays_readPathWithin _,
    staysIn_of_stays fun _ => stays_readAggregate, fun levels =>
      ⟨staysIn_readNode, staysIn_readList⟩⟩, fun failure h => ⟨rfl, rfl, rfl, ?_⟩⟩
  have hunread : unread maxDepth s <:+ s := unread_suffix
  have hplace := charOffset?_of_suffix hunread
  rw [← position_eq h] at hplace
  refine ⟨position_eq h ▸ Nat.sub_le _ _, ⟨hunread, hplace⟩, fun d hd => ?_⟩
  rcases parse_error_cases h with ⟨e, hread, rfl⟩ | ⟨select, blanks, c, left, hread, hblanks, rfl⟩
  · have hstop : Stays s (readList maxDepth maxDepth s) := staysIn_readList s List.suffix_rfl
    rw [hread] at hstop
    obtain ⟨-, hfault⟩ := hstop
    rw [show e.fault = .unexpected d from hd] at hfault
    cases hfault
  · obtain ⟨before, rfl, hbefore⟩ := parse_before hread hblanks
    have hposition : (before ++ c :: left).length - (c :: left).length = before.length := by
      rw [List.length_append]
      omega
    cases hd
    rw [hposition]
    refine ⟨by simp, select, ?_⟩
    rw [List.take_left' rfl]
    exact hbefore

/-- A bracket is left over at the fifth character, which the seventh byte begins. -/
theorem parse_position_bracket :
    parse 1 "é,ü ])".toList = .error ⟨4, .unexpected ']'⟩ ∧
      "é,ü ])".toList[4]? = some ']' ∧ ∃ t, parse 1 "é,ü ".toList = .ok t := by
  have hfails : (fun _ => ()) <$> parse 1 "é,ü ])".toList = .error ⟨4, .unexpected ']'⟩ := by
    decide +kernel
  have hparse := map_eq_error.mp hfails
  obtain ⟨-, -, -, -, -, hbefore⟩ := (parse_position 1 "é,ü ])".toList).2 _ hparse
  exact ⟨hparse, hbefore ']' rfl⟩

end Select

end RestQuery
