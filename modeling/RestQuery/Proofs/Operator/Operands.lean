import Mathlib.Tactic.Common
import RestQuery.Operator.Operand
import RestQuery.Proofs.Value.Lists

/-!
# What operands are read into

The value of an operand always has the shape that its operator wants. A text between quotes is read
as that text, alone or in a list, so no value that a client quotes can be taken for anything else.
-/

namespace RestQuery

/-- A text without the star of the query string. -/
def IsPattern (s : String) : Prop := '*' ∉ s.toList

/-- Whether a value has a shape. -/
def ValueShape.Admits : ValueShape → Json → Prop
  | .scalar, v => v.isScalar = true
  | .list, v => ∃ items, v = .arr items ∧ ∀ item ∈ items, item.isScalar = true
  | .patternList, v => ∃ texts, v = .strings texts ∧ ∀ s ∈ texts, IsPattern s
  | .regexList, v => ∃ texts, v = .strings texts
  | .triState, v => v = .null ∨ (∃ b, v = .bool b) ∨ v = .str "unknown"
  | .pattern, v => ∃ s, v = .str s ∧ IsPattern s
  | .regex, v | .range, v | .raw, v => ∃ s, v = .str s
  | .containment, v => (∃ s, v = .str s) ∨ (∃ items, v = .arr items) ∨ ∃ members, v = .obj members
  | .textSearch, v => ∃ query, ∃ config : Option String,
      v = .obj (("query", .str query) :: config.toList.map fun c => ("config", .str c))

namespace Operator

variable {o : Operator} {config : Option (List Char)} {s : List Char} {value : Json}

theorem isScalar_coerceScalar : (Value.coerceScalar s).isScalar = true := by
  unfold Value.coerceScalar
  split_ifs
  · rfl
  · rfl
  · rfl
  · split
    · rfl
    · split <;> rfl

theorem isScalar_readScalar : (readScalar s).isScalar = true := by
  unfold readScalar
  split
  split_ifs
  · rfl
  · exact isScalar_coerceScalar

theorem isScalar_toJson (i : Value.Item) : i.toJson.isScalar = true := by
  unfold Value.Item.toJson
  split_ifs
  · rfl
  · exact isScalar_coerceScalar

theorem isPattern_likePattern : IsPattern (.ofList (Value.likePattern s)) := by
  have hchar (c : Char) : (if c = '*' then '%' else c) ≠ '*' := by
    split_ifs with h
    · decide
    · exact h
  unfold IsPattern Value.likePattern
  rw [String.toList_ofList]
  intro hmem
  obtain ⟨c, -, hc⟩ := List.mem_map.mp hmem
  exact hchar c hc

/-- The items of a list are read one by one. -/
theorem readList_eq_ok {item : Value.Item → Json} (h : readList o item s = .ok value) :
    ∃ items : List Value.Item, value = .arr (items.map item) := by
  unfold readList at h
  split at h
  · cases h
  · cases h
  · cases h
    exact ⟨_, rfl⟩

theorem admits_readContainment : ValueShape.containment.Admits (readContainment s) := by
  unfold readContainment
  dsimp only
  split
  · exact .inr (.inl ⟨_, rfl⟩)
  · exact .inr (.inr ⟨_, rfl⟩)
  · split
    · exact .inr (.inl ⟨_, rfl⟩)
    · exact .inl ⟨_, rfl⟩

theorem admits_readTriState (h : readTriState s = .ok value) :
    ValueShape.triState.Admits value := by
  unfold readTriState at h
  dsimp only at h
  split_ifs at h
  · cases h
    exact .inl rfl
  · cases h
    exact .inr (.inl ⟨_, rfl⟩)
  · cases h
    exact .inr (.inl ⟨_, rfl⟩)
  · cases h
    exact .inr (.inr rfl)

theorem admits_readSearch : ValueShape.textSearch.Admits (readSearch config s) := by
  refine ⟨.ofList (Value.unquote s).1, config.map .ofList, ?_⟩
  cases config <;> rfl

/-- The value of an operand has the shape that its operator wants. -/
theorem admits_readOperand (h : o.readOperand config s = .ok value) : o.shape.Admits value := by
  unfold readOperand at h
  cases hshape : o.shape with
  | scalar =>
    rw [hshape] at h
    cases h
    exact isScalar_readScalar
  | list =>
    rw [hshape] at h
    obtain ⟨items, rfl⟩ := readList_eq_ok h
    refine ⟨_, rfl, fun v hv => ?_⟩
    obtain ⟨item, -, rfl⟩ := List.mem_map.mp hv
    exact isScalar_toJson item
  | patternList =>
    rw [hshape] at h
    obtain ⟨items, rfl⟩ := readList_eq_ok h
    refine ⟨items.map fun i => .ofList (Value.likePattern i.text), ?_, fun t ht => ?_⟩
    · simp [Json.strings]
    · obtain ⟨item, -, rfl⟩ := List.mem_map.mp ht
      exact isPattern_likePattern
  | regexList =>
    rw [hshape] at h
    obtain ⟨items, rfl⟩ := readList_eq_ok h
    refine ⟨items.map fun i => .ofList i.text, ?_⟩
    simp [Json.strings, Value.Item.toText]
  | triState =>
    rw [hshape] at h
    exact admits_readTriState h
  | pattern =>
    rw [hshape] at h
    cases h
    exact ⟨_, rfl, isPattern_likePattern⟩
  | containment =>
    rw [hshape] at h
    cases h
    exact admits_readContainment
  | textSearch =>
    rw [hshape] at h
    cases h
    exact admits_readSearch
  | regex | range | raw =>
    rw [hshape] at h
    cases h
    exact ⟨_, rfl⟩

/-! ## Quoted operands -/

theorem readScalar_quote (x : List Char) : readScalar (Value.quote x) = .str (.ofList x) := by
  unfold readScalar
  rw [Value.unquote_quote]
  rfl

theorem readText_quote (x : List Char) : readText (Value.quote x) = .str (.ofList x) := by
  unfold readText
  rw [Value.unquote_quote]

theorem readList_spellList {item : Value.Item → Json} {bracket : Value.Bracket}
    {items : List Value.Item} (h : ∀ i ∈ items, i.Spellable) (hone : items ≠ [⟨[], false⟩])
    (hbracket : bracket ≠ .square) :
    readList o item (Value.spellList bracket items) = .ok (.arr (items.map item)) := by
  unfold readList
  rw [Value.list?_spellList h hone hbracket]

/-- A list of items that are quoted, or stand bare, is read back as these items. So membership and
the comparisons with lists take each quoted item as the text that it is and coerce each bare one,
and an operator that takes a scalar or a regular expression takes a quoted operand as the text that
it is. -/
theorem readOperand_spellList {bracket : Value.Bracket} {items : List Value.Item}
    (h : ∀ i ∈ items, i.Spellable) (hone : items ≠ [⟨[], false⟩]) (hbracket : bracket ≠ .square) :
    Value.list? (Value.spellList bracket items) = some (.ok items) ∧
    (∀ o : Operator, (o = .member ∨ ∃ c q, o = .compare c (some q)) → ∀ config,
      o.readOperand config (Value.spellList bracket items) = .ok (.arr (items.map fun i =>
        if i.quoted then .str (.ofList i.text) else Value.coerceScalar i.text))) ∧
    ∀ o : Operator, (o.shape = .scalar ∨ o = .matching .regex none ∨ o = .matching .iregex none) →
      ∀ config x, o.readOperand config (Value.quote x) = .ok (.str (.ofList x)) := by
  refine ⟨Value.list?_spellList h hone hbracket, fun o ho config => ?_, fun o ho config x => ?_⟩
  · have hshape : o.shape = .list := by
      rcases ho with rfl | ⟨c, q, rfl⟩ <;> rfl
    unfold readOperand
    rw [hshape]
    exact readList_spellList h hone hbracket
  · unfold readOperand
    rcases ho with hshape | rfl | rfl
    · rw [hshape]
      exact congrArg Except.ok (readScalar_quote x)
    · exact congrArg Except.ok (readText_quote x)
    · exact congrArg Except.ok (readText_quote x)

/-- The comma between quotes does not end its item, and the numeral between quotes is a text. -/
theorem readOperand_spellList_numeral :
    Operator.member.readOperand none "(\"a,\\\")\",10,\"10\")".toList =
      .ok (.arr [.str "a,\")", .int 10, .str "10"]) := by
  have hbare : Value.StandsBare "10".toList := by
    refine ⟨?_, ?_, ?_⟩
    · rintro c ⟨⟩
      decide
    · rintro c ⟨⟩
      decide
    · simp [Value.isDelimiter]
  have hspellable : ∀ i ∈ [Value.Item.mk "a,\")".toList true, ⟨"10".toList, false⟩,
      ⟨"10".toList, true⟩], i.Spellable := by
    intro i hi hquoted
    rcases List.mem_cons.mp hi with rfl | hi
    · cases hquoted
    · rcases List.mem_cons.mp hi with rfl | hi
      · exact hbare
      · obtain rfl := List.mem_singleton.mp hi
        cases hquoted
  have hround : Value.Bracket.round ≠ .square := by decide
  obtain ⟨-, hlists, -⟩ := readOperand_spellList hspellable (by simp) hround
  exact hlists .member (.inl rfl) none

end Operator

end RestQuery
