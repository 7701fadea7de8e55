import RestQuery.Operator.Expression
import RestQuery.Proofs.Text.Scanning
import RestQuery.Proofs.Text.Splitting

/-!
# Operator expressions and their spelling

What reads as an operator expression is exactly what some expression is spelled like, and it reads
as that expression. What has to be kept apart is the modifier: a quantifier and a configuration
stand in the same brackets, and the operator decides which of the two is meant.
-/

namespace RestQuery

namespace Operator

variable {o base : Operator} {token : List Char} {q : Quantifier}

/-! ## The catalogue -/

/-- The catalogue is complete, so a fact about all operators can be checked on it. -/
theorem mem_all (o : Operator) : o ∈ all := by
  cases o with
  | compare c q => cases c <;> rcases q with _ | _ | _ <;> decide
  | matching m q => cases m <;> rcases q with _ | _ | _ <;> decide
  | containment c => cases c <;> decide
  | range r => cases r <;> decide
  | search t => cases t <;> decide
  | _ => decide

/-- A token is a word of letters, and not the one that a negation begins with. -/
theorem token_word (h : o.token?.map String.toList = some token) :
    token ≠ [] ∧ (∀ c ∈ token, c.isAlpha = true) ∧ token ≠ "not".toList := by
  obtain ⟨t, ht, rfl⟩ := Option.map_eq_some_iff.mp h
  have hall : ∀ o ∈ all, ∀ t ∈ o.token?,
      t.toList ≠ [] ∧ t.toList.all Char.isAlpha = true ∧ t.toList ≠ "not".toList := by
    decide
  obtain ⟨hne, hletters, hnot⟩ := hall o (mem_all o) t ht
  exact ⟨hne, List.all_eq_true.mp hletters, hnot⟩

/-- A token stands for the operator that is spelled so without a quantifier. -/
theorem ofToken?_eq_some_iff :
    ofToken? token = some base ↔
      base.token?.map String.toList = some token ∧ base.quantifier? = none := by
  constructor
  · intro h
    have htoken := List.find?_some h
    have hnone : ∀ o ∈ basic, o.quantifier? = none := by decide
    exact ⟨by simpa using htoken, hnone base (List.mem_of_find?_eq_some h)⟩
  · rintro ⟨htoken, hnone⟩
    have hself : ∀ o ∈ all, o.token? ≠ none → o.quantifier? = none →
        (o.token?.map String.toList).bind ofToken? = some o := by
      decide
    have hsome : base.token? ≠ none := by
      intro h
      simp [h] at htoken
    simpa [htoken] using hself base (mem_all base) hsome hnone

/-- An operator with a quantifier has the token of the one without. -/
theorem quantifier?_of_quantify? (h : base.quantify? q = some o) :
    o.token? = base.token? ∧ o.quantifier? = some q := by
  unfold quantify? at h
  split at h
  · next c _ =>
    cases h
    cases c <;> exact ⟨rfl, rfl⟩
  · next m _ =>
    cases h
    cases m <;> exact ⟨rfl, rfl⟩
  · cases h

theorem exists_quantify? (h : o.quantifier? = some q) :
    ∃ base : Operator, base.token? = o.token? ∧ base.quantifier? = none ∧
      base.takesConfig = false ∧ base.quantify? q = some o := by
  cases o with
  | compare c _ =>
    cases h
    exact ⟨.compare c none, by cases c <;> rfl, rfl, rfl, rfl⟩
  | matching m _ =>
    cases h
    exact ⟨.matching m none, by cases m <;> rfl, rfl, by cases m <;> rfl, rfl⟩
  | _ => cases h

/-- No operator takes both a quantifier and a configuration. -/
theorem quantifier?_of_takesConfig (h : o.takesConfig = true) : o.quantifier? = none := by
  have hall : ∀ o ∈ all, o.takesConfig = true → o.quantifier? = none := by decide
  exact hall o (mem_all o) h

end Operator

theorem Quantifier.ofToken?_eq_some_iff {q : Quantifier} {s : List Char} :
    ofToken? s = some q ↔ s = q.token.toList := by
  constructor
  · intro h
    unfold ofToken? at h
    split at h
    · next hs =>
      cases h
      exact hs
    · split at h
      · next hs =>
        cases h
        exact hs
      · cases h
  · rintro rfl
    cases q <;> rfl

namespace Expression

variable {s t token operand : List Char} {modifier : Option (List Char)} {e : Expression}
  {o base : Operator} {config : Option (List Char)}

/-! ## The parts of a spelling -/

/-- The spelling of a negation. -/
def spellNegation (negated : Bool) : List Char := if negated then "not.".toList else []

/-- The spelling of a modifier. -/
def spellModifier : Option (List Char) → List Char
  | some m => '(' :: m ++ [')']
  | none => []

/-- What stands in the brackets after the token of an operator: its quantifier, or else the
configuration. -/
def modifierOf (o : Operator) (config : Option (List Char)) : Option (List Char) :=
  match o.quantifier? with
  | some q => some q.token.toList
  | none => config

theorem spell?_eq : e.spell? = e.operator.token?.map fun token =>
    spellNegation e.negated ++ token.toList ++ spellModifier (modifierOf e.operator e.config) ++
      '.' :: e.operand := by
  unfold spell? modifierOf
  cases e.operator.quantifier? with
  | some q => rfl
  | none => cases e.config <;> rfl

theorem spell?_eq_some_iff :
    e.spell? = some s ↔ ∃ token, e.operator.token?.map String.toList = some token ∧
      s = spellNegation e.negated ++ token ++ spellModifier (modifierOf e.operator e.config) ++
        '.' :: e.operand := by
  rw [spell?_eq]
  constructor
  · intro h
    obtain ⟨token, htoken, rfl⟩ := Option.map_eq_some_iff.mp h
    exact ⟨token.toList, by rw [htoken]; rfl, rfl⟩
  · rintro ⟨token, htoken, rfl⟩
    obtain ⟨t, ht, rfl⟩ := Option.map_eq_some_iff.mp htoken
    rw [ht]
    rfl

/-- What follows a token is no letter. -/
theorem stops_spellModifier :
    Text.Stops Char.isAlpha (spellModifier modifier ++ '.' :: operand) := by
  cases modifier <;> exact Text.stops_cons.mpr (by decide)

/-! ## Reading the parts -/

theorem eq_of_splitNegation (s : List Char) :
    s = spellNegation (splitNegation s).1 ++ (splitNegation s).2 := by
  unfold splitNegation
  split
  · next rest h => exact Text.dropStart?_eq_some_iff.mp h
  · rfl

/-- A negation is read from a text whose first word does not begin one. -/
theorem splitNegation_spellNegation {negated : Bool} (htoken : ∀ c ∈ token, c.isAlpha = true)
    (hnot : token ≠ "not".toList) (ht : Text.Stops Char.isAlpha t) :
    splitNegation (spellNegation negated ++ (token ++ t)) = (negated, token ++ t) := by
  unfold splitNegation
  cases negated with
  | true =>
    have h : Text.dropStart? "not.".toList (spellNegation true ++ (token ++ t)) =
        some (token ++ t) := Text.dropStart?_eq_some_iff.mpr rfl
    rw [h]
  | false =>
    have h : Text.dropStart? "not.".toList (token ++ t) = none := by
      rw [Option.eq_none_iff_forall_ne_some]
      intro rest hrest
      have heq : token ++ t = "not".toList ++ ('.' :: rest) := by
        rw [Text.dropStart?_eq_some_iff.mp hrest]
        rfl
      have hpoint : Text.Stops Char.isAlpha ('.' :: rest) := Text.stops_cons.mpr (by decide)
      have hletters : ∀ c ∈ "not".toList, c.isAlpha = true := List.all_eq_true.mp (by decide)
      -- The first word of a text is found in one way only.
      have hword := congrArg (List.takeWhile Char.isAlpha) heq
      rw [Text.takeWhile_run htoken ht, Text.takeWhile_run hletters hpoint] at hword
      exact hnot hword
    show (match Text.dropStart? "not.".toList (token ++ t) with
      | some rest => (true, rest)
      | none => (false, token ++ t)) = (false, token ++ t)
    rw [h]

theorem splitModifier_spellModifier (h : ∀ m ∈ modifier, ')' ∉ m) :
    splitModifier (spellModifier modifier ++ '.' :: operand) = (modifier, '.' :: operand) := by
  cases modifier with
  | none => rfl
  | some m =>
    have hcut : Text.splitOnce ')' (m ++ ')' :: '.' :: operand) = some (m, '.' :: operand) :=
      Text.splitOnce_append (h m rfl)
    simp [spellModifier, splitModifier, hcut]

/-- A modifier that is read with a point after it is spelled so. -/
theorem eq_of_splitModifier (h : splitModifier t = (modifier, '.' :: operand)) :
    t = spellModifier modifier ++ '.' :: operand ∧ ∀ m ∈ modifier, ')' ∉ m := by
  unfold splitModifier at h
  split at h
  · next t =>
    split at h
    · next m rest hcut =>
      obtain ⟨rfl, hnone⟩ := Text.splitOnce_eq_some_iff.mp hcut
      cases h
      simpa [spellModifier] using hnone
    · cases h
  · cases h
    exact ⟨rfl, by simp⟩

/-- The operator and the configuration that a token and a modifier give are those that are spelled
so. -/
theorem applyModifier_iff :
    (∃ base, Operator.ofToken? token = some base ∧
        applyModifier token base modifier = .ok (o, config)) ↔
      o.token?.map String.toList = some token ∧ modifier = modifierOf o config ∧
        (config.isSome = true → o.takesConfig = true) := by
  simp only [Operator.ofToken?_eq_some_iff]
  constructor
  · rintro ⟨base, ⟨htoken, hnone⟩, h⟩
    unfold applyModifier at h
    split at h
    · cases h
      exact ⟨htoken, by simp [modifierOf, hnone], by simp⟩
    · next m =>
      split at h
      · next htakes =>
        cases h
        exact ⟨htoken, by simp [modifierOf, hnone], fun _ => htakes⟩
      · split at h
        · cases h
        · next q hq =>
          split at h
          · cases h
          · next hquantify =>
            cases h
            obtain ⟨hsame, hsome⟩ := Operator.quantifier?_of_quantify? hquantify
            have hm : m = q.token.toList := Quantifier.ofToken?_eq_some_iff.mp hq
            exact ⟨hsame ▸ htoken, by simp [modifierOf, hsome, hm], by simp⟩
  · rintro ⟨htoken, rfl, hconfig⟩
    cases hquantifier : o.quantifier? with
    | none =>
      refine ⟨o, ⟨htoken, hquantifier⟩, ?_⟩
      unfold modifierOf applyModifier
      rw [hquantifier]
      cases config with
      | none => rfl
      | some c => simp [hconfig rfl]
    | some q =>
      obtain ⟨base, hsame, hnone, htakes, hquantify⟩ := Operator.exists_quantify? hquantifier
      -- An operator with a quantifier takes no configuration.
      have hempty : config = none := by
        cases config with
        | none => rfl
        | some c =>
          have := Operator.quantifier?_of_takesConfig (hconfig rfl)
          simp [hquantifier] at this
      have hq : Quantifier.ofToken? q.token.toList = some q :=
        Quantifier.ofToken?_eq_some_iff.mpr rfl
      refine ⟨base, ⟨hsame ▸ htoken, hnone⟩, ?_⟩
      unfold modifierOf applyModifier
      simp only [hquantifier, htakes, hq, hquantify, hempty]
      rfl

/-! ## Reading the whole -/

/-- All that a text is made of that reads as an expression. -/
theorem parse_cases (h : parse s = .ok e) :
    ∃ token modifier, s = spellNegation e.negated ++ token ++ spellModifier modifier ++
        '.' :: e.operand ∧ (∀ m ∈ modifier, ')' ∉ m) ∧
      ∃ base, Operator.ofToken? token = some base ∧
        applyModifier token base modifier = .ok (e.operator, e.config) := by
  unfold parse at h
  have hnegation := eq_of_splitNegation s
  generalize splitNegation s = split at h hnegation
  obtain ⟨negated, rest⟩ := split
  dsimp only at h hnegation
  have hword : rest = rest.takeWhile Char.isAlpha ++ rest.dropWhile Char.isAlpha :=
    List.takeWhile_append_dropWhile.symm
  split at h
  · cases h
  · split at h
    · cases h
    · next operand hafter =>
      split at h
      · cases h
      · next base hbase =>
        split at h
        · cases h
        · next operator config happly =>
          cases h
          obtain ⟨hmodifier, hclosed⟩ :=
            eq_of_splitModifier (Prod.ext rfl hafter : splitModifier _ = (_, '.' :: operand))
          refine ⟨_, _, ?_, hclosed, base, hbase, happly⟩
          rw [hnegation]
          conv_lhs => rw [hword, hmodifier]
          simp
    · cases h

/-- A text that is made of such parts reads as the expression. -/
theorem parse_of_parts (htoken : token ≠ [] ∧ (∀ c ∈ token, c.isAlpha = true) ∧
      token ≠ "not".toList) (hclosed : ∀ m ∈ modifier, ')' ∉ m)
    (hbase : Operator.ofToken? token = some base)
    (happly : applyModifier token base modifier = .ok (e.operator, e.config)) :
    parse (spellNegation e.negated ++ token ++ spellModifier modifier ++ '.' :: e.operand) =
      .ok e := by
  obtain ⟨hne, halpha, hnot⟩ := htoken
  have hstops : Text.Stops Char.isAlpha (spellModifier modifier ++ '.' :: e.operand) :=
    stops_spellModifier
  have hempty : token.isEmpty = false := by simpa using hne
  unfold parse
  rw [List.append_assoc, List.append_assoc,
    splitNegation_spellNegation halpha hnot hstops]
  simp only [Text.takeWhile_run halpha hstops, Text.dropWhile_run halpha hstops,
    splitModifier_spellModifier hclosed, hempty, hbase, happly]
  rfl

/-- What can be spelled: an operator with a token, and a configuration only where the operator takes
one and the brackets can hold it. -/
structure Spellable (e : Expression) : Prop where
  /-- The operator is not the mark of a value that was kept as it was written. -/
  operator : e.operator ≠ .raw
  /-- The operator takes the configuration. -/
  takesConfig : e.config.isSome = true → e.operator.takesConfig = true
  /-- The configuration does not close its brackets. -/
  closed : ∀ c ∈ e.config, ')' ∉ c

theorem token?_ne_none_iff : o.token? ≠ none ↔ o ≠ .raw := by
  have hall : ∀ o ∈ Operator.all, o.token? ≠ none ↔ o ≠ .raw := by decide
  exact hall o (Operator.mem_all o)

theorem isSome_spell? (h : e.Spellable) : e.spell?.isSome = true := by
  have htoken := token?_ne_none_iff.mpr h.operator
  unfold spell?
  rw [Option.isSome_map]
  exact Option.isSome_iff_ne_none.mpr htoken

/-- The brackets can hold every quantifier, so only the configuration may not close them. -/
theorem closed_modifierOf : (∀ m ∈ modifierOf o config, ')' ∉ m) ↔
    (o.quantifier? = none → ∀ c ∈ config, ')' ∉ c) := by
  unfold modifierOf
  cases o.quantifier? with
  | none => simp
  | some q => cases q <;> simp [Quantifier.token]

theorem parse_of_spell? (he : e.Spellable) (h : e.spell? = some s) : parse s = .ok e := by
  obtain ⟨token, htoken, rfl⟩ := spell?_eq_some_iff.mp h
  obtain ⟨base, hbase, happly⟩ := applyModifier_iff.mpr ⟨htoken, rfl, he.takesConfig⟩
  exact parse_of_parts (Operator.token_word htoken) (closed_modifierOf.mpr fun _ => he.closed)
    hbase happly

theorem spell?_of_parse (h : parse s = .ok e) : e.Spellable ∧ e.spell? = some s := by
  obtain ⟨token, modifier, hs, hclosed, hbase⟩ := parse_cases h
  obtain ⟨htoken, rfl, hconfig⟩ := applyModifier_iff.mp hbase
  refine ⟨⟨?_, hconfig, ?_⟩, spell?_eq_some_iff.mpr ⟨token, htoken, hs⟩⟩
  · rw [← token?_ne_none_iff]
    intro hnone
    simp [hnone] at htoken
  · intro c hc
    have htakes : e.operator.takesConfig = true := hconfig (by rw [Option.mem_def.mp hc]; rfl)
    exact closed_modifierOf.mp hclosed (Operator.quantifier?_of_takesConfig htakes) c hc

theorem accepts_iff : accepts s = true ↔ ∃ e, parse s = .ok e := by
  unfold accepts
  cases parse s <;> simp [Except.isOk, Except.toBool]

/-- Reading and spelling are inverse to each other: every expression that can be spelled has a
spelling, a text reads as an expression exactly if it is its spelling, what is accepted are the
spellings, and texts that read alike are the same. -/
theorem parse_eq_ok_iff_spelled (s : List Char) (e : Expression) :
    (e.Spellable → ∃ t, e.spell? = some t ∧ parse t = .ok e) ∧
      (parse s = .ok e ↔ e.Spellable ∧ e.spell? = some s) ∧
      (accepts s = true ↔ ∃ e' : Expression, e'.Spellable ∧ e'.spell? = some s) ∧
      ∀ t, parse s = .ok e → parse t = .ok e → s = t := by
  have hiff (e : Expression) : parse s = .ok e ↔ e.Spellable ∧ e.spell? = some s :=
    ⟨spell?_of_parse, fun h => parse_of_spell? h.1 h.2⟩
  refine ⟨fun he => ?_, hiff e, ?_, fun t hs ht => ?_⟩
  · obtain ⟨t, ht⟩ := Option.isSome_iff_exists.mp (isSome_spell? he)
    exact ⟨t, ht, parse_of_spell? he ht⟩
  · rw [accepts_iff]
    exact exists_congr hiff
  · have hboth := (spell?_of_parse hs).2.symm.trans (spell?_of_parse ht).2
    exact Option.some.inj hboth

end Expression

end RestQuery
