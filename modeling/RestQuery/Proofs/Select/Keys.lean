import RestQuery.Proofs.Select.Names

/-!
# Paths read back

The keys of a path are read back as they were written, and so is the path, unless a key is the name
of a member that begins like an index and is written without quotes. Such a key is cut short where
its digits end, and the path is then never read back.
-/

namespace RestQuery.Select

open Text (Stops Begins)

variable {rest : List Char}

/-! ## Keys -/

/-- What a path may hold: names that are not empty, and indexes of sixty-four bits. -/
def KeyFits : PathKey → Prop
  | .key name => name ≠ ""
  | .index n => Text.Numeral.fitsSigned n = true

/-- Whether a key is cut short when it is read back: the name of a member that is written without
quotes and is no index, but begins with digits that are one. -/
def isCutShort : PathKey → Bool
  | .key name =>
    name.toList.all isNameChar && !readsAsIndex name.toList
      && readsAsIndex (name.toList.takeWhile Char.isDigit)
  | .index _ => false

/-- An index is read exactly where the digits at the front are one. -/
theorem readIndex?_eq_none (s : List Char) :
    readIndex? s = none ↔ readsAsIndex (splitIndex s).1 = false := by
  cases h : Text.Numeral.toInt? (splitIndex s).1 with
  | none => simp [readIndex?, readsAsIndex, h]
  | some n => simp [readIndex?, readsAsIndex, h]

theorem splitIndex_digits {digits : List Char} (hne : digits ≠ [])
    (h : ∀ c ∈ digits, c.isDigit = true) (hr : Stops Char.isDigit rest) :
    splitIndex (digits ++ rest) = (digits, rest) := by
  cases digits with
  | nil => exact absurd rfl hne
  | cons d digits =>
    have hd : d ≠ '-' := by
      rintro rfl
      exact absurd (h '-' (by simp)) (by decide)
    have htake := Text.takeWhile_run h hr
    have hdrop := Text.dropWhile_run h hr
    simp only [List.cons_append] at htake hdrop ⊢
    simp [splitIndex, hd, htake, hdrop]

theorem splitIndex_ofInt (n : Int) (hr : Stops Char.isDigit rest) :
    splitIndex (Text.Numeral.ofInt n ++ rest) = (Text.Numeral.ofInt n, rest) := by
  have hdigits (n : Nat) : ∀ c ∈ Text.Numeral.ofNat n, c.isDigit = true :=
    fun c => Text.Numeral.isDigit_of_mem_ofNat
  cases n with
  | ofNat n => exact splitIndex_digits (Text.Numeral.ofNat_ne_nil n) (hdigits n) hr
  | negSucc n =>
    simp only [Text.Numeral.ofInt, List.cons_append, splitIndex]
    rw [Text.takeWhile_run (hdigits _) hr, Text.dropWhile_run (hdigits _) hr]

/-- In a plain word the digits at the front are split off. -/
theorem splitIndex_plain {name : List Char} (h : IsPlain name) (hr : Stops isNameChar rest) :
    (splitIndex (name ++ rest)).1 = name.takeWhile Char.isDigit := by
  cases name with
  | nil => exact absurd rfl h.1
  | cons c name =>
    have hc : c ≠ '-' := by
      rintro rfl
      exact absurd (h.2 '-' (by simp)) (by decide)
    have htake : (c :: name ++ rest).takeWhile Char.isDigit = (c :: name).takeWhile Char.isDigit :=
      Text.takeWhile_append_stops (stops_isDigit hr)
    simp only [List.cons_append] at htake ⊢
    simp [splitIndex, hc, htake]

theorem readIndex?_ofInt {n : Int} (hn : Text.Numeral.fitsSigned n = true)
    (hr : Stops Char.isDigit rest) :
    readIndex? (Text.Numeral.ofInt n ++ rest) = some (n, rest) := by
  simp [readIndex?, splitIndex_ofInt n hr, Text.Numeral.toInt?_ofInt, hn]

theorem readIndex?_quote (name : List Char) : readIndex? (Value.quote name ++ rest) = none := by
  rw [readIndex?_eq_none]
  rfl

/-- What reads as a number is written between quotes as it is. -/
theorem quote_of_readsAsIndex {name : List Char} (h : readsAsIndex name = true) :
    '"' :: name ++ ['"'] = Value.quote name := by
  have hsome : Text.Numeral.toInt? name ≠ none := by
    intro hn
    simp [readsAsIndex, hn] at h
  refine (Value.quote_of_plain fun c hc => ?_).symm
  rcases Text.Numeral.isDigit_or_sign_of_toInt? hsome hc with hd | rfl | rfl
  · constructor <;> (rintro rfl; exact absurd hd (by decide))
  · decide
  · decide

theorem renderKey_plain {name : String} (h : IsPlain name.toList)
    (hn : readsAsIndex name.toList = false) : renderKey (.key name) = name.toList := by
  simp [renderKey, hn, renderName_of_isPlain h]

/-- Any other name of a member is written between quotes. -/
theorem renderKey_quote {name : String}
    (h : readsAsIndex name.toList = true ∨ ¬ IsPlain name.toList) :
    renderKey (.key name) = Value.quote name.toList := by
  by_cases hn : readsAsIndex name.toList = true
  · rw [renderKey, if_pos hn, quote_of_readsAsIndex hn]
  · rw [renderKey, if_neg hn, renderName_of_not_isPlain (h.resolve_left hn)]

/-- The digits at the front of a name that is written without quotes are read as an index exactly
if the name is cut short. -/
theorem readsAsIndex_splitIndex {name : String} (h : IsPlain name.toList)
    (hn : readsAsIndex name.toList = false) (hr : Stops isNameChar rest) :
    readsAsIndex (splitIndex (name.toList ++ rest)).1 = isCutShort (.key name) := by
  have hall : name.toList.all isNameChar = true := List.all_eq_true.mpr h.2
  simp [splitIndex_plain h hr, isCutShort, hall, hn]

/-- A key is read back, unless it is cut short. -/
theorem readKey_renderKey {k : PathKey} (hk : KeyFits k) (hc : isCutShort k = false)
    (hr : Stops isNameChar rest) : readKey (renderKey k ++ rest) = .ok (k, rest) := by
  cases k with
  | index n => simp [readKey, renderKey, readIndex?_ofInt hk (stops_isDigit hr)]
  | key name =>
    have hne : name.toList ≠ [] := by simpa [KeyFits] using hk
    by_cases h : readsAsIndex name.toList = true ∨ ¬ IsPlain name.toList
    · rw [renderKey_quote h]
      simp [readKey, readIndex?_quote, readName_quote hne]
    · simp only [not_or, Bool.not_eq_true, not_not] at h
      obtain ⟨hn, hp⟩ := h
      have hnone : readIndex? (name.toList ++ rest) = none := by
        rw [readIndex?_eq_none, readsAsIndex_splitIndex hp hn hr, hc]
      rw [renderKey_plain hp hn]
      simp [readKey, hnone, readName_plain hp hr]

/-- A key that is cut short is read as an index. -/
theorem readKey_of_isCutShort {k : PathKey} (hc : isCutShort k = true)
    (hr : Stops isNameChar rest) :
    ∃ n left, readKey (renderKey k ++ rest) = .ok (.index n, left) := by
  cases k with
  | index n => simp [isCutShort] at hc
  | key name =>
    have hc' := hc
    simp only [isCutShort, Bool.and_eq_true, Bool.not_eq_true', List.all_eq_true] at hc'
    obtain ⟨⟨hall, hn⟩, hdigits⟩ := hc'
    have hp : IsPlain name.toList := by
      refine ⟨?_, hall⟩
      rintro he
      simp [he, readsAsIndex, Text.Numeral.toInt?, Text.Numeral.toNat?] at hdigits
    have hsome : readIndex? (name.toList ++ rest) ≠ none := by
      rw [Ne, readIndex?_eq_none, readsAsIndex_splitIndex hp hn hr, hc]
      simp
    obtain ⟨⟨n, left⟩, hread⟩ := Option.ne_none_iff_exists'.mp hsome
    rw [renderKey_plain hp hn]
    exact ⟨n, left, by simp [readKey, hread]⟩

/-- A key that is read back is not cut short. -/
theorem isCutShort_of_readKey {k : PathKey} {left : List Char} (hr : Stops isNameChar rest)
    (h : readKey (renderKey k ++ rest) = .ok (k, left)) : isCutShort k = false := by
  cases hc : isCutShort k with
  | false => rfl
  | true =>
    obtain ⟨n, left', hread⟩ := readKey_of_isCutShort hc hr
    rw [hread] at h
    cases h
    exact hc.symm

/-! ## Paths -/

/-- No key begins so that the arrow before it would read as the double one. -/
theorem renderKey_eq_cons {k : PathKey} (hk : KeyFits k) :
    ∃ c cs, renderKey k = c :: cs ∧ c ≠ '>' := by
  cases k with
  | index n =>
    cases n with
    | ofNat n =>
      obtain ⟨c, cs, hcs⟩ := List.exists_cons_of_ne_nil (Text.Numeral.ofNat_ne_nil n)
      refine ⟨c, cs, hcs, ?_⟩
      rintro rfl
      have hd := Text.Numeral.isDigit_of_mem_ofNat (n := n) (hcs ▸ List.mem_cons_self)
      exact absurd hd (by decide)
    | negSucc n => exact ⟨'-', _, rfl, by decide⟩
  | key name =>
    by_cases h : readsAsIndex name.toList = true ∨ ¬ IsPlain name.toList
    · exact ⟨'"', _, renderKey_quote h, by decide⟩
    · simp only [not_or, Bool.not_eq_true, not_not] at h
      obtain ⟨hn, hp⟩ := h
      obtain ⟨c, cs, hcs⟩ := List.exists_cons_of_ne_nil hp.1
      refine ⟨c, cs, (renderKey_plain hp hn).trans hcs, ?_⟩
      rintro rfl
      exact absurd (hp.2 '>' (hcs ▸ List.mem_cons_self)) (by decide)

/-- One step of a path that another step or the end of the path follows. -/
theorem readPathWithin_arrow {k : PathKey} (hk : KeyFits k) (fuel : Nat) (s : List Char) :
    readPathWithin (fuel + 1) ("->".toList ++ renderKey k ++ s) =
      (readKey (renderKey k ++ s) >>= fun r => readPathWithin fuel r.2 >>= fun p =>
        .ok ((r.1 :: p.1.1, p.1.2), p.2)) := by
  obtain ⟨c, cs, hcs, hc⟩ := renderKey_eq_cons hk
  rw [hcs]
  simp [readPathWithin, hc]

/-- The last step of a path that gives text. -/
theorem readPathWithin_textArrow (k : PathKey) (fuel : Nat) (s : List Char) :
    readPathWithin (fuel + 1) ("->>".toList ++ renderKey k ++ s) =
      (readKey (renderKey k ++ s) >>= fun r =>
        match r.2 with
        | '-' :: '>' :: _ => stop r.2 .textNotLast
        | _ => .ok (([r.1], true), r.2)) :=
  rfl

theorem readPathWithin_end (fuel : Nat) (hr : Begins [':', '.', ',', ')'] rest) :
    readPathWithin fuel rest = .ok (([], false), rest) := by
  have harrow : ∀ s, rest ≠ '-' :: s := by
    rintro s rfl
    exact absurd (hr '-' rfl) (by decide)
  cases fuel with
  | zero => rfl
  | succ fuel => simp [readPathWithin, harrow]

theorem begins_renderPath (asText : Bool) (path : List PathKey) :
    Begins ['-'] (renderPath asText path) := by
  match path with
  | [] => simp [renderPath]
  | [k] => cases asText <;> simp [renderPath]
  | k :: k' :: path => simp [renderPath]

/-- What follows the first key of a path ends the key, for the next arrow stops a name. -/
theorem stops_renderPath (asText : Bool) (path : List PathKey)
    (hr : Begins [':', '.', ',', ')'] rest) :
    Stops isNameChar (renderPath asText path ++ rest) := by
  have hb : Begins ['-', ':', '.', ',', ')'] (renderPath asText path ++ rest) :=
    ((begins_renderPath asText path).mono (by simp)).append (hr.mono (by simp))
  exact hb.stops (by decide)

theorem renderPath_cons_cons (asText : Bool) (k k' : PathKey) (path : List PathKey) :
    renderPath asText (k :: k' :: path) =
      "->".toList ++ renderKey k ++ renderPath asText (k' :: path) := rfl

/-- A path whose keys are all read back is read back. -/
theorem readPathWithin_renderPath {asText : Bool} {path : List PathKey} {fuel : Nat}
    (hk : ∀ k ∈ path, KeyFits k) (hc : ∀ k ∈ path, isCutShort k = false)
    (ht : asText = true → path ≠ []) (hr : Begins [':', '.', ',', ')'] rest)
    (hf : path.length ≤ fuel) :
    readPathWithin fuel (renderPath asText path ++ rest) = .ok ((path, asText), rest) := by
  induction path generalizing fuel with
  | nil =>
    cases asText with
    | false => exact readPathWithin_end fuel hr
    | true => exact absurd rfl (ht rfl)
  | cons k path ih =>
    obtain ⟨fuel, rfl⟩ : ∃ n, fuel = n + 1 := ⟨fuel - 1, by simp at hf; omega⟩
    have hkey (s : List Char) (hs : Stops isNameChar s) :
        readKey (renderKey k ++ s) = .ok (k, s) :=
      readKey_renderKey (hk k (by simp)) (hc k (by simp)) hs
    cases path with
    | nil =>
      have hrest := hkey rest (hr.stops (by decide))
      cases asText with
      | false =>
        show readPathWithin (fuel + 1) ("->".toList ++ renderKey k ++ rest) = _
        rw [readPathWithin_arrow (hk k (by simp)), hrest, ok_bind, readPathWithin_end fuel hr,
          ok_bind]
      | true =>
        show readPathWithin (fuel + 1) ("->>".toList ++ renderKey k ++ rest) = _
        rw [readPathWithin_textArrow, hrest, ok_bind]
        dsimp only
        split
        · exact absurd (hr '-' rfl) (by decide)
        · rfl
    | cons k' path =>
      have hlater := ih (fun j hj => hk j (List.mem_cons_of_mem _ hj))
        (fun j hj => hc j (List.mem_cons_of_mem _ hj)) (by simp) (by simpa using hf)
      rw [renderPath_cons_cons, List.append_assoc, readPathWithin_arrow (hk k (by simp)),
        hkey _ (stops_renderPath asText _ hr), ok_bind, hlater, ok_bind]

/-- A path that is read back has no key that is cut short. -/
theorem isCutShort_of_readPathWithin {asText asText' : Bool} {path : List PathKey} {fuel : Nat}
    {left : List Char} (hk : ∀ k ∈ path, KeyFits k) (hr : Begins [':', '.', ',', ')'] rest)
    (hf : path.length ≤ fuel)
    (h : readPathWithin fuel (renderPath asText path ++ rest) = .ok ((path, asText'), left)) :
    ∀ k ∈ path, isCutShort k = false := by
  induction path generalizing fuel asText' with
  | nil => simp
  | cons k path ih =>
    obtain ⟨fuel, rfl⟩ : ∃ n, fuel = n + 1 := ⟨fuel - 1, by simp at hf; omega⟩
    cases path with
    | nil =>
      have hkey : ∃ left, readKey (renderKey k ++ rest) = .ok (k, left) := by
        cases asText with
        | false =>
          change readPathWithin (fuel + 1) ("->".toList ++ renderKey k ++ rest) = _ at h
          rw [readPathWithin_arrow (hk k (by simp)), bind_eq_ok] at h
          obtain ⟨⟨key, s⟩, hread, h⟩ := h
          obtain ⟨p, -, h⟩ := bind_eq_ok.mp h
          simp only [Except.ok.injEq, Prod.mk.injEq, List.cons.injEq] at h
          exact ⟨s, h.1.1.1 ▸ hread⟩
        | true =>
          change readPathWithin (fuel + 1) ("->>".toList ++ renderKey k ++ rest) = _ at h
          rw [readPathWithin_textArrow, bind_eq_ok] at h
          obtain ⟨⟨key, s⟩, hread, h⟩ := h
          dsimp only at h
          split at h
          · cases h
          · simp only [Except.ok.injEq, Prod.mk.injEq, List.cons.injEq] at h
            exact ⟨s, h.1.1.1 ▸ hread⟩
      obtain ⟨s, hread⟩ := hkey
      simpa using isCutShort_of_readKey (hr.stops (by decide)) hread
    | cons k' path =>
      have hs := stops_renderPath asText (k' :: path) hr
      rw [renderPath_cons_cons, List.append_assoc, readPathWithin_arrow (hk k (by simp)),
        bind_eq_ok] at h
      obtain ⟨⟨key, s⟩, hread, h⟩ := h
      obtain ⟨⟨⟨later, b⟩, left'⟩, hlater, h⟩ := bind_eq_ok.mp h
      simp only [Except.ok.injEq, Prod.mk.injEq, List.cons.injEq] at h
      obtain ⟨⟨⟨rfl, rfl⟩, rfl⟩, rfl⟩ := h
      have hc := isCutShort_of_readKey hs hread
      -- Since the key was read back, the later keys are read from their own text.
      rw [readKey_renderKey (hk key (by simp)) hc hs] at hread
      cases hread
      intro j hj
      rcases List.mem_cons.mp hj with rfl | hj
      · exact hc
      · exact ih (fun j hj => hk j (List.mem_cons_of_mem _ hj)) (by simpa using hf) hlater j hj

end RestQuery.Select
