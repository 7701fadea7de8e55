import Mathlib.Tactic.Common
import RestQuery.Text.Scan

/-!
# Cutting a text

Each way of `RestQuery.Text.Scan` to cut a text loses nothing of it, and is determined by where the
separators stand. So a text is cut in two at its first or last separator exactly if one of the two
parts has none, and a text is found again from the pieces between its separators.
-/

namespace RestQuery.Text

variable {sep : Char} {s a b rest : List Char}

/-! ## A known start -/

theorem dropStart?_eq_some_iff {start : List Char} :
    dropStart? start s = some rest ↔ s = start ++ rest := by
  induction start generalizing s with
  | nil => simp [dropStart?]
  | cons c start ih =>
    cases s with
    | nil => simp [dropStart?]
    | cons d s =>
      by_cases hc : c = d
      · subst hc
        simp [dropStart?, ih]
      · have hdc : d ≠ c := Ne.symm hc
        simp [dropStart?, hc, hdc]

/-! ## The first separator -/

theorem splitOnce_append (ha : sep ∉ a) : splitOnce sep (a ++ sep :: b) = some (a, b) := by
  induction a with
  | nil => simp [splitOnce]
  | cons c a ih =>
    have hc : c ≠ sep := fun h => ha (by simp [h])
    have ha' : sep ∉ a := fun h => ha (List.mem_cons_of_mem _ h)
    simp [splitOnce, hc, ih ha']

/-- A text is cut at the separator that has none before it. -/
theorem splitOnce_eq_some_iff : splitOnce sep s = some (a, b) ↔ s = a ++ sep :: b ∧ sep ∉ a := by
  constructor
  · intro h
    induction s generalizing a with
    | nil => cases h
    | cons c s ih =>
      unfold splitOnce at h
      split at h
      · next hc =>
        cases h
        simp [hc]
      · next hc =>
        obtain ⟨⟨a', b'⟩, hs, he⟩ := Option.map_eq_some_iff.mp h
        cases he
        obtain ⟨hcut, hnone⟩ := ih hs
        have hsep : sep ≠ c := Ne.symm hc
        exact ⟨by rw [hcut]; rfl, by simp [hsep, hnone]⟩
  · rintro ⟨rfl, ha⟩
    exact splitOnce_append ha

theorem splitOnce_eq_none_iff : splitOnce sep s = none ↔ sep ∉ s := by
  induction s with
  | nil => simp [splitOnce]
  | cons c s ih =>
    by_cases hc : c = sep
    · simp [splitOnce, hc]
    · have hsep : sep ≠ c := Ne.symm hc
      simp [splitOnce, hc, hsep, ih]

/-! ## The last separator -/

theorem splitLast_eq_none_iff : splitLast sep s = none ↔ sep ∉ s := by
  induction s with
  | nil => simp [splitLast]
  | cons c s ih =>
    unfold splitLast
    cases hs : splitLast sep s with
    | some p =>
      have hmem : sep ∈ s := by
        by_contra hnone
        rw [ih.mpr hnone] at hs
        cases hs
      simp [hmem]
    | none =>
      have hnone : sep ∉ s := ih.mp hs
      by_cases hc : c = sep
      · simp [hc]
      · have hsep : sep ≠ c := Ne.symm hc
        simp [hc, hsep, hnone]

theorem splitLast_append (hb : sep ∉ b) : splitLast sep (a ++ sep :: b) = some (a, b) := by
  induction a with
  | nil => simp [splitLast, splitLast_eq_none_iff.mpr hb]
  | cons c a ih => simp [splitLast, ih]

/-- A text is cut at the separator that has none after it. -/
theorem splitLast_eq_some_iff : splitLast sep s = some (a, b) ↔ s = a ++ sep :: b ∧ sep ∉ b := by
  constructor
  · intro h
    induction s generalizing a with
    | nil => cases h
    | cons c s ih =>
      unfold splitLast at h
      split at h
      · next p hs =>
        cases h
        obtain ⟨hcut, hnone⟩ := ih hs
        exact ⟨by rw [hcut]; rfl, hnone⟩
      · next hs =>
        split at h
        · next hc =>
          cases h
          exact ⟨by rw [hc]; rfl, splitLast_eq_none_iff.mp hs⟩
        · cases h
  · rintro ⟨rfl, hb⟩
    exact splitLast_append hb

/-! ## All separators -/

/-- The cuts are all ways to take a text apart at a separator. -/
theorem mem_cuts : (a, b) ∈ cuts sep s ↔ s = a ++ sep :: b := by
  induction s generalizing a with
  | nil => simp [cuts]
  | cons c s ih =>
    -- A cut of the whole is one at the first character, or one of the rest.
    have hlater : (a, b) ∈ (cuts sep s).map (fun p => (c :: p.1, p.2)) ↔
        ∃ a', a = c :: a' ∧ s = a' ++ sep :: b := by
      constructor
      · intro h
        obtain ⟨⟨a', b'⟩, hmem, he⟩ := List.mem_map.mp h
        cases he
        exact ⟨a', rfl, ih.mp hmem⟩
      · rintro ⟨a', rfl, hs⟩
        exact List.mem_map.mpr ⟨(a', b), ih.mpr hs, rfl⟩
    unfold cuts
    cases a with
    | nil =>
      by_cases hc : c = sep
      · simp [hc, eq_comm]
      · simp [hc]
    | cons d a =>
      by_cases hc : c = sep
      · simp only [hc, if_true, List.mem_cons]
        rw [hc] at hlater
        rw [hlater]
        constructor
        · rintro (he | ⟨a', he, rfl⟩)
          · cases he
          · cases he
            rfl
        · intro he
          cases he
          exact .inr ⟨a, rfl, rfl⟩
      · simp only [hc, if_false]
        rw [hlater]
        constructor
        · rintro ⟨a', he, rfl⟩
          cases he
          rfl
        · intro he
          cases he
          exact ⟨a, rfl, rfl⟩

/-- The first cut is the one with no separator before it. -/
theorem cuts_append (ha : sep ∉ a) : ∃ later, cuts sep (a ++ sep :: b) = (a, b) :: later := by
  induction a with
  | nil => simp [cuts]
  | cons c a ih =>
    obtain ⟨hc, ha'⟩ := not_or.mp (List.mem_cons.not.mp ha)
    obtain ⟨later, hcuts⟩ := ih ha'
    refine ⟨later.map fun p => (c :: p.1, p.2), ?_⟩
    rw [List.cons_append, cuts, if_neg (Ne.symm hc), hcuts]
    rfl

/-- The cuts come in the order of what is before them. -/
theorem pairwise_cuts : (cuts sep s).Pairwise fun p q => p.1.length < q.1.length := by
  induction s with
  | nil => exact List.Pairwise.nil
  | cons c s ih =>
    have hlater : ((cuts sep s).map fun p => (c :: p.1, p.2)).Pairwise
        fun p q => p.1.length < q.1.length := by
      rw [List.pairwise_map]
      exact ih.imp fun h => by simpa using h
    unfold cuts
    dsimp only
    split
    · refine List.pairwise_cons.mpr ⟨fun q hq => ?_, hlater⟩
      obtain ⟨p, -, rfl⟩ := List.mem_map.mp hq
      simp
    · exact hlater

theorem splitAll_ne_nil : splitAll sep s ≠ [] := by
  cases s with
  | nil => simp [splitAll]
  | cons c s =>
    unfold splitAll
    split
    · simp
    · split <;> simp

/-- A text without separators is one piece. -/
theorem splitAll_of_not_mem (h : sep ∉ s) : splitAll sep s = [s] := by
  induction s with
  | nil => rfl
  | cons c s ih =>
    obtain ⟨hc, hs⟩ := not_or.mp (List.mem_cons.not.mp h)
    rw [splitAll, if_neg (Ne.symm hc), ih hs]

/-- A separator ends the pieces before it. -/
theorem splitAll_append (s t : List Char) :
    splitAll sep (s ++ sep :: t) = splitAll sep s ++ splitAll sep t := by
  induction s with
  | nil => simp [splitAll]
  | cons c s ih =>
    obtain ⟨piece, pieces, hs⟩ := List.exists_cons_of_ne_nil (@splitAll_ne_nil sep s)
    rw [hs] at ih
    rw [List.cons_append, splitAll, splitAll, ih, hs]
    by_cases hc : c = sep
    · rw [if_pos hc, if_pos hc]
      rfl
    · rw [if_neg hc, if_neg hc]
      rfl

/-- A text is its pieces with separators between them. -/
theorem intercalate_splitAll : [sep].intercalate (splitAll sep s) = s := by
  induction s with
  | nil => simp [splitAll, List.intercalate]
  | cons c s ih =>
    unfold splitAll
    split
    · next hc =>
      obtain ⟨piece, pieces, hs⟩ := List.exists_cons_of_ne_nil (@splitAll_ne_nil sep s)
      rw [hs] at ih ⊢
      simp only [List.intercalate, List.intersperse, List.flatten_cons] at ih ⊢
      simp [ih, hc]
    · split
      · next hs => exact absurd hs splitAll_ne_nil
      · next piece pieces hs =>
        rw [hs] at ih
        cases pieces <;> simpa [List.intercalate] using ih

/-- A text put together from pieces without separators is taken apart into them. -/
theorem splitAll_intercalate {pieces : List (List Char)} (hne : pieces ≠ [])
    (h : ∀ piece ∈ pieces, sep ∉ piece) : splitAll sep ([sep].intercalate pieces) = pieces := by
  induction pieces with
  | nil => exact absurd rfl hne
  | cons piece pieces ih =>
    have hpiece : splitAll sep piece = [piece] := splitAll_of_not_mem (h piece List.mem_cons_self)
    cases pieces with
    | nil => rw [List.intercalate_singleton, hpiece]
    | cons next pieces =>
      have hrest := ih (List.cons_ne_nil _ _) fun p hp => h p (List.mem_cons_of_mem _ hp)
      rw [List.intercalate_cons_cons, List.append_assoc, List.singleton_append, splitAll_append,
        hpiece, hrest, List.singleton_append]

/-- Every character but the separators is in one of the pieces. -/
theorem exists_mem_splitAll (h : c ∈ s) (hc : c ≠ sep) : ∃ piece ∈ splitAll sep s, c ∈ piece := by
  induction s with
  | nil => cases h
  | cons d s ih =>
    obtain ⟨piece, pieces, hs⟩ := List.exists_cons_of_ne_nil (@splitAll_ne_nil sep s)
    unfold splitAll
    rw [hs] at ih ⊢
    split
    · next hd =>
      have hcs : c ∈ s := (List.mem_cons.mp h).resolve_left fun hcd => hc (hcd.trans hd)
      obtain ⟨x, hx, hcx⟩ := ih hcs
      exact ⟨x, List.mem_cons_of_mem _ hx, hcx⟩
    · rcases List.mem_cons.mp h with rfl | hcs
      · exact ⟨c :: piece, List.mem_cons_self, List.mem_cons_self⟩
      · obtain ⟨x, hx, hcx⟩ := ih hcs
        rcases List.mem_cons.mp hx with rfl | hx
        · exact ⟨d :: x, List.mem_cons_self, List.mem_cons_of_mem d hcx⟩
        · exact ⟨x, List.mem_cons_of_mem _ hx, hcx⟩

/-- Texts with the same pieces are the same. -/
theorem splitAll_injective {t : List Char} (h : splitAll sep s = splitAll sep t) : s = t := by
  rw [← @intercalate_splitAll sep s, h, intercalate_splitAll]

end RestQuery.Text
