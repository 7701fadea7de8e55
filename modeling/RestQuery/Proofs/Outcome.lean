import Mathlib.Data.List.Forall2
import Mathlib.Tactic.Common

/-!
# Results that may be errors

How a sequence of steps that may fail is taken apart: it succeeds exactly if each of its steps does.
-/

namespace RestQuery

variable {ε α β : Type} {x : Except ε α} {f : α → Except ε β} {b : β} {e : ε}

@[simp] theorem ok_bind (a : α) (f : α → Except ε β) : (Except.ok a >>= f) = f a := rfl

@[simp] theorem error_bind (e : ε) (f : α → Except ε β) : (Except.error e >>= f) = .error e := rfl

@[simp] theorem pure_eq_ok (a : α) : (pure a : Except ε α) = .ok a := rfl

theorem bind_eq_ok : (x >>= f) = .ok b ↔ ∃ a, x = .ok a ∧ f a = .ok b := by
  cases x with
  | ok a => simp
  | error e => simp

theorem bind_eq_error :
    (x >>= f) = .error e ↔ x = .error e ∨ ∃ a, x = .ok a ∧ f a = .error e := by
  cases x with
  | ok a => simp
  | error e => simp

@[simp] theorem map_ok (g : α → β) (a : α) : (g <$> (Except.ok a : Except ε α)) = .ok (g a) := rfl

@[simp] theorem map_error (g : α → β) (e : ε) :
    (g <$> (Except.error e : Except ε α)) = .error e := rfl

theorem map_eq_ok {g : α → β} : g <$> x = .ok b ↔ ∃ a, x = .ok a ∧ g a = b := by
  cases x with
  | ok a => simp
  | error e => simp

theorem map_eq_error {g : α → β} : g <$> x = .error e ↔ x = .error e := by
  cases x with
  | ok a => simp
  | error e => simp

theorem exists_eq_ok (h : x.isOk = true) : ∃ a, x = .ok a := by
  cases x with
  | ok a => exact ⟨a, rfl⟩
  | error e => cases h

/-- What each step of a run over items keeps the whole run keeps. -/
theorem foldlM_invariant {γ : Type} {f : α → γ → Except ε α} {P : α → Prop} {items : List γ}
    {a b : α} (hstep : ∀ a b c, P a → f a c = .ok b → P b) (ha : P a)
    (h : items.foldlM f a = .ok b) : P b := by
  induction items generalizing a with
  | nil =>
    cases h
    exact ha
  | cons c items ih =>
    rw [List.foldlM_cons] at h
    obtain ⟨a', hfirst, hrest⟩ := bind_eq_ok.mp h
    exact ih (hstep a a' c ha hfirst) hrest

/-- A run over one more item takes one more step. -/
theorem foldlM_concat {γ : Type} {f : α → γ → Except ε α} {items : List γ} {c : γ} {a b : α}
    (h : (items ++ [c]).foldlM f a = .ok b) :
    ∃ m, items.foldlM f a = .ok m ∧ f m c = .ok b := by
  rw [List.foldlM_append] at h
  obtain ⟨m, hitems, hlast⟩ := bind_eq_ok.mp h
  rw [List.foldlM_cons] at hlast
  obtain ⟨b', hstep, hnil⟩ := bind_eq_ok.mp hlast
  cases hnil
  exact ⟨m, hitems, hstep⟩

/-- A run `g` over all items and a run `f` over the good ones alone stay related, if they make
related steps for good items and `g` keeps the relation by itself at the others. -/
theorem foldlM_filter {γ : Type} {f g : α → γ → Except ε α} {R : α → α → Prop} {good : γ → Bool}
    {items : List γ} {a a' : α}
    (hgood : ∀ a a', ∀ c ∈ items, good c = true → R a a' →
      ∃ b b', f a c = .ok b ∧ g a' c = .ok b' ∧ R b b')
    (hbad : ∀ a a', ∀ c ∈ items, good c = false → R a a' → ∃ b', g a' c = .ok b' ∧ R a b')
    (h : R a a') :
    ∃ b b', (items.filter good).foldlM f a = .ok b ∧ items.foldlM g a' = .ok b' ∧ R b b' := by
  induction items generalizing a a' with
  | nil => exact ⟨a, a', rfl, rfl, h⟩
  | cons c items ih =>
    have hrest (a a' : α) (h : R a a') :
        ∃ b b', (items.filter good).foldlM f a = .ok b ∧ items.foldlM g a' = .ok b' ∧ R b b' :=
      ih (fun a a' c hc => hgood a a' c (List.mem_cons_of_mem _ hc))
        (fun a a' c hc => hbad a a' c (List.mem_cons_of_mem _ hc)) h
    rw [List.filter_cons, List.foldlM_cons]
    cases hc : good c with
    | true =>
      obtain ⟨b, b', hf, hg, hb⟩ := hgood a a' c List.mem_cons_self hc h
      rw [if_pos rfl, List.foldlM_cons, hf, hg]
      exact hrest b b' hb
    | false =>
      obtain ⟨b', hg, hb⟩ := hbad a a' c List.mem_cons_self hc h
      rw [if_neg Bool.false_ne_true, hg]
      exact hrest a b' hb

/-- A run that does nothing at the items it could leave out may leave them out. -/
theorem foldlM_filter_of_skip {γ : Type} {f : α → γ → Except ε α} {p : γ → Bool}
    (hskip : ∀ a c, p c = false → f a c = .ok a) (items : List γ) (a : α) :
    (items.filter p).foldlM f a = items.foldlM f a := by
  have hstep : (fun a c => if p c = true then f a c else pure a) = f := by
    funext a c
    by_cases hc : p c = true
    · exact if_pos hc
    · rw [if_neg hc, hskip a c (Bool.not_eq_true _ ▸ hc)]
      rfl
  rw [List.foldlM_filter, hstep]

/-- A step that commutes with `k` may be taken before it. -/
theorem bind_map {x : Except ε α} {f : α → Except ε α} {k : α → α}
    (h : ∀ a, f (k a) = k <$> f a) : ((k <$> x) >>= f) = k <$> (x >>= f) := by
  cases x with
  | ok a => exact h a
  | error e => rfl

theorem foldlM_map {γ : Type} {f : α → γ → Except ε α} {k : α → α}
    (h : ∀ a c, f (k a) c = k <$> f a c) (items : List γ) (a : α) :
    items.foldlM f (k a) = k <$> items.foldlM f a := by
  induction items generalizing a with
  | nil => rfl
  | cons c items ih =>
    rw [List.foldlM_cons, List.foldlM_cons, h, bind_map ih]

/-! ## Runs over items in another order -/

section Interleaving

variable {γ κ : Type} {step : α → γ → Except ε α} {key : γ → κ} {a b : α}

/-- A step may be taken after steps for other keys. -/
theorem foldlM_move
    (hcomm : ∀ a b c d, key c ≠ key d → (step a c >>= (step · d)) = .ok b →
      (step a d >>= (step · c)) = .ok b)
    {c : γ} {earlier later : List γ} (hother : ∀ d ∈ earlier, key c ≠ key d)
    (h : (c :: (earlier ++ later)).foldlM step a = .ok b) :
    (earlier ++ c :: later).foldlM step a = .ok b := by
  induction earlier generalizing a with
  | nil => exact h
  | cons d earlier ih =>
    obtain ⟨hd, hearlier⟩ := List.forall_mem_cons.mp hother
    rw [List.foldlM_cons] at h
    obtain ⟨a₁, hc, h⟩ := bind_eq_ok.mp h
    rw [List.cons_append, List.foldlM_cons] at h
    obtain ⟨a₂, hthen, hrest⟩ := bind_eq_ok.mp h
    have hswap := hcomm a a₂ c d hd (bind_eq_ok.mpr ⟨a₁, hc, hthen⟩)
    obtain ⟨a₃, hfirst, hsecond⟩ := bind_eq_ok.mp hswap
    rw [List.cons_append, List.foldlM_cons]
    refine bind_eq_ok.mpr ⟨a₃, hfirst, ih hearlier ?_⟩
    rw [List.foldlM_cons]
    exact bind_eq_ok.mpr ⟨a₂, hsecond, hrest⟩

/-- If steps for different keys commute, a run depends only on the order of the items of each
key. -/
theorem foldlM_interleave [DecidableEq κ] (key : γ → κ)
    (hcomm : ∀ a b c d, key c ≠ key d → (step a c >>= (step · d)) = .ok b →
      (step a d >>= (step · c)) = .ok b)
    {items items' : List γ}
    (hkeys : ∀ k, items'.filter (key · = k) = items.filter (key · = k))
    (h : items.foldlM step a = .ok b) : items'.foldlM step a = .ok b := by
  induction items generalizing items' a with
  | nil =>
    have hnone : items' = [] := by
      refine List.eq_nil_iff_forall_not_mem.mpr fun c hc => ?_
      have hmem : c ∈ items'.filter (key · = key c) := List.mem_filter.mpr ⟨hc, by simp⟩
      rw [hkeys (key c)] at hmem
      cases hmem
    rw [hnone]
    exact h
  | cons c items ih =>
    -- The first item for its key is the first one in the other run too; what is before it there is
    -- for other keys.
    have hfirst := hkeys (key c)
    rw [List.filter_cons_of_pos (by simp)] at hfirst
    obtain ⟨earlier, later, rfl, hother, -, hlater⟩ := List.filter_eq_cons_iff.mp hfirst
    have hother : ∀ d ∈ earlier, key c ≠ key d := fun d hd he => by simpa [he] using hother d hd
    refine foldlM_move hcomm hother ?_
    rw [List.foldlM_cons] at h ⊢
    obtain ⟨a₁, hc, hrest⟩ := bind_eq_ok.mp h
    refine bind_eq_ok.mpr ⟨a₁, hc, ih (fun k => ?_) hrest⟩
    by_cases hk : key c = k
    · have hnone : earlier.filter (key · = k) = [] := by
        rw [List.filter_eq_nil_iff]
        intro d hd
        simpa using fun he => hother d hd (hk.trans he.symm)
      rw [List.filter_append, hnone, List.nil_append, ← hk]
      exact hlater
    · have hall := hkeys k
      rw [List.filter_append, List.filter_cons_of_neg (by simpa using hk),
        List.filter_cons_of_neg (by simpa using hk)] at hall
      rw [List.filter_append]
      exact hall

end Interleaving

/-! ## Results of a list -/

section Lists

variable {f : α → Except ε β} {items : List α} {results : List β} {R : α → β → Prop} {P : α → Prop}
  {Q : β → Prop}

/-- A list of steps succeeds exactly if each step does, with the results in their order. -/
theorem mapM_eq_ok : items.mapM f = .ok results ↔
    List.Forall₂ (fun a b => f a = .ok b) items results := by
  induction items generalizing results with
  | nil => simp [eq_comm]
  | cons a items ih =>
    rw [List.mapM_cons, bind_eq_ok, List.forall₂_cons_left_iff]
    constructor
    · rintro ⟨b, hb, h⟩
      obtain ⟨rest, hrest, h⟩ := bind_eq_ok.mp h
      cases h
      exact ⟨b, rest, hb, ih.mp hrest, rfl⟩
    · rintro ⟨b, rest, hb, hrest, rfl⟩
      exact ⟨b, hb, bind_eq_ok.mpr ⟨rest, ih.mpr hrest, rfl⟩⟩

/-- Every result is that of some item. -/
theorem exists_mem_of_forall₂ (h : List.Forall₂ R items results) :
    ∀ b ∈ results, ∃ a ∈ items, R a b := by
  induction h with
  | nil => simp
  | cons hab _ ih =>
    refine List.forall_mem_cons.mpr ⟨⟨_, List.mem_cons_self, hab⟩, fun b hb => ?_⟩
    obtain ⟨a, ha, hab'⟩ := ih b hb
    exact ⟨a, List.mem_cons_of_mem _ ha, hab'⟩

/-- What related items have alike all items have if all related ones have. -/
theorem forall_mem_iff_of_forall₂ (h : List.Forall₂ R items results)
    (hR : ∀ a b, R a b → (P a ↔ Q b)) : (∀ a ∈ items, P a) ↔ ∀ b ∈ results, Q b := by
  induction h with
  | nil => simp
  | cons hab _ ih => simp only [List.forall_mem_cons, hR _ _ hab, ih]

end Lists

end RestQuery
