import RestQuery.Handling
import RestQuery.Proofs.Outcome

/-!
# Strict and lenient runs side by side

Two runs of one computation, strict and lenient, are related if the lenient one gives whatever the
strict one gives and never fails with something invalid. The two decisions of `RestQuery.Handling`
are so related whatever they decide on, and the relation passes through all ways in which the parts
of a query are put together. So the proofs about the parts follow their definitions.
-/

namespace RestQuery

variable {α β γ : Type} {x y : Except Error α} {f g : α → Except Error β}

/-- A run that fails with nothing invalid. -/
def Forgives (y : Except Error α) : Prop := ∀ cause, y ≠ .error (.invalid cause)

theorem Forgives.ok (a : α) : Forgives (.ok a) := by simp [Forgives]

theorem Forgives.bind (h : Forgives y) (hg : ∀ a, Forgives (g a)) : Forgives (y >>= g) := by
  intro cause hcause
  rcases bind_eq_error.mp hcause with hy | ⟨a, -, hga⟩
  · exact h cause hy
  · exact hg a cause hga

/-- A run that fails with nothing but what is invalid. -/
def OnlyInvalid (x : Except Error α) : Prop := ∀ e, x = .error e → ∃ cause, e = .invalid cause

theorem OnlyInvalid.ok (a : α) : OnlyInvalid (.ok a) := by simp [OnlyInvalid]

theorem OnlyInvalid.invalid (cause : Invalid) :
    OnlyInvalid (.error (.invalid cause) : Except Error α) := by
  rintro e he
  cases he
  exact ⟨cause, rfl⟩

theorem OnlyInvalid.bind (h : OnlyInvalid x) (hf : ∀ a, OnlyInvalid (f a)) :
    OnlyInvalid (x >>= f) := by
  intro e he
  rcases bind_eq_error.mp he with hx | ⟨a, -, hfa⟩
  · exact h e hx
  · exact hf a e hfa

theorem OnlyInvalid.foldlM {f : α → γ → Except Error α} (hf : ∀ a c, OnlyInvalid (f a c))
    (items : List γ) (a : α) : OnlyInvalid (items.foldlM f a) := by
  induction items generalizing a with
  | nil => exact ok a
  | cons c items ih =>
    rw [List.foldlM_cons]
    exact (hf a c).bind ih

/-- What is found is found under both handlings. -/
theorem check_of_isOk (h : x.isOk = true) : ∃ a, ∀ handling : Handling,
    handling.check x = .ok (some a) := by
  obtain ⟨a, rfl⟩ := exists_eq_ok h
  exact ⟨a, fun handling => by cases handling <;> rfl⟩

/-- What is only invalid is passed over. -/
theorem OnlyInvalid.check_lenient (hx : OnlyInvalid x) (h : x.isOk = false) :
    Handling.lenient.check x = .ok none := by
  cases x with
  | ok a => cases h
  | error e =>
    obtain ⟨cause, rfl⟩ := hx e rfl
    rfl

/-- The lenient run `y` gives what the strict run `x` gives, and fails with nothing invalid. -/
structure Relaxes (x y : Except Error α) : Prop where
  /-- What the strict run gives the lenient one gives too. -/
  keeps : ∀ a, x = .ok a → y = .ok a
  /-- The lenient run fails with nothing invalid. -/
  forgives : Forgives y

namespace Relaxes

/-! ## Single steps -/

theorem refl (h : Forgives x) : Relaxes x x := ⟨fun _ h => h, h⟩

theorem ok (a : α) : Relaxes (.ok a) (.ok a) := refl (.ok a)

theorem malformed (e : Error) (cause : Malformed) :
    Relaxes (.error e : Except Error α) (.error (.malformed cause)) :=
  ⟨by simp, by simp [Forgives]⟩

/-- A strict check gives nothing where a lenient one passes over something. -/
theorem check (x : Except Error α) :
    Relaxes (Handling.strict.check x) (Handling.lenient.check x) := by
  cases x with
  | ok a => exact ok _
  | error e => cases e <;> exact ⟨by simp [Handling.check], by simp [Forgives, Handling.check]⟩

/-- After what is refused strictly a lenient run may go on as it likes. -/
theorem refused (cause : Invalid) (h : Forgives y) : Relaxes (.error (.invalid cause)) y :=
  ⟨by simp, h⟩

theorem report (cause : Invalid) :
    Relaxes (Handling.strict.report cause) (Handling.lenient.report cause) :=
  refused cause (.ok ())

theorem ite {p q : Prop} [Decidable p] [Decidable q] {x' y' : Except Error α} (hpq : p ↔ q)
    (h : Relaxes x y) (h' : Relaxes x' y') :
    Relaxes (if p then x else x') (if q then y else y') := by
  by_cases hp : p
  · rwa [if_pos hp, if_pos (hpq.mp hp)]
  · rwa [if_neg hp, if_neg (hpq.not.mp hp)]

/-! ## Steps one after the other -/

theorem bind (h : Relaxes x y) (hf : ∀ a, Relaxes (f a) (g a)) : Relaxes (x >>= f) (y >>= g) := by
  refine ⟨fun b hb => ?_, h.forgives.bind fun a => (hf a).forgives⟩
  obtain ⟨a, ha, hfa⟩ := bind_eq_ok.mp hb
  rw [h.keeps a ha, ok_bind, (hf a).keeps b hfa]

theorem map (h : Relaxes x y) (k : α → β) : Relaxes (k <$> x) (k <$> y) := by
  have hk := h.bind fun a => ok (k a)
  cases x <;> cases y <;> exact hk

theorem mapM {f g : γ → Except Error α} (h : ∀ c, Relaxes (f c) (g c)) (items : List γ) :
    Relaxes (items.mapM f) (items.mapM g) := by
  induction items with
  | nil => exact ok []
  | cons c items ih =>
    rw [List.mapM_cons, List.mapM_cons]
    exact (h c).bind fun a => ih.bind fun as => ok (a :: as)

theorem forM {f g : γ → Except Error PUnit} (h : ∀ c, Relaxes (f c) (g c)) (items : List γ) :
    Relaxes (items.forM f) (items.forM g) := by
  induction items with
  | nil => exact ok _
  | cons c items ih => exact (h c).bind fun _ => ih

theorem foldlM {f g : α → γ → Except Error α} (h : ∀ a c, Relaxes (f a c) (g a c))
    (items : List γ) (a : α) : Relaxes (items.foldlM f a) (items.foldlM g a) := by
  induction items generalizing a with
  | nil => exact ok a
  | cons c items ih =>
    rw [List.foldlM_cons, List.foldlM_cons]
    exact (h a c).bind ih

end Relaxes

end RestQuery
