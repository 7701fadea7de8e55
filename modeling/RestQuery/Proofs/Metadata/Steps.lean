import RestQuery.Metadata.Preferences
import RestQuery.Proofs.Handling

/-!
# Steps on the metadata

A step leaves metadata also where it fails, and a lenient query goes on with what it leaves. Yet no
refused value leaves a part of itself behind. Every step first decides whether it fails, whatever
the metadata are, and it makes its one change after that.
-/

namespace RestQuery.Metadata

/-- The metadata with another handling. -/
def withHandling (h : Handling) (m : Metadata) : Metadata := { m with handling := h }

/-- The changes of the metadata that a preference for a key can make. -/
inductive Writes : String → (Metadata → Metadata) → Prop where
  | nothing (key : String) : Writes key id
  | count (c : CountMode) : Writes "count" fun m => { m with count := some c }
  | returnShape (r : ReturnShape) : Writes "return" fun m => { m with returnShape := some r }
  | missing (x : Missing) : Writes "missing" fun m => { m with missing := some x }
  | rollback (b : Bool) : Writes "tx" fun m => { m with rollback := b }
  | maxAffected (n : Nat) : Writes "max-affected" fun m => { m with maxAffected := some n }
  | timezone (zone : String) : Writes "timezone" fun m => { m with timezone := some zone }

/-- A change that neither reads nor writes the handling. -/
def KeepsHandling (f : Metadata → Metadata) : Prop :=
  ∀ h m, f (m.withHandling h) = (f m).withHandling h

theorem Writes.keepsHandling {key : String} {f : Metadata → Metadata} (h : Writes key f) :
    KeepsHandling f := by
  cases h <;> exact fun _ _ => rfl

/-- What a step does to all metadata alike. -/
inductive Decided (Change : (Metadata → Metadata) → Prop) (step : Step) : Prop where
  /-- It is refused as invalid and leaves the metadata as they were. -/
  | refused (cause : Invalid) (h : ∀ m, step.run m = (.error (.invalid cause), m))
  /-- It makes one change of a kind. -/
  | changes (f : Metadata → Metadata) (hf : Change f) (h : ∀ m, step.run m = (.ok (), f m))

variable {Change Change' : (Metadata → Metadata) → Prop} {step : Step} {handling : Handling}
  {m : Metadata}

theorem Decided.mono (h : Decided Change step) (hkind : ∀ f, Change f → Change' f) :
    Decided Change' step := by
  cases h with
  | refused cause h => exact .refused cause h
  | changes f hf h => exact .changes f (hkind f hf) h

/-- A value that is read before it is written is written whole or not at all. -/
theorem Decided.write {α : Type} {x : Except Error α} {change : α → Metadata → Metadata}
    (hx : OnlyInvalid x) (hchange : ∀ a, Change (change a)) :
    Decided Change (do modify (change (← x))) := by
  cases x with
  | ok a => exact .changes (change a) (hchange a) fun _ => rfl
  | error e =>
    obtain ⟨cause, rfl⟩ := hx e rfl
    exact .refused cause fun _ => rfl

/-- A step that fails has changed nothing. -/
theorem Decided.unchanged_of_error {e : Error} (h : Decided Change step)
    (he : (step.run m).1 = .error e) : (step.run m).2 = m := by
  cases h with
  | refused cause h => rw [h]
  | changes f hf h =>
    rw [h] at he
    cases he

/-! ## The steps -/

theorem onlyInvalid_choose {α : Type} (expected : String) (choices : List (String × α))
    (p : Http.Preference) : OnlyInvalid (choose expected choices p) := by
  unfold choose
  split
  · exact .ok _
  · exact .invalid _

theorem decided_addPreference (p : Http.Preference) : Decided (Writes p.key) (addPreference p) := by
  obtain ⟨key, value⟩ := p
  unfold addPreference
  dsimp only
  split
  · exact .write (onlyInvalid_choose _ _ _) .count
  · exact .write (onlyInvalid_choose _ _ _) .returnShape
  · exact .write (onlyInvalid_choose _ _ _) .missing
  · exact .write (onlyInvalid_choose _ _ _) .rollback
  · split
    · next n _ => exact .changes _ (.maxAffected n) fun _ => rfl
    · exact .refused _ fun _ => rfl
  · split
    · exact .refused _ fun _ => rfl
    · exact .changes _ (.timezone value) fun _ => rfl
  · split
    · exact .changes _ (.nothing _) fun _ => rfl
    · exact .refused _ fun _ => rfl

theorem onlyInvalid_addPlanOption (p : Plan) (option : List Char) :
    OnlyInvalid (addPlanOption p option) := by
  unfold addPlanOption
  split <;> first | exact .ok _ | exact .invalid _

theorem onlyInvalid_addPlanParam (p : Plan) (param : List Char × List Char) :
    OnlyInvalid (addPlanParam p param) := by
  unfold addPlanParam
  split
  · exact .ok _
  · split_ifs
    · exact .ok _
    · exact .ok _
    · exact .invalid _
  · exact .foldlM onlyInvalid_addPlanOption _ p
  · exact .ok _

theorem onlyInvalid_planOf (ending : List Char) (params : List (List Char × List Char)) :
    OnlyInvalid (planOf ending params) := by
  have hformat : OnlyInvalid (planFormatOfMedia ending) := by
    unfold planFormatOfMedia
    split_ifs
    · exact .ok _
    · exact .ok _
    · exact .invalid _
  exact hformat.bind fun format => .foldlM onlyInvalid_addPlanParam params _

/-- A plan is written when all its parameters are read. -/
theorem decided_addAccept (accept : String) : Decided KeepsHandling (addAccept accept) := by
  unfold addAccept
  split
  · exact .changes id (fun _ _ => rfl) fun _ => rfl
  · dsimp only
    split_ifs
    · exact .changes id (fun _ _ => rfl) fun _ => rfl
    · exact .changes _ (fun _ _ => rfl) fun _ => rfl
    · exact .changes _ (fun _ _ => rfl) fun _ => rfl
    · split
      · exact .write (onlyInvalid_planOf _ _) fun plan _ _ => rfl
      · exact .changes _ (fun _ _ => rfl) fun _ => rfl

theorem decided_addColumns (operation : Operation) (columns : String) :
    Decided KeepsHandling (addColumns operation columns) := by
  unfold addColumns
  split
  · exact .changes _ (fun _ _ => rfl) fun _ => rfl
  · exact .refused _ fun _ => rfl

/-! ## Steps that may be passed over -/

theorem attempt_of_ok (handling : Handling) (h : (step.run m).1 = .ok ()) :
    attempt handling step m = .ok (step.run m).2 := by
  unfold attempt
  dsimp only
  rw [h]
  cases handling <;> rfl

theorem attempt_of_invalid {cause : Invalid} (h : (step.run m).1 = .error (.invalid cause)) :
    attempt .lenient step m = .ok (step.run m).2 := by
  unfold attempt
  dsimp only
  rw [h]
  rfl

/-- A lenient query goes on with what the step leaves, also where it is refused. -/
theorem Decided.attempt_lenient (h : Decided Change step) (m : Metadata) :
    attempt .lenient step m = .ok (step.run m).2 := by
  cases h with
  | refused cause h => exact attempt_of_invalid (by rw [h])
  | changes f hf h => exact attempt_of_ok .lenient (by rw [h])

/-- A step that may be passed over fails or makes one change, whatever the metadata are. Where it is
passed over, nothing changes. -/
theorem Decided.attempt_cases (h : Decided Change step) (handling : Handling) :
    (∃ e, ∀ m, attempt handling step m = .error e) ∨
      ∃ f, (Change f ∨ f = id) ∧ ∀ m, attempt handling step m = .ok (f m) := by
  cases h with
  | refused cause h =>
    cases handling with
    | strict =>
      refine .inl ⟨.invalid cause, fun m => ?_⟩
      unfold attempt
      dsimp only
      rw [h]
      rfl
    | lenient =>
      refine .inr ⟨id, .inr rfl, fun m => ?_⟩
      rw [attempt_of_invalid (by rw [h]), h, id]
  | changes f hf h =>
    refine .inr ⟨f, .inl hf, fun m => ?_⟩
    rw [attempt_of_ok handling (by rw [h]), h]

end RestQuery.Metadata
