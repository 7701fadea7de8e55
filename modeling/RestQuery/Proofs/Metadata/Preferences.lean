import RestQuery.Proofs.Metadata.Steps
import RestQuery.Proofs.Query.Handling

/-!
# Metadata under both handlings

No preference looks at the handling that the metadata says, so the metadata of a strict run differ
from those of a lenient one in that word alone.
-/

namespace RestQuery.Metadata

open Relaxes

variable {h : Handling} {m : Metadata}

/-! ## Steps -/

/-- A step is alike whatever handling the metadata say. -/
theorem attempt_withHandling {step : Step} (hstep : Decided KeepsHandling step) (h' : Handling) :
    attempt h' step (m.withHandling h) = withHandling h <$> attempt h' step m := by
  rcases hstep.attempt_cases h' with ⟨e, he⟩ | ⟨f, hf | rfl, hok⟩
  · rw [he, he]
    rfl
  · rw [hok, hok, hf]
    rfl
  · rw [hok, hok]
    rfl

theorem attemptWith_withHandling {step : String → Step}
    (hstep : ∀ s, Decided KeepsHandling (step s)) (h' : Handling) (s : Option String) :
    attemptWith h' step s (m.withHandling h) = withHandling h <$> attemptWith h' step s m := by
  cases s with
  | some s => exact attempt_withHandling (hstep s) h'
  | none => rfl

theorem relaxes_attempt (step : Step) (m : Metadata) :
    Relaxes (attempt .strict step m) (attempt .lenient step m) :=
  (check (step.run m).1).bind fun _ => ok _

theorem relaxes_attemptWith (step : String → Step) (s : Option String) (m : Metadata) :
    Relaxes (attemptWith .strict step s m) (attemptWith .lenient step s m) := by
  cases s with
  | some s => exact relaxes_attempt (step s) m
  | none => exact ok m

/-! ## The whole -/

theorem addAll_withHandling (ctx : Context) (operation : Operation) (m : Metadata) :
    addAll ctx operation (m.withHandling h) = withHandling h <$> addAll ctx operation m := by
  unfold addAll
  dsimp only
  have hpreference (p : Http.Preference) : Decided KeepsHandling (addPreference p) :=
    (decided_addPreference p).mono fun _ => Writes.keepsHandling
  rw [foldlM_map (fun m p => attempt_withHandling (hpreference p) ctx.handling)]
  refine bind_map fun m => ?_
  rw [attemptWith_withHandling decided_addAccept]
  exact bind_map fun m => attemptWith_withHandling (decided_addColumns operation) _ _

theorem relaxes_addAll (ctx : Context) (operation : Operation) (m : Metadata) :
    Relaxes (addAll (ctx.withHandling .strict) operation m)
      (addAll (ctx.withHandling .lenient) operation m) :=
  (foldlM (fun m p => relaxes_attempt (addPreference p) m) ctx.negotiation.preferences m).bind
    fun m => (relaxes_attemptWith _ _ m).bind fun m => relaxes_attemptWith _ _ m

/-- The metadata of an operation under both handlings, up to the handling that they say. -/
theorem relaxes_ofContext (ctx : Context) (operation : Operation) :
    Relaxes (withHandling .lenient <$> ofContext (ctx.withHandling .strict) operation)
      (ofContext (ctx.withHandling .lenient) operation) := by
  -- The handling that the metadata begin with passes through all steps to the front.
  have hstart (h : Handling) : ofContext (ctx.withHandling h) operation =
      withHandling h <$> addAll (ctx.withHandling h) operation { head := ctx.method = .head } :=
    addAll_withHandling (ctx.withHandling h) operation { head := ctx.method = .head }
  have hagain (x : Except Error Metadata) :
      withHandling .lenient <$> (withHandling .strict <$> x) = withHandling .lenient <$> x := by
    cases x <;> rfl
  rw [hstart, hstart, hagain]
  exact (relaxes_addAll ctx operation _).map _

/-- The metadata say the handling of the context. -/
theorem handling_ofContext {ctx : Context} {operation : Operation} {m : Metadata}
    (h : ofContext ctx operation = .ok m) : m.handling = ctx.handling := by
  have hstart := addAll_withHandling (h := ctx.handling) ctx operation
    { head := ctx.method = .head }
  have hm : withHandling ctx.handling <$> addAll ctx operation { head := ctx.method = .head } =
      .ok m := hstart.symm.trans h
  cases hadd : addAll ctx operation { head := ctx.method = .head } with
  | ok m' =>
    rw [hadd] at hm
    cases hm
    rfl
  | error e =>
    rw [hadd] at hm
    cases hm

end RestQuery.Metadata
