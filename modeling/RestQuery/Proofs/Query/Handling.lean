import RestQuery.Proofs.Handling
import RestQuery.Query.Calls
import RestQuery.Query.Filters
import RestQuery.Query.Windows

/-!
# The parts of a query under both handlings

The operation, the filters, the windows and the call of a query are related under strict and lenient
handling: what is found strictly is found leniently too, and leniently nothing is invalid.
-/

namespace RestQuery

open Relaxes

/-- The context under another handling. -/
def Context.withHandling (h : Handling) (ctx : Context) : Context := { ctx with handling := h }

namespace Context

variable {h : Handling} {ctx : Context}

@[simp] theorem handling_withHandling : (ctx.withHandling h).handling = h := rfl

@[simp] theorem hasEmbed_withHandling {path : String} :
    (ctx.withHandling h).hasEmbed path = ctx.hasEmbed path := rfl

end Context

/-! ## Operations -/

theorem relaxes_ofPost (ctx : Context) :
    Relaxes (Operation.ofPost (ctx.withHandling .strict))
      (Operation.ofPost (ctx.withHandling .lenient)) := by
  unfold Operation.ofPost
  simp only [Context.withHandling]
  split
  · exact ok _
  · split
    · exact ok _
    · exact refused _ (.ok _)

theorem relaxes_operation (ctx : Context) :
    Relaxes (Operation.ofContext (ctx.withHandling .strict))
      (Operation.ofContext (ctx.withHandling .lenient)) := by
  have hpost := relaxes_ofPost ctx
  unfold Operation.ofContext
  simp only [Context.withHandling] at hpost ⊢
  split
  · split
    all_goals first | exact ok _ | exact malformed _ _
  · split
    all_goals first | exact ok _ | exact malformed _ _ | exact hpost

/-! ## Filters -/

namespace Filters

theorem relaxes_keepRaw (cause : Invalid) (s : List Char) :
    Relaxes (keepRaw .strict cause s) (keepRaw .lenient cause s) :=
  refused cause (.ok _)

theorem relaxes_predicate (s : List Char) :
    Relaxes (predicate .strict s) (predicate .lenient s) := by
  unfold predicate
  split
  · exact relaxes_keepRaw _ _
  · split
    · exact ok _
    · split
      · exact malformed _ _
      · exact relaxes_keepRaw _ _

theorem relaxes_embedPredicate (name : String) (s : List Char) :
    Relaxes (embedPredicate .strict name s) (embedPredicate .lenient name s) := by
  unfold embedPredicate
  split
  · exact ok _
  · exact refused _ (.ok _)

theorem relaxes_rawCondition (s : List Char) (fault : Expression.Fault) :
    Relaxes (rawCondition .strict s fault) (rawCondition .lenient s fault) := by
  unfold rawCondition
  dsimp only
  split
  · exact malformed _ _
  · exact refused _ (.ok _)

theorem relaxes_columnCondition (ctx : Context) (path : Option String) (s : List Char) :
    Relaxes (columnCondition (ctx.withHandling .strict) path s)
      (columnCondition (ctx.withHandling .lenient) path s) := by
  unfold columnCondition
  split
  · exact (relaxes_rawCondition _ _).map _
  · exact ite Iff.rfl ((relaxes_embedPredicate _ _).map _) ((relaxes_predicate _).map _)

theorem forgives_unwrapGroup (s : List Char) : Forgives (unwrapGroup s) := by
  unfold unwrapGroup
  split
  · split <;> simp [Forgives]
  · simp [Forgives]

/-- Groups under both handlings, by induction on how deep they may nest. -/
theorem relaxes_group (ctx : Context) (path : Option String) (levels : Nat) (c : Connective)
    (negated : Bool) (s : List Char) :
    Relaxes (group (ctx.withHandling .strict) path levels c negated s)
      (group (ctx.withHandling .lenient) path levels c negated s) := by
  induction levels generalizing c negated s with
  | zero => exact malformed _ _
  | succ levels ih =>
    unfold group
    refine (refl (forgives_unwrapGroup s)).bind fun inner => ?_
    split
    · exact malformed _ _
    · refine (mapM (fun piece => ?_) _).bind fun entries => ok _
      unfold condition
      split
      · exact malformed _ _
      · split
        · exact (ih _ _ _).map _
        · exact relaxes_columnCondition ctx path _

theorem relaxes_columnEntry (ctx : Context) (key value : String) :
    Relaxes (columnEntry (ctx.withHandling .strict) key value)
      (columnEntry (ctx.withHandling .lenient) key value) := by
  unfold columnEntry
  exact ite Iff.rfl ((relaxes_embedPredicate _ _).map _) ((relaxes_predicate _).map _)

theorem relaxes_groupEntry (ctx : Context) (key value : String) (path : Option String)
    (negated : Bool) (c : Connective) :
    Relaxes (groupEntry (ctx.withHandling .strict) key value path negated c)
      (groupEntry (ctx.withHandling .lenient) key value path negated c) := by
  unfold groupEntry
  simp only [Context.hasEmbed_withHandling, Context.handling_withHandling]
  split
  · exact refused _ (.ok _)
  · exact (relaxes_group ctx path _ c negated _).map _

theorem relaxes_addParam (ctx : Context) (fs : Filters) (param : String × String) :
    Relaxes (addParam (ctx.withHandling .strict) fs param)
      (addParam (ctx.withHandling .lenient) fs param) := by
  have hentry : Relaxes (paramEntry (ctx.withHandling .strict) param)
      (paramEntry (ctx.withHandling .lenient) param) := by
    unfold paramEntry
    refine ite Iff.rfl (ok _) ?_
    split
    · exact ok _
    · exact ok _
    · exact relaxes_groupEntry ctx _ _ _ _ _
    · exact relaxes_columnEntry ctx _ _
  unfold addParam
  refine hentry.bind fun entry => ?_
  cases entry <;> exact ok _

theorem relaxes_ofContext (ctx : Context) :
    Relaxes (ofContext (ctx.withHandling .strict)) (ofContext (ctx.withHandling .lenient)) :=
  foldlM (relaxes_addParam ctx) ctx.params _

end Filters

/-! ## Windows -/

namespace Windows

theorem relaxes_change (c : Clause) (key value : String) :
    Relaxes (change .strict c key value) (change .lenient c key value) := by
  unfold change
  cases c <;>
  · refine (check _).bind fun found => ?_
    cases found <;> exact ok _

theorem relaxes_addParam (ctx : Context) (ws : Windows) (param : String × String) :
    Relaxes (addParam (ctx.withHandling .strict) ws param)
      (addParam (ctx.withHandling .lenient) ws param) := by
  unfold addParam
  simp only [Context.hasEmbed_withHandling, Context.handling_withHandling]
  split
  · split
    · exact refused _ (.ok _)
    · exact (relaxes_change _ _ _).bind fun f => ok _
  · exact ok _

theorem relaxes_ofContext (ctx : Context) :
    Relaxes (ofContext (ctx.withHandling .strict)) (ofContext (ctx.withHandling .lenient)) :=
  foldlM (relaxes_addParam ctx) ctx.params _

end Windows

/-! ## Calls -/

namespace Call

theorem relaxes_passesWhole (ctx : Context) :
    Relaxes (passesWhole (ctx.withHandling .strict)) (passesWhole (ctx.withHandling .lenient)) := by
  unfold passesWhole
  simp only [Context.withHandling]
  split
  · exact ok _
  · split
    · exact ok _
    · exact refused _ (.ok _)

theorem relaxes_ofPayload (whole : Bool) (payload : Option Payload) :
    Relaxes (ofPayload .strict whole payload) (ofPayload .lenient whole payload) := by
  unfold ofPayload
  split
  · exact ok _
  · split
    · exact ok _
    · split
      · exact ok _
      · exact ok _
      · exact refused _ (.ok _)

theorem relaxes_ofContext (ctx : Context) :
    Relaxes (ofContext (ctx.withHandling .strict)) (ofContext (ctx.withHandling .lenient)) := by
  have hbody : Relaxes (ofBody (ctx.withHandling .strict)) (ofBody (ctx.withHandling .lenient)) :=
    (relaxes_passesWhole ctx).bind fun whole =>
      (relaxes_ofPayload whole ctx.payload).bind fun args => ok _
  exact ite Iff.rfl (ok _) hbody

end Call

end RestQuery
