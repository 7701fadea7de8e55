import RestQuery.Proofs.Query.Addressing
import RestQuery.Proofs.Query.Filters
import RestQuery.Proofs.Query.Windows

/-!
# One more parameter

The filters and the windows of a query are found in a run over its parameters, and no step of the
run looks at the other parameters. So one more parameter at the end takes one more step, which
changes one filter or one clause of one window: that of the place which the key addresses.
-/

namespace RestQuery

/-- The context with other parameters. -/
def Context.withParams (params : Params) (ctx : Context) : Context := { ctx with params }

/-- The context with one more parameter at the end. -/
def Context.append (ctx : Context) (param : String × String) : Context :=
  ctx.withParams (ctx.params ++ [param])

namespace Params

variable {params : Params} {key key' value : String}

/-- The last value of a key is that before a parameter with another key. -/
theorem last?_append (h : key' ≠ key) :
    last? (params ++ [(key', value)]) key = last? params key := by
  unfold last? all
  rw [List.filter_append, List.map_append]
  simp [h]

end Params

variable {ctx : Context} {params : Params} {key value : String} {path place : Option String}

/-! ## Filters -/

namespace Filters

variable {fs fs' : Filters}

theorem addParam_withParams : addParam (ctx.withParams params) = addParam ctx :=
  addParam_update ctx.negotiation params

/-- One more parameter takes one more step. -/
theorem ofContext_append {param : String × String} (h : ofContext (ctx.append param) = .ok fs') :
    ∃ fs, ofContext ctx = .ok fs ∧ addParam ctx fs param = .ok fs' := by
  unfold ofContext Context.append at h
  rw [addParam_withParams] at h
  exact foldlM_concat h

theorem ascending_ofContext (h : ofContext ctx = .ok fs) : Keyed.Ascending fs.embedded :=
  foldlM_invariant (P := fun fs : Filters => Keyed.Ascending fs.embedded)
    (fun _ _ _ hfs hparam => (part_addParam hparam hfs none).1) Keyed.ascending_nil h

theorem columnEntry_strict {found : Option RoutedEntry} (hs : ctx.handling = .strict)
    (h : columnEntry ctx key value = .ok found) :
    ∃ entry, found = some ((ctx.splitEmbed key).1, entry) := by
  unfold columnEntry at h
  dsimp only at h
  split at h
  · obtain ⟨p, hp, rfl⟩ := map_eq_ok.mp h
    unfold embedPredicate at hp
    split at hp
    · cases hp
      exact ⟨_, rfl⟩
    · rw [hs] at hp
      cases hp
  · obtain ⟨p, -, rfl⟩ := map_eq_ok.mp h
    exact ⟨_, rfl⟩

theorem groupEntry_strict {found : Option RoutedEntry} {negated : Bool} {c : Connective}
    (hs : ctx.handling = .strict) (h : groupEntry ctx key value path negated c = .ok found) :
    ∃ entry, found = some (path, entry) := by
  unfold groupEntry at h
  split at h
  · rw [hs] at h
    cases h
  · obtain ⟨entry, -, rfl⟩ := map_eq_ok.mp h
    exact ⟨entry, rfl⟩

/-- What a parameter adds to the filters of a strict query that calls no function: an entry at the
place which its key addresses, if the key is for a filter. -/
theorem addParam_strict (hs : ctx.handling = .strict) (hcall : ctx.isQueryCall = false)
    (h : addParam ctx fs (key, value) = .ok fs') :
    match (ParamKey.classify key).addressed? (ctx.splitEmbed key).1 with
    | some (place, .filter) => ∃ entry, fs' = addEntry place entry fs
    | _ => fs' = fs := by
  unfold addParam at h
  obtain ⟨found, hfound, h⟩ := bind_eq_ok.mp h
  -- Only in a call can a parameter be an argument, whatever its key is.
  have harg : ctx.isArgument key value = false := by simp [Context.isArgument, hcall]
  unfold paramEntry at hfound
  dsimp only at hfound
  rw [harg, if_neg Bool.false_ne_true] at hfound
  split at hfound
  · next hrole =>
    cases hfound
    cases h
    rw [hrole]
    rfl
  · next hrole =>
    cases hfound
    cases h
    rw [hrole]
    rfl
  · next path negated c hrole =>
    obtain ⟨entry, rfl⟩ := groupEntry_strict hs hfound
    cases h
    rw [hrole]
    exact ⟨entry, rfl⟩
  · next hrole =>
    obtain ⟨entry, rfl⟩ := columnEntry_strict hs hfound
    cases h
    rw [hrole]
    exact ⟨entry, rfl⟩

end Filters

/-! ## Windows -/

namespace Windows

variable {ws ws' : Windows}

/-- One more parameter takes one more step. -/
theorem ofContext_append {param : String × String} (h : ofContext (ctx.append param) = .ok ws') :
    ∃ ws, ofContext ctx = .ok ws ∧ addParam ctx ws param = .ok ws' := by
  have hstep : addParam (ctx.append param) = addParam ctx := rfl
  unfold ofContext at h
  rw [hstep] at h
  exact foldlM_concat h

theorem ascending_ofContext (h : ofContext ctx = .ok ws) : Keyed.Ascending ws.embedded := by
  refine foldlM_invariant (P := fun ws : Windows => Keyed.Ascending ws.embedded)
    (fun ws ws' param hws hparam => ?_) Keyed.ascending_nil h
  obtain ⟨key, value⟩ := param
  unfold addParam at hparam
  dsimp only at hparam
  split at hparam
  · split at hparam
    · obtain ⟨-, -, hparam⟩ := bind_eq_ok.mp hparam
      cases hparam
      exact hws
    · obtain ⟨change, -, hparam⟩ := bind_eq_ok.mp hparam
      cases hparam
      exact Routed.ascending_alter hws
  · cases hparam
    exact hws

/-- The windows `w` and `w'` differ in no clause but `c`. -/
def AgreeBut (c : Clause) (w w' : Window) : Prop :=
  (c = .order ∨ w'.order = w.order) ∧ (c = .limit ∨ w'.limit = w.limit) ∧
    (c = .offset ∨ w'.offset = w.offset)

/-- A parameter for a clause changes no other clause. -/
theorem agreeBut_change {h : Handling} {c : Clause} {f : Window → Window}
    (hf : change h c key value = .ok f) (w : Window) : AgreeBut c w (f w) := by
  unfold change at hf
  cases c with
  | order =>
    obtain ⟨terms, -, hf⟩ := bind_eq_ok.mp hf
    cases terms <;> cases hf <;> simp [AgreeBut]
  | limit =>
    obtain ⟨n, -, hf⟩ := bind_eq_ok.mp hf
    cases n <;> cases hf <;> simp [AgreeBut]
  | offset =>
    obtain ⟨n, -, hf⟩ := bind_eq_ok.mp hf
    cases n <;> cases hf <;> simp [AgreeBut]

/-- What a parameter adds to the windows of a strict query: a clause at the place which its key
addresses, if the key is for a clause. -/
theorem addParam_strict (hs : ctx.handling = .strict) (longest : Option String)
    (h : addParam ctx ws (key, value) = .ok ws') :
    match (ParamKey.classify key).addressed? longest with
    | some (place, .clause c) =>
      ∃ f, (∀ w, AgreeBut c w (f w)) ∧ ws' = ws.alter {} place f
    | _ => ws' = ws := by
  unfold addParam at h
  dsimp only at h
  split at h
  · next path c hrole =>
    rw [hrole]
    split at h
    · rw [hs] at h
      cases h
    · obtain ⟨f, hf, h⟩ := bind_eq_ok.mp h
      cases h
      exact ⟨f, agreeBut_change hf, rfl⟩
  · next hrole =>
    cases h
    cases hclass : ParamKey.classify key with
    | clause path c => exact absurd hclass (hrole path c)
    | _ => rfl

end Windows

end RestQuery
