import RestQuery.Proofs.Json.Gathering
import RestQuery.Proofs.Query.Appending
import RestQuery.Proofs.Text.Scanning
import RestQuery.Query.Calls

/-!
# The arguments of a call

A call that only reads has its arguments in the query string, between the filters and the clauses of
its result. Main statement: each parameter is either an argument or read for the result, and never
both (`Context.split_arguments`).
-/

namespace RestQuery

namespace Params

/-- Whether a parameter has a column for its key and no operator expression for its value. -/
def isPlain (param : String × String) : Bool :=
  (match ParamKey.classify param.1 with
    | .column _ => true
    | _ => false) && !Expression.accepts param.2.toList

/-- The parameters that are plain, in order. -/
def plain (params : Params) : Params := params.filter isPlain

/-- The parameters that are not, in order. -/
def conditions (params : Params) : Params := params.filter fun param => !isPlain param

theorem exists_column_of_isPlain {param : String × String} (h : isPlain param = true) :
    ∃ name, ParamKey.classify param.1 = .column name := by
  have hcolumn := (Bool.and_eq_true_iff.mp h).1
  split at hcolumn
  · next name hrole => exact ⟨name, hrole⟩
  · cases hcolumn

end Params

variable {ctx : Context} {param : String × String} {fs : Filters} {ws : Windows}

theorem Context.isArgument_eq (hcall : ctx.isQueryCall = true) (param : String × String) :
    ctx.isArgument param.1 param.2 = Params.isPlain param := by
  unfold isArgument
  rw [hcall, Bool.true_and]
  rfl

namespace Filters

/-- An argument adds no filter. -/
theorem addParam_of_isPlain (hcall : ctx.isQueryCall = true) (h : Params.isPlain param = true) :
    addParam ctx fs param = .ok fs := by
  have hnone : paramEntry ctx param = .ok none :=
    if_pos ((ctx.isArgument_eq hcall param).trans h)
  unfold addParam
  rw [hnone]
  rfl

theorem ofContext_conditions (hcall : ctx.isQueryCall = true) :
    ofContext (ctx.withParams ctx.params.conditions) = ofContext ctx := by
  unfold ofContext
  rw [addParam_withParams]
  refine foldlM_filter_of_skip (fun fs param hskip => ?_) ctx.params _
  exact addParam_of_isPlain hcall (by simpa using hskip)

end Filters

namespace Windows

/-- An argument adds no clause. -/
theorem addParam_of_isPlain (h : Params.isPlain param = true) :
    addParam ctx ws param = .ok ws := by
  obtain ⟨name, hrole⟩ := Params.exists_column_of_isPlain h
  unfold addParam
  dsimp only
  rw [hrole]

theorem ofContext_conditions :
    ofContext (ctx.withParams ctx.params.conditions) = ofContext ctx := by
  have hstep : addParam (ctx.withParams ctx.params.conditions) = addParam ctx := rfl
  unfold ofContext
  rw [hstep]
  refine foldlM_filter_of_skip (fun ws param hskip => ?_) ctx.params _
  exact addParam_of_isPlain (by simpa using hskip)

end Windows

theorem Call.ofContext_of_isQueryCall (hcall : ctx.isQueryCall = true) :
    Call.ofContext ctx = .ok ⟨.obj (Json.gathered ctx.params.plain), ⟨.get, .named⟩⟩ := by
  have hread : ctx.isRead = true := (Bool.and_eq_true_iff.mp hcall).2
  have hplain : (ctx.params.filter fun p => ctx.isArgument p.1 p.2) = ctx.params.plain :=
    List.filter_congr fun p _ => ctx.isArgument_eq hcall p
  unfold Call.ofContext Call.ofQuery
  rw [if_pos hread, hplain, Json.ofPairs_eq]

theorem Http.Body.decodeText_form {s : List Char} (h : ∃ c ∈ s, Text.isBlank c = false) :
    Http.Body.decodeText .form s =
      .ok (some (.json (.obj (Json.gathered (Url.decodeForm s))))) := by
  have hsome : ¬ (Text.trim s).isEmpty = true := by
    rw [Text.isEmpty_trim_iff]
    obtain ⟨c, hc, hblank⟩ := h
    exact fun hall => Bool.false_ne_true (hblank.symm.trans (hall c hc))
  unfold decodeText
  rw [if_neg hsome, ← Json.ofPairs_eq]

/-- In a call that only reads, the plain parameters are the arguments: gathered in order under their
keys, where a key with one value has that value and else the list of its values. Filters and windows
are read from the other parameters, and have the same result without the plain ones. The pairs of a
form are gathered like the arguments. The members can be made in place, one pair after the other. -/
theorem Context.split_arguments (hfunction : ctx.target.isFunction = true)
    (hread : ctx.method = .get ∨ ctx.method = .head) :
    Call.ofContext ctx = .ok ⟨.obj (Json.gathered ctx.params.plain), ⟨.get, .named⟩⟩ ∧
    Filters.ofContext ctx = Filters.ofContext (ctx.withParams ctx.params.conditions) ∧
    Windows.ofContext ctx = Windows.ofContext (ctx.withParams ctx.params.conditions) ∧
    (∀ s : List Char, (∃ c ∈ s, Text.isBlank c = false) →
      Http.Body.decodeText .form s =
        .ok (some (.json (.obj (Json.gathered (Url.decodeForm s)))))) ∧
    ∀ pairs : List (String × String), Json.ofPairs pairs = .obj (Json.gathered pairs) ∧
      Json.gathered pairs = pairs.foldl (fun members p => Json.addPair p.1 p.2 members) [] := by
  have hcall : ctx.isQueryCall = true := by
    unfold Context.isQueryCall Context.isRead Http.Method.isRead
    rcases hread with hget | hhead
    · rw [hfunction, hget]
      rfl
    · rw [hfunction, hhead]
      rfl
  exact ⟨Call.ofContext_of_isQueryCall hcall, (Filters.ofContext_conditions hcall).symm,
    Windows.ofContext_conditions.symm, fun s => Http.Body.decodeText_form,
    fun pairs => ⟨Json.ofPairs_eq, Json.gathered_eq_foldl⟩⟩

/-- A call of the function `add` with parameters in the query string. -/
def addCall (params : Params) : Context where
  method := .head
  target := .function "add"
  negotiation := {}
  params
  embeds := []
  payload := none
  handling := .strict

/-- Parameters of such a call: arguments, a filter and a clause. -/
def addParams : Params := [("x", "1"), ("y", "2"), ("x", "3"), ("z", "gt.5"), ("limit", "7")]

/-- A key that comes twice has both values in a list, at its first place. -/
theorem Context.split_arguments_twice :
    (addCall addParams).method = .head ∧
      Call.ofContext (addCall addParams) =
        .ok ⟨.obj [("x", .arr [.str "1", .str "3"]), ("y", .str "2")], ⟨.get, .named⟩⟩ ∧
      Filters.ofContext (addCall addParams) =
        Filters.ofContext (addCall [("z", "gt.5"), ("limit", "7")]) := by
  have hplain : Params.plain addParams = [("x", "1"), ("y", "2"), ("x", "3")] := by decide
  have hothers : Params.conditions addParams = [("z", "gt.5"), ("limit", "7")] := by decide
  obtain ⟨hcall, hfilters, -⟩ := @Context.split_arguments (addCall addParams) rfl (.inr rfl)
  refine ⟨rfl, hcall.trans ?_, hfilters.trans ?_⟩
  · show Except.ok (Call.mk (.obj (Json.gathered (Params.plain addParams))) _) = _
    rw [hplain]
    rfl
  · show Filters.ofContext (addCall (Params.conditions addParams)) = _
    rw [hothers]

end RestQuery
