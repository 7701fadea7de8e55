import RestQuery.Proofs.Query.Routed
import RestQuery.Query.Windows

/-!
# Where the windows of a query belong

A window is given to the root or to an embed that is there, since the path of each clause is looked
up before its value is read.
-/

namespace RestQuery.Windows

variable {ctx : Context} {ws ws' : Windows} {param : String × String}

theorem addresses_addParam (hws : ws.Addresses fun path => ctx.hasEmbed path = true)
    (h : addParam ctx ws param = .ok ws') : ws'.Addresses fun path => ctx.hasEmbed path = true := by
  obtain ⟨key, value⟩ := param
  unfold addParam at h
  dsimp only at h
  split at h
  · split at h
    · obtain ⟨-, -, h⟩ := bind_eq_ok.mp h
      cases h
      exact hws
    · next hplace =>
      obtain ⟨change, -, h⟩ := bind_eq_ok.mp h
      cases h
      exact hws.alter (Context.hasEmbed_of_filter hplace)
  · cases h
    exact hws

/-- A window is for the root or for an embed that is there. -/
theorem addresses_ofContext (h : ofContext ctx = .ok ws) :
    ws.Addresses fun path => ctx.hasEmbed path = true :=
  foldlM_invariant (fun _ _ _ => addresses_addParam) (by simp [Routed.Addresses]) h

end RestQuery.Windows
