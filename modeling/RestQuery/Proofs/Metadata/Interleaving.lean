import RestQuery.Proofs.Metadata.Steps
import RestQuery.Proofs.Text.Splitting

/-!
# Preferences in another order

A preference is refused whatever the metadata are, or it writes one part of them that no preference
for another key writes. So the metadata depend on the values that are preferred for each key, in
their order, and not on how the keys are interleaved.
-/

namespace RestQuery

namespace Http.Preference

/-- The values that are preferred for a key, in order. -/
def valuesFor (key : String) (ps : List Preference) : List String :=
  (ps.filter (·.key = key)).map (·.value)

/-- Whether the same values are preferred for every key, in the same order. -/
def SameValues (ps ps' : List Preference) : Prop := ∀ key, valuesFor key ps = valuesFor key ps'

variable {ps ps' : List Preference}

theorem SameValues.symm (h : SameValues ps ps') : SameValues ps' ps := fun key => (h key).symm

theorem map_valuesFor (key : String) (ps : List Preference) :
    (valuesFor key ps).map (Preference.mk key) = ps.filter (·.key = key) := by
  unfold valuesFor
  rw [List.map_map]
  refine (List.map_congr_left fun p hp => ?_).trans (List.map_id _)
  obtain ⟨-, hkey⟩ := List.mem_filter.mp hp
  obtain rfl : p.key = key := by simpa using hkey
  rfl

theorem SameValues.filter_eq (h : SameValues ps ps') (key : String) :
    ps.filter (·.key = key) = ps'.filter (·.key = key) := by
  rw [← map_valuesFor, ← map_valuesFor, h key]

theorem valuesFor_append (key : String) (ps ps' : List Preference) :
    valuesFor key (ps ++ ps') = valuesFor key ps ++ valuesFor key ps' := by
  unfold valuesFor
  rw [List.filter_append, List.map_append]

theorem valuesFor_eq_nil {key : String} (h : ∀ p ∈ ps, p.key ≠ key) : valuesFor key ps = [] := by
  unfold valuesFor
  rw [List.map_eq_nil_iff, List.filter_eq_nil_iff]
  intro p hp
  simpa using h p hp

/-- Neighbouring preferences without a common key may change places. -/
theorem SameValues.exchange (before after : List Preference)
    (h : ∀ p ∈ ps, ∀ q ∈ ps', p.key ≠ q.key) :
    SameValues (before ++ (ps ++ (ps' ++ after))) (before ++ (ps' ++ (ps ++ after))) := by
  intro key
  have hone : valuesFor key ps = [] ∨ valuesFor key ps' = [] := by
    by_cases hkey : ∃ p ∈ ps, p.key = key
    · obtain ⟨p, hp, rfl⟩ := hkey
      exact .inr (valuesFor_eq_nil fun q hq => (h p hp q hq).symm)
    · exact .inl (valuesFor_eq_nil fun p hp he => hkey ⟨p, hp, he⟩)
  simp only [valuesFor_append]
  rcases hone with hnone | hnone
  · rw [hnone, List.nil_append, List.nil_append]
  · rw [hnone, List.nil_append, List.nil_append]

/-- The preferences of two values are those of one value with a comma between them. -/
theorem parseAll_join (a b : String) : parseAll (a ++ "," ++ b) = parseAll a ++ parseAll b := by
  have htext : (a ++ "," ++ b).toList = a.toList ++ ',' :: b.toList := by simp
  unfold parseAll
  rw [htext, Text.splitAll_append, List.map_append, List.filter_append, List.map_append]

/-- The value that counts for a key is the last of those that are preferred for it. -/
theorem preference?_eq_getLast? (n : Negotiation) (key : String) :
    n.preference? key = (valuesFor key n.preferences).getLast? := by
  unfold Negotiation.preference? valuesFor
  rw [List.getLast?_map, List.getLast?_filter]

end Http.Preference

namespace Metadata

open Http (Preference)

variable {ctx : Context} {m m' : Metadata} {key key' : String} {f g : Metadata → Metadata}

/-- Changes for different keys commute. -/
theorem Writes.comm (hf : Writes key f) (hg : Writes key' g) (hne : key ≠ key') (m : Metadata) :
    f (g m) = g (f m) := by
  cases hf <;> cases hg <;> first | rfl | exact absurd rfl hne

/-- A function that fails whatever the metadata are, or makes one change for a key. -/
def Acts (key : String) (step : Metadata → Except Error Metadata) : Prop :=
  (∃ e, ∀ m, step m = .error e) ∨ ∃ f, Writes key f ∧ ∀ m, step m = .ok (f m)

/-- A preference that may be passed over makes its change, or none in its place. -/
theorem acts_attempt_addPreference (handling : Handling) (p : Preference) :
    Acts p.key (attempt handling (addPreference p)) := by
  rcases (decided_addPreference p).attempt_cases handling with hfails | ⟨f, hf | rfl, hok⟩
  · exact .inl hfails
  · exact .inr ⟨f, hf, hok⟩
  · exact .inr ⟨id, .nothing p.key, hok⟩

/-- Of two steps for different keys either may be taken first. -/
theorem Acts.comm {step step' : Metadata → Except Error Metadata} (hstep : Acts key step)
    (hstep' : Acts key' step') (hne : key ≠ key') (h : (step m >>= step') = .ok m') :
    (step' m >>= step) = .ok m' := by
  obtain ⟨m₁, hfirst, hsecond⟩ := bind_eq_ok.mp h
  rcases hstep with ⟨e, he⟩ | ⟨f, hf, hok⟩
  · rw [he] at hfirst
    cases hfirst
  · rcases hstep' with ⟨e, he⟩ | ⟨g, hg, hok'⟩
    · rw [he] at hsecond
      cases hsecond
    · rw [hok] at hfirst
      cases hfirst
      rw [hok'] at hsecond
      cases hsecond
      rw [hok', ok_bind, hok, hf.comm hg hne]

/-- The preferences add the same to the metadata if the same values are preferred for every key. -/
theorem addPreferences_of_sameValues {ps ps' : List Preference}
    (hps : Preference.SameValues ps ps')
    (h : ps.foldlM (fun m p => attempt ctx.handling (addPreference p) m) m = .ok m') :
    ps'.foldlM (fun m p => attempt ctx.handling (addPreference p) m) m = .ok m' := by
  refine foldlM_interleave Preference.key (fun m m' p q hne hstep => ?_)
    (fun key => (hps.filter_eq key).symm) h
  exact (acts_attempt_addPreference ctx.handling p).comm (acts_attempt_addPreference _ q) hne hstep

end Metadata

end RestQuery
