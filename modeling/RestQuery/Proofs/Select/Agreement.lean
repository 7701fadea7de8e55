import Mathlib.Tactic.Common
import RestQuery.Select.Parser

/-!
# Readings by evaluation

No level of a select list that is read has clauses yet. Such lists can be compared by evaluation,
and so it can be decided what a text is read as.
-/

namespace RestQuery

namespace SelectEntry

mutual

/-- Whether two entries are the same, without clauses on any level. -/
def agrees : SelectEntry → SelectEntry → Bool
  | .wildcard, .wildcard => true
  | .column name, .column name' => name = name'
  | .field f, .field f' => f = f'
  | .embed name spread ⟨[], [], none, none, []⟩ entries joins,
    .embed name' spread' ⟨[], [], none, none, []⟩ entries' joins' =>
    name = name' && spread = spread' && agreesAll entries entries' && joins = joins'
  | _, _ => false

/-- Whether two lists of entries are the same, without clauses on any level. -/
def agreesAll : List SelectEntry → List SelectEntry → Bool
  | [], [] => true
  | e :: entries, e' :: entries' => agrees e e' && agreesAll entries entries'
  | _, _ => false

end

mutual

theorem eq_of_agrees {e e' : SelectEntry} (h : agrees e e' = true) : e = e' := by
  unfold agrees at h
  split at h
  · rfl
  · simpa using h
  · simpa using h
  · next entries _ _ _ entries' _ =>
    simp only [Bool.and_eq_true, decide_eq_true_eq] at h
    obtain ⟨⟨⟨rfl, rfl⟩, hentries⟩, rfl⟩ := h
    rw [eq_of_agreesAll hentries]
  · cases h

theorem eq_of_agreesAll {es es' : List SelectEntry} (h : agreesAll es es' = true) : es = es' := by
  unfold agreesAll at h
  split at h
  · rfl
  · obtain ⟨hfirst, hrest⟩ := Bool.and_eq_true_iff.mp h
    rw [eq_of_agrees hfirst, eq_of_agreesAll hrest]
  · cases h

end

end SelectEntry

namespace Select

/-- A text is read as a list if evaluation finds the same entries and joins. -/
theorem parse_eq_of_agrees {maxDepth : Nat} {s : List Char} {t : Select}
    (h : ((parse maxDepth s).toOption.any fun t' =>
      SelectEntry.agreesAll t'.entries t.entries && t'.joins = t.joins) = true) :
    parse maxDepth s = .ok t := by
  cases hparse : parse maxDepth s with
  | error failure =>
    rw [hparse] at h
    cases h
  | ok t' =>
    rw [hparse] at h
    obtain ⟨hentries, hjoins⟩ := Bool.and_eq_true_iff.mp h
    obtain ⟨entries, joins⟩ := t'
    rw [show entries = t.entries from SelectEntry.eq_of_agreesAll hentries,
      show joins = t.joins from of_decide_eq_true hjoins]

end Select

end RestQuery
