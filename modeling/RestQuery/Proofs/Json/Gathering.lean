import Mathlib.Data.List.Induction
import Mathlib.Tactic.Common
import RestQuery.Json.Members
import RestQuery.Query.Params

/-!
# Pairs gathered into an object

Each name stands where it came first, with its only value or else with the list of its values in
order. The object can be built in place: the second value under a name turns the first one into a
list, to which all later ones are added.
-/

namespace RestQuery

/-! ## First occurrences -/

theorem nodup_eraseDups (names : List String) : names.eraseDups.Nodup := by
  cases names with
  | nil => exact List.nodup_nil
  | cons name names =>
    rw [List.eraseDups_cons]
    exact List.nodup_cons.mpr ⟨by simp, nodup_eraseDups _⟩
termination_by names.length
decreasing_by
  have hle := List.length_filter_le (fun c => !c == name) names
  simp only [List.length_cons]
  omega

namespace Params

variable {params : Params} {key name value : String}

/-- The keys, each at its first place. -/
def keys (params : Params) : List String := (params.map (·.1)).eraseDups

theorem mem_keys : key ∈ keys params ↔ ∃ value, (key, value) ∈ params := by
  simp [keys]

theorem keys_concat_of_mem (h : name ∈ keys params) :
    keys (params ++ [(name, value)]) = keys params := by
  have hname : name ∈ params.map (·.1) := List.mem_eraseDups.mp h
  have hnone : [name].removeAll (params.map (·.1)) = [] := by simp [List.removeAll, hname]
  unfold keys
  rw [List.map_append, List.map_singleton, List.eraseDups_append, hnone, List.eraseDups_nil,
    List.append_nil]

theorem keys_concat_of_not_mem (h : name ∉ keys params) :
    keys (params ++ [(name, value)]) = keys params ++ [name] := by
  have hname : name ∉ params.map (·.1) := fun hmem => h (List.mem_eraseDups.mpr hmem)
  have hsingle : [name].removeAll (params.map (·.1)) = [name] := by simp [List.removeAll, hname]
  unfold keys
  rw [List.map_append, List.map_singleton, List.eraseDups_append, hsingle]
  rfl

theorem all_concat_self : all (params ++ [(name, value)]) name = all params name ++ [value] := by
  simp [all]

theorem all_concat_of_ne (h : key ≠ name) :
    all (params ++ [(name, value)]) key = all params key := by
  simp [all, Ne.symm h]

theorem all_eq_nil_of_not_mem (h : key ∉ keys params) : all params key = [] := by
  have hnone : ∀ p ∈ params, p.1 ≠ key := by
    intro p hp hkey
    exact h (mem_keys.mpr ⟨p.2, hkey ▸ hp⟩)
  simpa [all] using hnone

theorem all_ne_nil (h : key ∈ keys params) : all params key ≠ [] := by
  obtain ⟨value, hp⟩ := mem_keys.mp h
  have hmem : value ∈ all params key := by
    unfold all
    exact List.mem_map.mpr ⟨(key, value), by simpa using hp, rfl⟩
  exact List.ne_nil_of_mem hmem

end Params

/-! ## Gathering -/

variable {pairs : List (String × String)} {found : List (String × List String)}
  {names values : List String} {name value : String} {f : String → List String}

theorem put_of_not_mem (h : name ∉ names) :
    gatherPairs.put name value (names.map fun n => (n, f n)) =
      (names.map fun n => (n, f n)) ++ [(name, [value])] := by
  induction names with
  | nil => rfl
  | cons n names ih =>
    rw [List.mem_cons, not_or] at h
    obtain ⟨hn, hnames⟩ := h
    rw [List.map_cons, gatherPairs.put, if_neg (Ne.symm hn), ih hnames, List.cons_append]

theorem put_of_mem (hnodup : names.Nodup) (h : name ∈ names) :
    gatherPairs.put name value (names.map fun n => (n, f n)) =
      names.map fun n => (n, if n = name then f n ++ [value] else f n) := by
  induction names with
  | nil => cases h
  | cons n names ih =>
    obtain ⟨hn, hnames⟩ := List.nodup_cons.mp hnodup
    rw [List.map_cons, List.map_cons, gatherPairs.put]
    by_cases hname : n = name
    · have hothers : ∀ m ∈ names, m ≠ name := fun m hm hmn => hn (hname ▸ hmn ▸ hm)
      rw [if_pos hname, if_pos hname]
      refine congrArg _ (List.map_congr_left fun m hm => ?_)
      rw [if_neg (hothers m hm)]
    · have hrest : name ∈ names := (List.mem_cons.mp h).resolve_left (Ne.symm hname)
      rw [if_neg hname, if_neg hname, ih hnames hrest]

theorem gatherPairs_concat :
    gatherPairs (pairs ++ [(name, value)]) = gatherPairs.put name value (gatherPairs pairs) := by
  unfold gatherPairs
  rw [List.foldl_append]
  rfl

/-- The names that are found are the keys, each with its values. -/
theorem gatherPairs_eq :
    gatherPairs pairs = (Params.keys pairs).map fun key => (key, Params.all pairs key) := by
  -- On the pairs from the last one on, as the run over them adds one after the other.
  induction pairs using List.reverseRecOn with
  | nil => rfl
  | append_singleton pairs p ih =>
    obtain ⟨name, value⟩ := p
    rw [gatherPairs_concat, ih]
    have hnodup : (Params.keys pairs).Nodup := nodup_eraseDups _
    by_cases hmem : name ∈ Params.keys pairs
    · rw [put_of_mem hnodup hmem, Params.keys_concat_of_mem hmem]
      refine List.map_congr_left fun key hkey => ?_
      by_cases hname : key = name
      · rw [if_pos hname, hname, Params.all_concat_self]
      · rw [if_neg hname, Params.all_concat_of_ne hname]
    · rw [put_of_not_mem hmem, Params.keys_concat_of_not_mem hmem, List.map_append,
        List.map_singleton, Params.all_concat_self, Params.all_eq_nil_of_not_mem hmem,
        List.nil_append]
      refine congrArg (· ++ _) (List.map_congr_left fun key hkey => ?_)
      have hname : key ≠ name := fun he => hmem (he ▸ hkey)
      rw [Params.all_concat_of_ne hname]

/-! ## Objects -/

namespace Json

/-- What the values of a name stand as: the only one by itself, and else all of them in a list. -/
def ofValues : List String → Json
  | [value] => .str value
  | values => .strings values

/-- The members made of pairs: one for each key, where the key came first. -/
def gathered (pairs : List (String × String)) : List (String × Json) :=
  (Params.keys pairs).map fun key => (key, ofValues (Params.all pairs key))

theorem gathered_eq_map :
    gathered pairs = (gatherPairs pairs).map fun p => (p.1, ofValues p.2) := by
  rw [gatherPairs_eq, List.map_map]
  rfl

theorem ofPairs_eq : Json.ofPairs pairs = .obj (gathered pairs) := by
  rw [gathered_eq_map]
  refine congrArg Json.obj (List.map_congr_left fun p _ => ?_)
  obtain ⟨key, values⟩ := p
  -- The cases are those of the two matches: one value, and none or more than one.
  rcases values with _ | ⟨first, _ | ⟨second, values⟩⟩
  · rfl
  · rfl
  · rfl

/-! ## Objects built in place -/

/-- One more value for a name that has one: the first becomes a list, and a list grows. -/
def join (value : String) : Json → Json
  | .arr items => .arr (items ++ [.str value])
  | first => .arr [first, .str value]

/-- Members with one more pair. -/
def addPair (name value : String) : List (String × Json) → List (String × Json)
  | [] => [(name, .str value)]
  | (n, x) :: rest =>
    if n = name then (n, join value x) :: rest else (n, x) :: addPair name value rest

theorem join_ofValues (h : values ≠ []) :
    join value (ofValues values) = ofValues (values ++ [value]) := by
  cases values with
  | nil => exact absurd rfl h
  | cons first values =>
    cases values with
    | nil => rfl
    | cons second values =>
      show Json.arr ((first :: second :: values).map Json.str ++ [.str value]) =
        .strings (first :: second :: (values ++ [value]))
      simp [strings]

theorem addPair_map (h : ∀ p ∈ found, p.2 ≠ []) :
    addPair name value (found.map fun p => (p.1, ofValues p.2)) =
      (gatherPairs.put name value found).map fun p => (p.1, ofValues p.2) := by
  induction found with
  | nil => rfl
  | cons p found ih =>
    obtain ⟨n, values⟩ := p
    obtain ⟨hvalues, hfound⟩ := List.forall_mem_cons.mp h
    rw [List.map_cons, addPair, gatherPairs.put]
    by_cases hname : n = name
    · rw [if_pos hname, if_pos hname, join_ofValues hvalues]
      rfl
    · rw [if_neg hname, if_neg hname, ih hfound]
      rfl

theorem gathered_concat :
    gathered (pairs ++ [(name, value)]) = addPair name value (gathered pairs) := by
  have hvalues : ∀ p ∈ gatherPairs pairs, p.2 ≠ [] := by
    rw [gatherPairs_eq]
    intro p hp
    obtain ⟨key, hkey, rfl⟩ := List.mem_map.mp hp
    exact Params.all_ne_nil hkey
  rw [gathered_eq_map, gathered_eq_map, gatherPairs_concat, addPair_map hvalues]

/-- Adding one pair after the other makes the same members: no value is lost, moved or put into a
list of its own. -/
theorem gathered_eq_foldl :
    gathered pairs = pairs.foldl (fun members p => addPair p.1 p.2 members) [] := by
  induction pairs using List.reverseRecOn with
  | nil => rfl
  | append_singleton pairs p ih =>
    rw [List.foldl_append, ← ih, List.foldl_cons, List.foldl_nil]
    exact gathered_concat

end Json

end RestQuery
