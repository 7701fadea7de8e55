import RestQuery.Proofs.Http.Body
import RestQuery.Proofs.Text.Numerals

/-!
# The status of a body that cannot be read

A body is too large if its message says that it *exceeds* a limit, and the message of a body that
breaks off ends with the reason in its own words. Main statement: which bodies are found too large
(`status_read`).
-/

namespace RestQuery

namespace Text

/-! ## Parts of a text -/

variable {part run xs ys : List Char} {c : Char}

theorem prefix_append_cons (hc : c ∉ part) : part <+: xs ++ c :: ys ↔ part <+: xs := by
  induction xs generalizing part with
  | nil =>
    cases part with
    | nil => simp
    | cons d part =>
      have hd : d ≠ c := fun h => hc (h ▸ List.mem_cons_self)
      simp [List.cons_prefix_cons, hd]
  | cons x xs ih =>
    cases part with
    | nil => simp
    | cons d part =>
      have hpart : c ∉ part := fun h => hc (List.mem_cons_of_mem d h)
      rw [List.cons_append, List.cons_prefix_cons, List.cons_prefix_cons, ih hpart]

/-- A part without `c` lies on one side of it. -/
theorem infix_append_cons (hc : c ∉ part) :
    part <:+: xs ++ c :: ys ↔ part <:+: xs ∨ part <:+: ys := by
  induction xs with
  | nil =>
    have hfront : part <+: c :: ys ↔ part <+: [] :=
      @prefix_append_cons part [] ys c hc
    rw [List.nil_append, List.infix_cons_iff, hfront, List.prefix_nil, List.infix_nil]
  | cons x xs ih =>
    have hfront : part <+: x :: (xs ++ c :: ys) ↔ part <+: x :: xs :=
      @prefix_append_cons part (x :: xs) ys c hc
    rw [List.cons_append, List.infix_cons_iff, hfront, ih, List.infix_cons_iff, or_assoc]

/-- A part lies on one side of a run of characters that it has none of. -/
theorem infix_append_run (hpart : part ≠ []) (hne : run ≠ []) (hrun : ∀ c ∈ run, c ∉ part) :
    part <:+: xs ++ (run ++ ys) ↔ part <:+: xs ∨ part <:+: ys := by
  induction run generalizing xs with
  | nil => exact absurd rfl hne
  | cons c run ih =>
    have hc : c ∉ part := hrun c List.mem_cons_self
    rw [List.cons_append, infix_append_cons hc]
    by_cases hlast : run = []
    · rw [hlast, List.nil_append]
    · have hafter := @ih [] hlast fun c hc => hrun c (List.mem_cons_of_mem _ hc)
      rw [List.nil_append] at hafter
      have hnil : ¬ part <:+: [] := fun h => hpart (List.infix_nil.mp h)
      rw [hafter, or_iff_right hnil]

end Text

variable {limit : Nat} {contentType : Option String} {encoding : Http.Body.Encoding} {e : Error}
  {bytes : List UInt8} {chunks : List Http.Chunk} {part s xs ys : List Char} {reason : String}
  {fault : Text.Utf8.Fault}

theorem Error.holds_iff : Error.holds part s = true ↔ part <:+: s := by
  induction s with
  | nil => rw [Error.holds, List.isEmpty_iff, List.infix_nil]
  | cons c s ih =>
    rw [Error.holds, Bool.or_eq_true, ih, List.isPrefixOf_iff_prefix, List.infix_cons_iff]

theorem Error.not_infix_of_holds (h : Error.holds part s = false) : ¬ part <:+: s := by
  intro hpart
  rw [Error.holds_iff.mpr hpart] at h
  cases h

/-! ## Messages -/

namespace BodyFault

/-- The word in a message that makes a body too large. -/
def excess : List Char := "exceeds".toList

/-- The word lies on one side of a number. -/
theorem excess_infix_number (n : Nat) :
    excess <:+: xs ++ (n.repr.toList ++ ys) ↔ excess <:+: xs ∨ excess <:+: ys := by
  have hletters : excess.all (fun c => !c.isDigit) = true := by decide
  have hdigits : ∀ c ∈ Text.Numeral.ofNat n, c ∉ excess := by
    intro c hc hmem
    have hletter : (!c.isDigit) = true := List.all_eq_true.mp hletters c hmem
    rw [Text.Numeral.isDigit_of_mem_ofNat hc] at hletter
    cases hletter
  rw [Nat.toList_repr]
  exact Text.infix_append_run (by decide) (Text.Numeral.ofNat_ne_nil n) hdigits

theorem excess_infix_number_end (n : Nat) :
    excess <:+: xs ++ n.repr.toList ↔ excess <:+: xs := by
  have hnil : ¬ excess <:+: [] := Error.not_infix_of_holds (by decide)
  have hend : excess <:+: xs ++ (n.repr.toList ++ []) ↔ excess <:+: xs ∨ excess <:+: [] :=
    excess_infix_number n
  rwa [List.append_nil, or_iff_left hnil] at hend

theorem excess_infix_tooLong (limit : Nat) : excess <:+: (tooLong limit).message.toList := by
  have hheading : excess <:+: "payload exceeds ".toList := Error.holds_iff.mp (by decide)
  show excess <:+: ("payload exceeds " ++ limit.repr ++ " bytes").toList
  rw [String.toList_append, String.toList_append, List.append_assoc, excess_infix_number]
  exact .inl hheading

theorem excess_infix_broken :
    excess <:+: (broken reason).message.toList ↔ excess <:+: reason.toList := by
  have hheading : "failed to read body: ".toList = "failed to read body:".toList ++ [' '] := by
    decide
  have hnone : ¬ excess <:+: "failed to read body:".toList :=
    Error.not_infix_of_holds (by decide)
  show excess <:+: ("failed to read body: " ++ reason).toList ↔ _
  rw [String.toList_append, hheading, List.append_assoc, List.singleton_append,
    Text.infix_append_cons (by decide), or_iff_right hnone]

theorem not_excess_infix_notUtf8 : ¬ excess <:+: (notUtf8 fault).message.toList := by
  cases fault with
  | invalid width index =>
    have hheading : ¬ excess <:+:
        "payload is not UTF-8: ".toList ++ "invalid utf-8 sequence of ".toList :=
      Error.not_infix_of_holds (by decide)
    have hmid : ¬ excess <:+: " bytes from index ".toList := Error.not_infix_of_holds (by decide)
    show ¬ excess <:+: ("payload is not UTF-8: " ++
      ("invalid utf-8 sequence of " ++ width.repr ++ " bytes from index " ++ index.repr)).toList
    simp only [String.toList_append]
    rw [← List.append_assoc, excess_infix_number_end, List.append_assoc, ← List.append_assoc,
      excess_infix_number]
    exact not_or.mpr ⟨hheading, hmid⟩
  | incomplete index =>
    have hheading : ¬ excess <:+: "payload is not UTF-8: ".toList ++
        "incomplete utf-8 byte sequence from index ".toList :=
      Error.not_infix_of_holds (by decide)
    show ¬ excess <:+: ("payload is not UTF-8: " ++
      ("incomplete utf-8 byte sequence from index " ++ index.repr)).toList
    simp only [String.toList_append]
    rw [← List.append_assoc, excess_infix_number_end]
    exact hheading

end BodyFault

/-! ## Statuses -/

namespace Error

theorem status_body_of_excess {cause : BodyFault}
    (h : BodyFault.excess <:+: cause.message.toList) : (Error.body cause).status = 413 :=
  if_pos (holds_iff.mpr h)

theorem status_body_of_not_excess {cause : BodyFault}
    (h : ¬ BodyFault.excess <:+: cause.message.toList) : (Error.body cause).status = 400 :=
  if_neg fun hholds => h (holds_iff.mp hholds)

end Error

namespace Http.Body

theorem status_of_decodeText (h : decodeText encoding s = .error e) : e.status = 400 := by
  unfold decodeText at h
  split at h
  · cases h
  · split at h
    · split at h
      · cases h
      · cases h
        rfl
    · cases h
    · cases h

theorem status_of_decode (h : decode encoding bytes = .error e) : e.status = 400 := by
  unfold decode at h
  split at h
  · cases h
    exact Error.status_body_of_not_excess BodyFault.not_excess_infix_notUtf8
  · exact status_of_decodeText h

/-- What makes a body too large: too many bytes before it breaks off, or a reason to break off that
speaks of something that *exceeds*. -/
def FoundTooLarge (limit : Nat) (chunks : List Chunk) : Prop :=
  limit < (received chunks).length ∨
    ∃ reason, breakOff? chunks = some reason ∧ BodyFault.excess <:+: reason.toList

theorem status_of_foundTooLarge (hencoding : encodingOf contentType = .ok encoding)
    (h : read limit contentType (some chunks) = .error e) (hlarge : FoundTooLarge limit chunks) :
    e.status = 413 := by
  rw [read_eq hencoding, fault?, Nat.zero_add] at h
  by_cases hlimit : limit < (received chunks).length
  · rw [if_pos hlimit] at h
    cases h
    exact Error.status_body_of_excess (BodyFault.excess_infix_tooLong limit)
  · rcases hlarge with hmore | ⟨reason, hend, hreason⟩
    · exact absurd hmore hlimit
    · rw [if_neg hlimit, hend] at h
      cases h
      exact Error.status_body_of_excess (BodyFault.excess_infix_broken.mpr hreason)

theorem status_of_not_foundTooLarge (hencoding : encodingOf contentType = .ok encoding)
    (h : read limit contentType (some chunks) = .error e) (hlarge : ¬ FoundTooLarge limit chunks) :
    e.status = 400 := by
  obtain ⟨hlimit, hreason⟩ := not_or.mp hlarge
  rw [read_eq hencoding, fault?, Nat.zero_add, if_neg hlimit] at h
  cases hend : breakOff? chunks with
  | none =>
    rw [hend] at h
    exact status_of_decode h
  | some reason =>
    rw [hend] at h
    cases h
    have hnone : ¬ BodyFault.excess <:+: reason.toList := fun hword => hreason ⟨reason, hend, hword⟩
    exact Error.status_body_of_not_excess fun hword =>
      hnone (BodyFault.excess_infix_broken.mp hword)

/-- A body whose content type is known and that cannot be read is found too large if there are too
many bytes before it breaks off, and also if the reason with which it breaks off speaks of something
that *exceeds*; the status is 400 else. So the status says that there are too many bytes, except
where few bytes are followed by such a reason. -/
theorem status_read (hencoding : encodingOf contentType = .ok encoding)
    (h : read limit contentType (some chunks) = .error e) :
    (e.status = 413 ↔ FoundTooLarge limit chunks) ∧ (e.status ≠ 413 → e.status = 400) ∧
    ((e.status = 413 ↔ limit < (received chunks).length) ↔
      ∀ reason, breakOff? chunks = some reason → BodyFault.excess <:+: reason.toList →
        limit < (received chunks).length) := by
  have hiff : e.status = 413 ↔ FoundTooLarge limit chunks := by
    by_cases hlarge : FoundTooLarge limit chunks
    · exact iff_of_true (status_of_foundTooLarge hencoding h hlarge) hlarge
    · have hstatus := status_of_not_foundTooLarge hencoding h hlarge
      exact iff_of_false (by omega) hlarge
  refine ⟨hiff, fun hstatus => ?_, ?_⟩
  · exact status_of_not_foundTooLarge hencoding h fun hlarge => hstatus (hiff.mpr hlarge)
  · rw [hiff]
    constructor
    · intro hlarge reason hend hreason
      exact hlarge.mp (.inr ⟨reason, hend, hreason⟩)
    · intro hreasons
      constructor
      · intro hlarge
        rcases hlarge with hlimit | ⟨reason, hend, hreason⟩
        · exact hlimit
        · exact hreasons reason hend hreason
      · exact .inl

/-- Two bytes are too many for a limit of one, and then the reason does not count. -/
theorem status_read_limit :
    encodingOf none = .ok .json ∧
      read 1 none (some [.data [0x5B, 0x5D], .broken "connection reset"]) =
        .error (.body (.tooLong 1)) ∧
      (Error.body (.tooLong 1)).status = 413 ∧
      1 < (received [.data [0x5B, 0x5D], .broken "connection reset"]).length := by
  have hread : read 1 none (some [.data [0x5B, 0x5D], .broken "connection reset"]) =
      .error (.body (.tooLong 1)) := rfl
  have hlimit : 1 < (received [.data [0x5B, 0x5D], .broken "connection reset"]).length := by decide
  exact ⟨rfl, hread, (status_read rfl hread).1.mpr (.inl hlimit), hlimit⟩

/-- A body that breaks off before its first byte is too large for its reason's sake. -/
theorem status_read_reason :
    read 10485760 none (some [.broken "connection exceeds deadline"]) =
        .error (.body (.broken "connection exceeds deadline")) ∧
      (Error.body (.broken "connection exceeds deadline")).status = 413 ∧
      ¬ 10485760 < (received [.broken "connection exceeds deadline"]).length := by
  refine ⟨rfl, ?_, by decide⟩
  have hreason : Error.holds BodyFault.excess "connection exceeds deadline".toList = true := by
    decide
  exact Error.status_body_of_excess
    (BodyFault.excess_infix_broken.mpr (Error.holds_iff.mp hreason))

end Http.Body

end RestQuery
