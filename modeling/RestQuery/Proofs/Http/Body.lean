import RestQuery.Http.Body
import RestQuery.Proofs.Text.Scanning
import RestQuery.Proofs.Text.Utf8

/-!
# Bodies however they are cut

A body is read chunk by chunk against a limit that is checked before each chunk is kept. Main
statement: what is read depends on the bytes that arrive before the body breaks off, and not on the
places where they are cut (`read_chunked`).
-/

namespace RestQuery.Http.Body

open Text (isBlank)
open Text.Utf8 (encode)

variable {limit count : Nat} {contentType : Option String} {encoding : Encoding} {s : List Char}
  {bytes : List UInt8} {chunks rest later : List Chunk} {pieces : List (List UInt8)}
  {reason : String}

/-! ## Draining -/

/-- The bytes that arrive before a body breaks off. -/
def received : List Chunk → List UInt8
  | [] => []
  | .broken _ :: _ => []
  | .data bytes :: rest => bytes ++ received rest

/-- The reason with which a body breaks off, if it does. -/
def breakOff? : List Chunk → Option String
  | [] => none
  | .broken reason :: _ => some reason
  | .data _ :: rest => breakOff? rest

/-- What keeps a body from being read after `count` bytes of it: that there are too many bytes in
all, and else that it breaks off. -/
def fault? (limit count : Nat) (chunks : List Chunk) : Option BodyFault :=
  if limit < count + (received chunks).length then some (.tooLong limit)
  else (breakOff? chunks).map .broken

theorem fault?_data_of_lt (h : limit < count + bytes.length) :
    fault? limit count (.data bytes :: rest) = some (.tooLong limit) := by
  have hall : limit < count + (received (.data bytes :: rest)).length := by
    simp only [received, List.length_append]
    omega
  exact if_pos hall

theorem fault?_data :
    fault? limit count (.data bytes :: rest) = fault? limit (count + bytes.length) rest := by
  unfold fault?
  simp only [received, breakOff?, List.length_append, Nat.add_assoc]

/-- The check before each chunk refuses a body exactly if there are too many bytes in all. -/
theorem drain_eq (h : count ≤ limit) :
    drain limit count chunks =
      match fault? limit count chunks with
      | some fault => .error (.body fault)
      | none => .ok (received chunks) := by
  -- On the chunks; `count` is the number of bytes before them, which the limit allows.
  induction chunks generalizing count with
  | nil =>
    have hnone : fault? limit count [] = none := if_neg (Nat.not_lt.mpr h)
    rw [hnone]
    rfl
  | cons chunk rest ih =>
    cases chunk with
    | broken reason =>
      have hbroken : fault? limit count (.broken reason :: rest) = some (.broken reason) :=
        if_neg (Nat.not_lt.mpr h)
      rw [hbroken]
      rfl
    | data bytes =>
      rw [drain]
      by_cases hfirst : limit < count + bytes.length
      · rw [if_pos hfirst, fault?_data_of_lt hfirst]
      · rw [if_neg hfirst, ih (Nat.not_lt.mp hfirst), fault?_data]
        cases fault? limit (count + bytes.length) rest with
        | some fault => rfl
        | none => rfl

/-! ## Reading -/

theorem read_eq (hencoding : encodingOf contentType = .ok encoding) :
    read limit contentType (some chunks) =
      match fault? limit 0 chunks with
      | some fault => .error (.body fault)
      | none => decode encoding (received chunks) := by
  unfold read
  rw [hencoding]
  dsimp only
  rw [drain_eq (Nat.zero_le limit)]
  cases fault? limit 0 chunks with
  | some fault => rfl
  | none => rfl

theorem received_data : received (pieces.map Chunk.data) = pieces.flatten := by
  induction pieces with
  | nil => rfl
  | cons bytes pieces ih =>
    rw [List.map_cons, received, ih, List.flatten_cons]

theorem breakOff?_data : breakOff? (pieces.map Chunk.data) = none := by
  induction pieces with
  | nil => rfl
  | cons bytes pieces ih => exact ih

theorem received_broken :
    received (pieces.map Chunk.data ++ .broken reason :: later) = pieces.flatten := by
  induction pieces with
  | nil => rfl
  | cons bytes pieces ih =>
    rw [List.map_cons, List.cons_append, received, ih, List.flatten_cons]

theorem breakOff?_broken :
    breakOff? (pieces.map Chunk.data ++ .broken reason :: later) = some reason := by
  induction pieces with
  | nil => rfl
  | cons bytes pieces ih => exact ih

/-- A body that does not break off is read as its bytes in one piece. -/
theorem read_data (hencoding : encodingOf contentType = .ok encoding) :
    read limit contentType (some (pieces.map Chunk.data)) =
      if limit < pieces.flatten.length then .error (.body (.tooLong limit))
      else decode encoding pieces.flatten := by
  rw [read_eq hencoding, fault?, received_data, breakOff?_data, Nat.zero_add]
  by_cases hlimit : limit < pieces.flatten.length
  · rw [if_pos hlimit, if_pos hlimit]
  · rw [if_neg hlimit, if_neg hlimit]
    rfl

/-- A body that breaks off is not read. -/
theorem read_broken (hencoding : encodingOf contentType = .ok encoding) :
    read limit contentType (some (pieces.map Chunk.data ++ .broken reason :: later)) =
      .error
        (.body (if limit < pieces.flatten.length then .tooLong limit else .broken reason)) := by
  rw [read_eq hencoding, fault?, received_broken, breakOff?_broken, Nat.zero_add]
  by_cases hlimit : limit < pieces.flatten.length
  · rw [if_pos hlimit, if_pos hlimit]
  · rw [if_neg hlimit, if_neg hlimit]
    rfl

/-! ## Decoding -/

theorem decode_encode (s : List Char) : decode encoding (encode s) = decodeText encoding s := by
  unfold decode
  rw [Text.Utf8.decode_eq_ok_iff.mpr rfl]

theorem exists_fault_of_decode (h : ∀ s, encode s ≠ bytes) :
    ∃ fault, decode encoding bytes = .error (.body (.notUtf8 fault)) := by
  unfold decode
  cases hbytes : Text.Utf8.decode bytes with
  | error fault => exact ⟨fault, rfl⟩
  | ok s => exact absurd (Text.Utf8.decode_eq_ok_iff.mp hbytes).symm (h s)

theorem decodeText_of_blank (h : ∀ c ∈ s, isBlank c = true) : decodeText encoding s = .ok none :=
  if_pos (Text.isEmpty_trim_iff.mpr h)

/-- However the bytes of a body are cut, it is refused if they are too many, refused if they are not
UTF-8, no payload if they are blanks, and else the payload of their text. So bodies of the same
bytes are read alike, as they would be if they came whole. A body that breaks off is never read, and
the limit comes first there too. -/
theorem read_chunked (hencoding : encodingOf contentType = .ok encoding) (limit : Nat)
    (pieces : List (List UInt8)) :
    (limit < pieces.flatten.length →
      read limit contentType (some (pieces.map Chunk.data)) = .error (.body (.tooLong limit))) ∧
    (pieces.flatten.length ≤ limit → (∀ s, encode s ≠ pieces.flatten) →
      ∃ fault, read limit contentType (some (pieces.map Chunk.data)) =
        .error (.body (.notUtf8 fault))) ∧
    (pieces.flatten.length ≤ limit → ∀ s, encode s = pieces.flatten →
      read limit contentType (some (pieces.map Chunk.data)) =
        if s.all isBlank then .ok none else decodeText encoding s) ∧
    (∀ pieces' : List (List UInt8), pieces'.flatten = pieces.flatten →
      read limit contentType (some (pieces'.map Chunk.data)) =
        read limit contentType (some (pieces.map Chunk.data))) ∧
    (pieces.flatten ≠ [] → read limit contentType (some (pieces.map Chunk.data)) =
      read limit contentType (ofBytes pieces.flatten)) ∧
    ∀ reason later,
      read limit contentType (some (pieces.map Chunk.data ++ .broken reason :: later)) =
        .error (.body
          (if limit < pieces.flatten.length then .tooLong limit else .broken reason)) := by
  refine ⟨fun hlimit => ?_, fun hlimit hbytes => ?_, fun hlimit s hs => ?_, fun pieces' hsame => ?_,
    fun hne => ?_, fun reason later => read_broken hencoding⟩
  · rw [read_data hencoding, if_pos hlimit]
  · rw [read_data hencoding, if_neg (Nat.not_lt.mpr hlimit)]
    exact exists_fault_of_decode hbytes
  · rw [read_data hencoding, if_neg (Nat.not_lt.mpr hlimit), ← hs, decode_encode]
    by_cases hblank : s.all isBlank = true
    · rw [if_pos hblank, decodeText_of_blank (List.all_eq_true.mp hblank)]
    · rw [if_neg hblank]
  · rw [read_data hencoding, read_data hencoding, hsame]
  · have hwhole : ofBytes pieces.flatten = some ([pieces.flatten].map Chunk.data) := by
      unfold ofBytes
      rw [List.isEmpty_eq_false_iff.mpr hne]
      rfl
    have hflatten : [pieces.flatten].flatten = pieces.flatten := by simp
    rw [hwhole, read_data hencoding, read_data hencoding, hflatten]

/-- A character may be cut in two, and a chunk may be empty. -/
theorem read_chunked_character :
    encodingOf (some "text/csv") = .ok .text ∧
      read 3 (some "text/csv") (some [.data [0xC3], .data [], .data [0xA9, 0x61]]) =
        .ok (some (.text "éa")) ∧
      read 2 (some "text/csv") (some [.data [0xC3], .data [], .data [0xA9, 0x61]]) =
        .error (.body (.tooLong 2)) := by
  have hencoding : encodingOf (some "text/csv") = .ok .text := rfl
  have hread := read_chunked hencoding 3 [[0xC3], [], [0xA9, 0x61]]
  have hrefused := read_chunked hencoding 2 [[0xC3], [], [0xA9, 0x61]]
  have hwhole := hread.2.2.1 (by decide) "éa".toList (by decide)
  have hletters : ¬ "éa".toList.all isBlank = true := by decide
  rw [if_neg hletters] at hwhole
  exact ⟨hencoding, hwhole, hrefused.1 (by decide)⟩

end RestQuery.Http.Body
