import RestQuery.Error
import RestQuery.Json.Members
import RestQuery.Json.Reader
import RestQuery.Text.Blank
import RestQuery.Url.Form

/-!
# Bodies

A body arrives in chunks and may break off. What is read from it depends on the bytes alone and not
on where they were cut. A body of blanks is no payload.
-/

namespace RestQuery

/-- A decoded body. -/
inductive Payload where
  /-- A JSON value. -/
  | json (value : Json)
  /-- A text that is passed on as it is. -/
  | text (s : String)
  deriving Repr, Inhabited

/-- The value of a payload. -/
def Payload.value : Payload → Json
  | .json value => value
  | .text s => .str s

namespace Http

/-- One piece of a body. -/
inductive Chunk where
  /-- Some bytes. -/
  | data (bytes : List UInt8)
  /-- The end of a body that breaks off, with the reason in words. -/
  | broken (reason : String)
  deriving DecidableEq, Repr

/-- The body of a request: none, or one that arrives in chunks. -/
abbrev Body := Option (List Chunk)

namespace Body

/-- A body that is there as a whole; no bytes are no body. -/
def ofBytes (bytes : List UInt8) : Body := if bytes.isEmpty then none else some [.data bytes]

/-- Whether there is no body. -/
def isEmpty (b : Body) : Bool := b.isNone

/-- What a body holds. -/
inductive Encoding where
  | json | form | text
  deriving DecidableEq, Repr

/-- The media type of a content type, in small letters. -/
def mediaType (contentType : String) : List Char :=
  Text.lowerAscii (Text.trim ((Text.splitAll ';' contentType.toList).headD []))

/-- What a body of a content type holds: JSON if nothing is said. -/
def encodingOf : Option String → Except Error Encoding
  | none => .ok .json
  | some contentType =>
    let media := mediaType contentType
    if media.isEmpty || media = "application/json".toList then .ok .json
    else if "application/".toList.isPrefixOf media && "+json".toList.isSuffixOf media then .ok .json
    else if media = "application/x-www-form-urlencoded".toList then .ok .form
    else if media = "text/csv".toList || media = "text/plain".toList then .ok .text
    else .error (.malformed (.contentType (.ofList media)))

/-- The bytes of the chunks after `count` bytes, as long as there are at most `limit` in all. -/
def drain (limit : Nat) (count : Nat) : List Chunk → Except Error (List UInt8)
  | [] => .ok []
  | .broken reason :: _ => .error (.body (.broken reason))
  | .data bytes :: rest =>
    if limit < count + bytes.length then .error (.body (.tooLong limit))
    else
      match drain limit (count + bytes.length) rest with
      | .error e => .error e
      | .ok more => .ok (bytes ++ more)

/-- The payload that a text holds. -/
def decodeText (encoding : Encoding) (s : List Char) : Except Error (Option Payload) :=
  if (Text.trim s).isEmpty then .ok none
  else
    match encoding with
    | .json =>
      match Json.read? s with
      | some value => .ok (some (.json value))
      | none => .error (.malformed .json)
    | .form => .ok (some (.json (Json.ofPairs (Url.decodeForm s))))
    | .text => .ok (some (.text (.ofList s)))

/-- The payload that bytes hold. -/
def decode (encoding : Encoding) (bytes : List UInt8) : Except Error (Option Payload) :=
  match Text.Utf8.decode bytes with
  | .error fault => .error (.body (.notUtf8 fault))
  | .ok s => decodeText encoding s

/-- Reads a body of at most `limit` bytes. -/
def read (limit : Nat) (contentType : Option String) : Body → Except Error (Option Payload)
  | none => .ok none
  | some chunks =>
    match encodingOf contentType with
    | .error e => .error e
    | .ok encoding =>
      match drain limit 0 chunks with
      | .error e => .error e
      | .ok bytes => decode encoding bytes

end Body

end Http

end RestQuery
