import RestQuery.Error
import RestQuery.Http.Method
import RestQuery.Text.Blank

/-!
# Headers

The headers of a request in order, their names in small letters. A value is text without control
characters; only values in ASCII can be read.
-/

namespace RestQuery.Http

/-- The headers of a request, their names in small letters. -/
abbrev Headers := List (String × String)

namespace Headers

/-- Whether a character may stand in the value of a header. -/
def isValueChar (c : Char) : Bool := c = '\t' || (0x20 ≤ c.toNat && c.toNat != 0x7F)

/-- A header with its name in small letters. The name is a token of less than 2 ^ 16 characters. -/
def ofPair (name value : String) : Except Error (String × String) :=
  if !isToken name.toList || Nat.pow 2 16 ≤ name.length then .error (.malformed (.headerName name))
  else if !value.toList.all isValueChar then .error (.malformed (.headerValue name))
  else .ok (.ofList (Text.lowerAscii name.toList), value)

/-- The headers made of names and values. -/
def ofPairs : List (String × String) → Except Error Headers
  | [] => .ok []
  | (name, value) :: rest =>
    match ofPair name value with
    | .error e => .error e
    | .ok header =>
      match ofPairs rest with
      | .error e => .error e
      | .ok headers => .ok (header :: headers)

/-- The value of a header that is to be read. -/
def readValue (name value : String) : Except Error String :=
  if value.toList.all fun c => c = '\t' || (0x20 ≤ c.toNat && c.toNat < 0x7F) then .ok value
  else .error (.malformed (.headerNotAscii name))

/-- The values of all headers of a name, in order. -/
def all (headers : Headers) (name : String) : Except Error (List String) :=
  (headers.filter (·.1 = name)).mapM fun header => readValue name header.2

/-- The value of the first header of a name without the blanks at its ends, if anything is left. -/
def first? (headers : Headers) (name : String) : Except Error (Option String) :=
  match headers.find? (·.1 = name) with
  | none => .ok none
  | some header =>
    match readValue name header.2 with
    | .error e => .error e
    | .ok value =>
      let value := Text.trimString value
      .ok (if value.isEmpty then none else some value)

end Headers

end RestQuery.Http
