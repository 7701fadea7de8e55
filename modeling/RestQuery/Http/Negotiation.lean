import RestQuery.Config.Basic
import RestQuery.Http.Headers

/-!
# What the headers ask for

The schema, the preferences and the form of the answer that a request asks for. Preferences stand
with commas between them in one header or in several; of two values for one key the last counts.
-/

namespace RestQuery.Http

/-- One preference. -/
structure Preference where
  /-- What is preferred, in small letters. -/
  key : String
  /-- The value, without the quotes around it. -/
  value : String
  deriving DecidableEq, Repr

/-- A text without the quotes at its ends. -/
def trimQuotes (s : List Char) : List Char :=
  ((s.dropWhile (· = '"')).reverse.dropWhile (· = '"')).reverse

/-- The preference that a text stands for; without `=` it has an empty value. -/
def Preference.parse (s : List Char) : Preference :=
  let (key, value) := (Text.splitOnce '=' s).getD (s, [])
  ⟨.ofList (Text.lowerAscii (Text.trim key)), .ofList (trimQuotes (Text.trim value))⟩

/-- The preferences in the value of a header. -/
def Preference.parseAll (s : String) : List Preference :=
  (((Text.splitAll ',' s.toList).map Text.trim).filter fun p => !p.isEmpty).map Preference.parse

/-- What the headers of a request ask for. -/
structure Negotiation where
  /-- The schema. -/
  schema : Option String := none
  /-- The preferences, in order. -/
  preferences : List Preference := []
  /-- The form of the answer. -/
  accept : Option String := none
  deriving DecidableEq, Repr

namespace Negotiation

/-- The last value that is preferred for a key. -/
def preference? (n : Negotiation) (key : String) : Option String :=
  (n.preferences.reverse.find? (·.key = key)).map (·.value)

/-- The header that names the schema: one for requests that read, one for those that write. -/
def profileHeader (method : Method) : String :=
  if method.isRead then "accept-profile" else "content-profile"

/-- The schema of a request that names `profile` or none. -/
def resolveSchema (config : Config) (profile : Option String) : Except Error (Option String) :=
  if config.schemas.isEmpty then .ok profile
  else
    match profile with
    | none => .ok config.defaultSchema?
    | some schema =>
      if config.schemas.contains schema then .ok (some schema)
      else .error (.invalid (.schema schema config.schemas))

/-- Reads what the headers of a request ask for. -/
def ofHeaders (config : Config) (method : Method) (headers : Headers) :
    Except Error Negotiation := do
  let profile ← headers.first? (profileHeader method)
  let schema ← resolveSchema config profile
  let prefer ← headers.all "prefer"
  let accept ← headers.first? "accept"
  return { schema, preferences := prefer.flatMap Preference.parseAll, accept }

end Negotiation

end RestQuery.Http
