import RestQuery.Metadata.Basic
import RestQuery.Query.Context
import RestQuery.Query.Windows

/-!
# Metadata from preferences

The handling is decided first, since all else depends on it. Then each preference, the form of the
answer and the list of columns change the metadata by a step of its own. A step that fails leaves
metadata too, and these are what a query goes on with if it passes over the failure.
-/

namespace RestQuery

/-- The handling that a request asks for, or the one of the configuration. -/
def Handling.ofNegotiation (config : Config) (n : Http.Negotiation) : Except Error Handling :=
  match n.preference? "handling" with
  | none => .ok config.handling
  | some value =>
    match Handling.ofName? (.ofList (Text.lowerAscii value.toList)) with
    | some h => .ok h
    | none => do
      config.handling.report (.handling value)
      return config.handling

namespace Metadata

/-- A step that changes the metadata. What it has changed before it fails stays changed. -/
abbrev Step := ExceptT Error (StateM Metadata) Unit

/-- The value that a word stands for among `choices`; the error says what was expected. -/
def choose {α : Type} (expected : String) (choices : List (String × α)) (p : Http.Preference) :
    Except Error α :=
  match choices.find? (·.1 = p.value) with
  | some choice => .ok choice.2
  | none => .error (.invalid (.preference p.key expected p.value))

/-- The ways to count, by their words. -/
def countModes : List (String × CountMode) :=
  [CountMode.exact, .planned, .estimated].map fun c => (c.name, c)

/-- What may be given back, by its words. -/
def returnShapes : List (String × ReturnShape) :=
  [ReturnShape.minimal, .headersOnly, .representation].map fun r => (r.name, r)

/-- The stand-ins for missing columns, by their words. -/
def missings : List (String × Missing) := [Missing.default, .null].map fun x => (x.name, x)

/-- The preferences that other parts of the query look at. -/
def otherKeys : List String := ["handling", "resolution", "params"]

/-- Adds a preference to the metadata. -/
def addPreference (p : Http.Preference) : Step :=
  match p.key with
  | "count" => do
    let c ← choose "exact, planned or estimated" countModes p
    modify fun m => { m with count := some c }
  | "return" => do
    let r ← choose "minimal, headers-only or representation" returnShapes p
    modify fun m => { m with returnShape := some r }
  | "missing" => do
    let x ← choose "default or null" missings p
    modify fun m => { m with missing := some x }
  | "tx" => do
    let b ← choose "commit or rollback" [("commit", false), ("rollback", true)] p
    modify fun m => { m with rollback := b }
  | "max-affected" =>
    match Text.Numeral.toCount? p.value.toList with
    | some n => modify fun m => { m with maxAffected := some n }
    | none => throw (.invalid (.preference p.key "a non-negative integer" p.value))
  | "timezone" =>
    if p.value.isEmpty then throw (.invalid (.preference p.key "a time zone name" p.value))
    else modify fun m => { m with timezone := some p.value }
  | key =>
    if otherKeys.contains key then pure () else throw (.invalid (.unknownPreference key))

/-! ## The form of the answer -/

/-- A media type with its parameters. -/
structure MediaRange where
  /-- The media type, in small letters. -/
  media : List Char
  /-- The parameters, their names in small letters. -/
  params : List (List Char × List Char)

/-- The parameter that a text stands for, if it has an equals sign. -/
def mediaParam? (s : List Char) : Option (List Char × List Char) :=
  (Text.splitOnce '=' s).map fun p =>
    (Text.lowerAscii (Text.trim p.1), Http.trimQuotes (Text.trim p.2))

/-- The first media type of a list that is not blank. -/
def firstMedia? (accept : List Char) : Option MediaRange :=
  match ((Text.splitAll ',' accept).map Text.trim).find? fun s => !s.isEmpty with
  | none => none
  | some first =>
    let parts := (Text.splitAll ';' first).map Text.trim
    some ⟨Text.lowerAscii (parts.headD []), parts.tail.filterMap mediaParam?⟩

/-- The media types that ask for nothing special. -/
def plainMedia : List String := ["application/json", "application/*", "*/*"]

/-- The media types that ask for a single row. -/
def objectMedia : List String :=
  ["application/vnd.pgrst.object", "application/vnd.pgrst.object+json"]

/-- The media types that ask for a list. -/
def arrayMedia : List String :=
  ["application/vnd.pgrst.array", "application/vnd.pgrst.array+json"]

/-- The media type of plans, which an ending for their form may follow. -/
def planMedia : String := "application/vnd.pgrst.plan"

/-- The form of a plan that the ending of its media type gives. -/
def planFormatOfMedia (ending : List Char) : Except Error PlanFormat :=
  if ending.isEmpty || ending = "+text".toList then .ok .text
  else if ending = "+json".toList then .ok .json
  else .error (.invalid (.planMedia (.ofList ending)))

/-- Sets an option of a plan. -/
def addPlanOption (p : Plan) (option : List Char) : Except Error Plan :=
  match String.ofList option with
  | "analyze" => .ok { p with analyze := true }
  | "verbose" => .ok { p with verbose := true }
  | "settings" => .ok { p with settings := true }
  | "buffers" => .ok { p with buffers := true }
  | "wal" => .ok { p with wal := true }
  | option => .error (.invalid (.planOption option))

/-- Adds a parameter of its media type to a plan. -/
def addPlanParam (p : Plan) (param : List Char × List Char) : Except Error Plan :=
  match String.ofList param.1 with
  | "for" => .ok { p with media := some (.ofList param.2) }
  | "format" =>
    if param.2 = "text".toList then .ok { p with format := .text }
    else if param.2 = "json".toList then .ok { p with format := .json }
    else .error (.invalid (.planFormat (.ofList param.2)))
  | "options" =>
    (((Text.splitAll '|' param.2).map Text.trim).filter fun o => !o.isEmpty).foldlM addPlanOption p
  | _ => .ok p

/-- The plan that a media type with its parameters asks for. -/
def planOf (ending : List Char) (params : List (List Char × List Char)) : Except Error Plan := do
  let format ← planFormatOfMedia ending
  params.foldlM addPlanParam { format }

/-- Adds the form of the answer to the metadata. -/
def addAccept (accept : String) : Step :=
  match firstMedia? accept.toList with
  | none => pure ()
  | some range =>
    let media := String.ofList range.media
    if plainMedia.contains media then pure ()
    else if objectMedia.contains media then modify fun m => { m with cardinality := some .one }
    else if arrayMedia.contains media then modify fun m => { m with cardinality := some .many }
    else
      match Text.dropStart? planMedia.toList range.media with
      | some ending => do
        let plan ← planOf ending range.params
        modify fun m => { m with plan := some plan }
      | none => modify fun m => { m with accept := some media }

/-! ## The whole -/

/-- The names between the commas of a list, without blanks and without empty ones. -/
def splitNames (s : String) : List String :=
  (((Text.splitAll ',' s.toList).map Text.trim).filter fun c => !c.isEmpty).map String.ofList

/-- Adds the list of columns to the metadata of an operation that takes one. -/
def addColumns (operation : Operation) (columns : String) : Step :=
  if operation.isInsertLike then modify fun m => { m with columns := some (splitNames columns) }
  else throw (.invalid (.columns operation))

/-- The metadata that a step leaves, if it succeeds or its failure is passed over. -/
def attempt (h : Handling) (step : Step) (m : Metadata) : Except Error Metadata := do
  let done := step.run m
  let _ ← h.check done.1
  return done.2

/-- The metadata that a step with a text leaves, if there is a text. -/
def attemptWith (h : Handling) (step : String → Step) :
    Option String → Metadata → Except Error Metadata
  | some s, m => attempt h (step s) m
  | none, m => .ok m

/-- Adds to the metadata of an operation all that a context asks for. -/
def addAll (ctx : Context) (operation : Operation) (m : Metadata) : Except Error Metadata := do
  let h := ctx.handling
  let m ← ctx.negotiation.preferences.foldlM (fun m p => attempt h (addPreference p) m) m
  let m ← attemptWith h addAccept ctx.negotiation.accept m
  attemptWith h (addColumns operation) (Params.last? ctx.params "columns") m

/-- The metadata of an operation. -/
def ofContext (ctx : Context) (operation : Operation) : Except Error Metadata :=
  addAll ctx operation { handling := ctx.handling, head := ctx.method = .head }

end Metadata

end RestQuery
