import RestQuery.Ast.Basic
import RestQuery.Cli.Arguments
import RestQuery.Cli.Report
import RestQuery.Config.File
import RestQuery.Json.Printer
import RestQuery.Request

/-!
# The command line

What the program prints and with which code it ends, as a function of its arguments and the files
that they name. Nothing is read or printed here.
-/

namespace RestQuery.Cli

/-- What the program leaves behind. -/
structure Outcome where
  /-- The code with which it ends: 0 for success, 1 for an error, 2 for misuse. -/
  code : Nat := 0
  /-- What it prints. -/
  output : String := ""
  /-- What it reports beside its output. -/
  report : String := ""
  deriving DecidableEq, Repr

/-- The files that a command may read. -/
structure Files where
  /-- The configuration file of the user. -/
  home : File
  /-- The file at a path. -/
  read : String → File

/-- Why a command fails. -/
inductive Failure where
  /-- The request gives no tree. -/
  | request (e : Error)
  /-- The method is no token. -/
  | method (name : String)
  /-- A header has no colon. -/
  | header (header : String)
  /-- The file of the body cannot be read. -/
  | dataFile (path : String)
  deriving DecidableEq, Repr

/-- The lines about a failure. -/
def Failure.lines : Failure → List String
  | .request e => errorLines e
  | .method name => ["Error: invalid method " ++ inQuotes name]
  | .header text => ["Error: header " ++ inQuotes text ++ " is not 'Name: value'"]
  | .dataFile path => ["Error: failed to read " ++ path]

/-- The outcome of a command that printed something before it failed. -/
def Failure.outcome (f : Failure) (output report : List String) : Outcome :=
  ⟨1, unlines output, unlines (report ++ f.lines)⟩

/-! ## Requests -/

/-- A text with the ASCII letters in upper case. -/
def upperAscii (s : String) : String := .ofList (s.toList.map Char.toUpper)

/-- The name and value of a header, cut at the first colon. -/
def splitHeader (header : String) : Except Failure (String × String) :=
  match Text.splitOnce ':' header.toList with
  | some (name, value) => .ok (.ofList (Text.trim name), .ofList (Text.trim value))
  | none => .error (.header header)

/-- The configuration that the options name, or else that of the user. -/
def readConfig (files : Files) (o : Options) : Except Error Config :=
  match o.config with
  | some path => Config.load (files.read path)
  | none => Config.loadIfExists files.home

/-- The body of a request. -/
def readData (files : Files) (o : Options) : Except Failure Http.Body :=
  match o.data, o.dataFile with
  | some s, _ => .ok (Http.Body.ofBytes (Text.Utf8.encode s.toList))
  | none, some path =>
    match files.read path with
    | .ok contents => .ok (Http.Body.ofBytes contents)
    | .error _ => .error (.dataFile path)
  | none, none => .ok none

/-- The request that the arguments describe. -/
def readRequest (files : Files) (method target : String) (o : Options) :
    Except Failure Request := do
  let name := upperAscii method
  if !Http.isToken name.toList then throw (.method method)
  let headers ← o.headers.mapM splitHeader
  let body ← readData files o
  (Request.make (.ofName name) target headers body).mapError .request

/-- The tree of the request that the arguments describe, as text. -/
def translate (files : Files) (config : Config) (method target : String) (o : Options) :
    Except Failure String := do
  let r ← readRequest files method target o
  let tree ← (r.toAst config).mapError .request
  return if o.compact then tree.toJson.compact else tree.toJson.pretty

/-! ## Commands -/

/-- The outcome of a request. The configuration is read first, and the request is printed if the
options ask for it. -/
def runRequest (files : Files) (method target : String) (o : Options) : Outcome :=
  match readConfig files o with
  | .error e => (Failure.request e).outcome [] []
  | .ok config =>
    let input := if o.verbose then ["Input: " ++ upperAscii method ++ " " ++ target] else []
    match translate files config method target o with
    | .error f => f.outcome [] input
    | .ok text => ⟨0, unlines [text], unlines input⟩

/-- The outcome of explaining a select list. It is repeated first, even if it cannot be read. -/
def runExplain (expression : String) : Outcome :=
  let heading := ["Select: " ++ expression, ""]
  let base : Config := {}
  match Select.parse base.maxEmbedDepth expression.toList with
  | .ok select => { output := unlines (heading ++ selectLines select) }
  | .error failure => (Failure.request (.select failure)).outcome heading []

/-- The outcome of a command. -/
def Command.run (files : Files) : Command → Outcome
  | .hint => { output := unlines hintLines }
  | .operators => { output := unlines operatorCatalog }
  | .explain expression => runExplain expression
  | .translate method target o => runRequest files method target o

/-- The outcome where nothing is to be done. -/
def Stop.outcome : Stop → Outcome
  | .misuse => { code := 2 }
  | .help => { output := unlines helpLines }
  | .version => { output := unlines [programName ++ " " ++ programVersion] }

/-- The paths of the files that a command names. -/
def Command.paths : Command → List String
  | .translate _ _ o => o.config.toList ++ o.dataFile.toList
  | _ => []

/-- The outcome of the program, where the environment may name the path of a configuration file. -/
def run (files : Files) (configPath : Option String) (words : List String) : Outcome :=
  match Command.ofWords configPath words with
  | .ok command => command.run files
  | .error stop => stop.outcome

end RestQuery.Cli
