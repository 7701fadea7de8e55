import RestQuery.Select.Paths
import RestQuery.Select.Printer
import RestQuery.Error

/-!
# Reports

What the program prints for a reader: the catalog of operators, the parts of a select list, errors,
and how it is called. A report is a list of lines.
-/

namespace RestQuery.Cli

/-- The text of lines, each of which is ended. -/
def unlines (lines : List String) : String := String.join (lines.map (· ++ "\n"))

/-- The name of the program. -/
def programName : String := "pgrest-ast"

/-- The version of the program. -/
def programVersion : String := "0.3.0"

/-! ## The catalog of operators -/

/-- A text with blanks after it, so that it fills a column of the catalog. -/
def inColumn (s : String) : String := s.pushn ' ' (14 - s.length)

/-- A row of the catalog. -/
def row (key wire value : String) : String := inColumn key ++ " " ++ inColumn wire ++ " " ++ value

/-- How an operator is written in a request. -/
def wireForm (o : Operator) : String :=
  match o.token?, o.quantifier? with
  | some token, some q => token ++ "(" ++ q.token ++ ")"
  | some token, none => token
  | none, _ => "-"

/-- The catalog of operators. -/
def operatorCatalog : List String :=
  ["Operator Catalog", "", row "Key" "Wire" "Value", "".pushn '─' 56] ++
    Operator.all.map fun o => row o.key (wireForm o) o.shape.name

/-! ## Select lists -/

/-- What is said of a field apart from its name and column. -/
def fieldNotes (f : Field) : List String :=
  (if f.path.isEmpty then [] else [s!"path[{f.path.length}]"]) ++
    (f.aggregate.map Aggregate.name).toList ++ (f.cast.map ("::" ++ ·)).toList

/-- The line of a field. -/
def fieldLine (f : Field) : String :=
  f.name ++ " ← " ++ f.column.getD "count()" ++ " " ++ " ".intercalate (fieldNotes f)

/-- An entry after its mark, moved to the right by two blanks for each level. -/
def entryLine (level : Nat) (s : String) : String := "".pushn ' ' (2 * level) ++ "• " ++ s

mutual

/-- The lines of an entry; those of an embed are followed by those of its entries. -/
def entryLines (level : Nat) : SelectEntry → List String
  | .wildcard => [entryLine level "*"]
  | .column name => [entryLine level name]
  | .field f => [entryLine level (fieldLine f)]
  | .embed name spread _ entries _ =>
    entryLine level ((if spread then "..." else "") ++ name) :: entriesLines (level + 1) entries

/-- The lines of entries. -/
def entriesLines (level : Nat) : List SelectEntry → List String
  | [] => []
  | e :: rest => entryLines level e ++ entriesLines level rest

end

/-- The line of a join. -/
def joinLine (name : String) (j : Join) : String :=
  let type := match j.type with
    | .left => "Left"
    | .inner => "Inner"
  "  " ++ name ++ " → " ++ j.table ++ " " ++ type ++ ((j.hint.map (" !" ++ ·)).getD "")

/-- The lines about the joins of a select list. -/
def joinLines (joins : Joins) : List String :=
  if joins.isEmpty then [] else ["", "Joins:"] ++ joins.map fun p => joinLine p.1 p.2

/-- The lines about a select list. -/
def selectLines (s : Select) : List String :=
  ["Entries:"] ++ entriesLines 1 s.entries ++ joinLines s.joins ++
    ["", "Rendered:", "  " ++ String.ofList s.render]

/-! ## Errors and help -/

/-- The name of a kind in a report. -/
def kindName : Error.Kind → String
  | .parse => "Parse"
  | .validation => "Validation"
  | .body => "Body"
  | .config => "Config"

/-- The lines about an error. -/
def errorLines (e : Error) : List String :=
  let stage := (e.stage?.map Stage.name).getD "-"
  ["Error: " ++ e.message, s!"  kind: {kindName e.kind}  stage: {stage}  status: {e.status}"] ++
    (e.position?.map fun n => s!"  position: {n}").toList

/-- What is printed where the request is not complete. -/
def hintLines : List String :=
  [programName, "", "Usage: " ++ programName ++ " [OPTIONS] <METHOD> <TARGET>", "",
   "Try: " ++ programName ++ " --help"]

/-- What is printed where help is asked for. -/
def helpLines : List String :=
  ["Translate PostgREST-style requests into a query AST",
   "",
   "Usage: " ++ programName ++ " [OPTIONS] [METHOD] [TARGET]",
   "       " ++ programName ++ " <COMMAND>",
   "",
   "Commands:",
   "  operators  Show the operator catalog",
   "  select     Parse a select expression and show its structure",
   "  help       Print this message or the help of the given subcommand(s)",
   "",
   "Arguments:",
   "  [METHOD]  HTTP method (GET, HEAD, POST, PATCH, PUT, DELETE)",
   "  [TARGET]  Request target: path plus query string",
   "",
   "Options:",
   "  -H, --header <HEADERS>       Request header as 'Name: value' (repeatable)",
   "  -d, --data <DATA>            Request body",
   "      --data-file <DATA_FILE>  Read the request body from a file",
   "      --config <CONFIG>        Translator configuration file (TOML)",
   "      --compact                Print the AST on a single line",
   "  -v, --verbose                Verbose output",
   "  -h, --help                   Print help",
   "  -V, --version                Print version"]

end RestQuery.Cli
