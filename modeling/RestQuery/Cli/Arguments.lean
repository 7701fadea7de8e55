import RestQuery.Text.Scan

/-!
# Arguments of the command line

The words after the name of the program are read from left to right: switches, settings with a
value, and up to two operands, the method and the target of a request. The first word may instead be
a command of its own. The first word that does not fit decides; asking for help or for the version
ends the reading, too.
-/

namespace RestQuery.Cli

/-- Why arguments ask for nothing to be done. -/
inductive Stop where
  /-- They are no proper use of the program. -/
  | misuse
  /-- They ask for help. -/
  | help
  /-- They ask for the version. -/
  | version
  deriving DecidableEq, Repr

/-- An option without a value. -/
inductive Switch where
  | compact | verbose | help | version
  deriving DecidableEq, Repr

/-- An option with a value. -/
inductive Setting where
  | header | data | dataFile | config
  deriving DecidableEq, Repr

/-- The option with a long name. -/
def optionNamed? (name : String) : Option (Switch ⊕ Setting) :=
  match name with
  | "compact" => some (.inl .compact)
  | "verbose" => some (.inl .verbose)
  | "help" => some (.inl .help)
  | "version" => some (.inl .version)
  | "header" => some (.inr .header)
  | "data" => some (.inr .data)
  | "data-file" => some (.inr .dataFile)
  | "config" => some (.inr .config)
  | _ => none

/-- The option with a letter. -/
def optionLettered? (letter : Char) : Option (Switch ⊕ Setting) :=
  match letter with
  | 'v' => some (.inl .verbose)
  | 'h' => some (.inl .help)
  | 'V' => some (.inl .version)
  | 'H' => some (.inr .header)
  | 'd' => some (.inr .data)
  | _ => none

/-- A word of the command line. -/
inductive Word where
  /-- Two dashes: all words after them are operands. -/
  | terminator
  /-- An option by its long name, with what stands after an equals sign. -/
  | long (name : String) (value : Option String)
  /-- Options by their letters. -/
  | letters (cs : List Char)
  /-- An operand or the value of a setting. -/
  | plain (text : String)
  deriving DecidableEq, Repr

/-- What a word is. A dash alone is an operand. -/
def Word.ofString (s : String) : Word :=
  match s.toList with
  | ['-', '-'] => .terminator
  | '-' :: '-' :: rest =>
    match Text.splitOnce '=' rest with
    | some (name, value) => .long (.ofList name) (some (.ofList value))
    | none => .long (.ofList rest) none
  | '-' :: c :: rest => .letters (c :: rest)
  | _ => .plain s

/-! ## Requests -/

/-- What the command line says about a request. -/
structure Options where
  /-- The method. -/
  method : Option String := none
  /-- The target. -/
  target : Option String := none
  /-- The headers, each with a colon between name and value. -/
  headers : List String := []
  /-- The body. -/
  data : Option String := none
  /-- The path of the file that holds the body. -/
  dataFile : Option String := none
  /-- The path of the configuration file. -/
  config : Option String := none
  /-- Whether the tree is printed on one line. -/
  compact : Bool := false
  /-- Whether the request is printed, too. -/
  verbose : Bool := false
  deriving DecidableEq, Repr

namespace Options

/-- Turns a switch on, which may be done once. -/
def turnOn (o : Options) : Switch → Except Stop Options
  | .compact => if o.compact then .error .misuse else .ok { o with compact := true }
  | .verbose => if o.verbose then .error .misuse else .ok { o with verbose := true }
  | .help => .error .help
  | .version => .error .version

/-- Gives a setting its value: a header any number of times, all else once. A path is not empty. -/
def put (o : Options) (value : String) : Setting → Except Stop Options
  | .header => .ok { o with headers := o.headers ++ [value] }
  | .data => if o.data.isSome then .error .misuse else .ok { o with data := some value }
  | .dataFile =>
    if o.dataFile.isSome || value.isEmpty then .error .misuse
    else .ok { o with dataFile := some value }
  | .config =>
    if o.config.isSome || value.isEmpty then .error .misuse
    else .ok { o with config := some value }

/-- Adds an operand. -/
def place (o : Options) (operand : String) : Except Stop Options :=
  if o.method.isNone then .ok { o with method := some operand }
  else if o.target.isNone then .ok { o with target := some operand }
  else .error .misuse

/-- Reads options by their letters. What follows the letter of a setting is its value, after an
equals sign or not; if nothing follows, the setting is given back and waits for the next word. -/
def readLetters (o : Options) : List Char → Except Stop (Options × Option Setting)
  | [] => .ok (o, none)
  | c :: rest =>
    match optionLettered? c with
    | none => .error .misuse
    | some (.inl switch) =>
      match o.turnOn switch with
      | .error stop => .error stop
      | .ok o => o.readLetters rest
    | some (.inr setting) =>
      match rest with
      | [] => .ok (o, some setting)
      | '=' :: value => (o.put (.ofList value) setting).map fun o => (o, none)
      | value => (o.put (.ofList value) setting).map fun o => (o, none)

/-- Reads an option by its long name; a setting without a value waits for the next word. -/
def readLong (o : Options) (name : String) (value : Option String) :
    Except Stop (Options × Option Setting) :=
  match optionNamed? name, value with
  | some (.inl switch), none => (o.turnOn switch).map fun o => (o, none)
  | some (.inr setting), some value => (o.put value setting).map fun o => (o, none)
  | some (.inr setting), none => .ok (o, some setting)
  | _, _ => .error .misuse

/-- Reads words, the first of which may be the value that a setting waits for. -/
def readWords (o : Options) (waiting : Option Setting) : List String → Except Stop Options
  | [] => if waiting.isSome then .error .misuse else .ok o
  | word :: rest =>
    match Word.ofString word, waiting with
    | .plain value, some setting =>
      match o.put value setting with
      | .error stop => .error stop
      | .ok o => o.readWords none rest
    | _, some _ => .error .misuse
    | .plain operand, none =>
      match o.place operand with
      | .error stop => .error stop
      | .ok o => o.readWords none rest
    | .terminator, none => rest.foldlM place o
    | .long name value, none =>
      match o.readLong name value with
      | .error stop => .error stop
      | .ok (o, waiting) => o.readWords waiting rest
    | .letters cs, none =>
      match o.readLetters cs with
      | .error stop => .error stop
      | .ok (o, waiting) => o.readWords waiting rest

/-- Options with the path of a configuration file that the environment names, unless they name one
themselves. -/
def withEnvironment (configPath : Option String) (o : Options) : Except Stop Options :=
  match o.config, configPath with
  | none, some path => o.put path .config
  | _, _ => .ok o

end Options

/-! ## Commands -/

/-- What the program is to do. -/
inductive Command where
  /-- Show how it is called, because the request is not complete. -/
  | hint
  /-- Show the catalog of operators. -/
  | operators
  /-- Explain a select list. -/
  | explain (expression : String)
  /-- Give the tree of a request. -/
  | translate (method target : String) (options : Options)
  deriving DecidableEq, Repr

/-- Reads the words after a command that has `n` operands at most and no options but that for
help. -/
def readOperands : Nat → List String → Except Stop (List String)
  | _, [] => .ok []
  | n, word :: rest =>
    match Word.ofString word with
    | .plain operand =>
      match n with
      | 0 => .error .misuse
      | n + 1 => (readOperands n rest).map (operand :: ·)
    | .terminator => if rest.length ≤ n then .ok rest else .error .misuse
    | .long "help" none | .letters ('h' :: _) => .error .help
    | _ => .error .misuse

/-- The commands that help can be asked for. -/
def commandNames : List String := ["operators", "select", "help"]

/-- What the program is to do with the options that were read. The body is given in one way. -/
def Options.toCommand (o : Options) : Except Stop Command :=
  if o.data.isSome && o.dataFile.isSome then .error .misuse
  else
    match o.method, o.target with
    | some method, some target => .ok (.translate method target o)
    | _, _ => .ok .hint

/-- What the words of the command line ask for, where the environment may name the path of a
configuration file. -/
def Command.ofWords (configPath : Option String) : List String → Except Stop Command
  | "operators" :: rest => do
    let _ ← readOperands 0 rest
    let _ ← Options.withEnvironment configPath {}
    return .operators
  | "select" :: rest => do
    match ← readOperands 1 rest with
    | [expression] =>
      let _ ← Options.withEnvironment configPath {}
      return .explain expression
    | _ => throw .misuse
  | "help" :: rest =>
    match rest with
    | [] => .error .help
    | [name] => if commandNames.contains name then .error .help else .error .misuse
    | _ => .error .misuse
  | words => do (← (← Options.readWords {} none words).withEnvironment configPath).toCommand

end RestQuery.Cli
