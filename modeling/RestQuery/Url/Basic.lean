import RestQuery.Url.Host

/-!
# URLs

A request target is a reference, resolved against the root of a web server. What counts of the
result is its path and its query, both with triples for what may not stand in them. The path of a
URL that has one in steps is brought into its shortest form: steps that mean the same level or the
level above are carried out. The path of other URLs, such as `mailto:a`, is any text.
-/

namespace RestQuery

/-- The part of a URL that a query depends on. -/
structure Url where
  /-- The path. -/
  path : List Char
  /-- The query, without its question mark. -/
  query : Option (List Char)
  deriving DecidableEq, Repr

namespace Url

/-- What a scheme means for the parts that follow it. -/
inductive SchemeKind where
  /-- A scheme of the web, which has a host. -/
  | web
  /-- The scheme of files, which may have a host. -/
  | file
  /-- Any other scheme. -/
  | other
  deriving DecidableEq, Repr

/-- The kind of a scheme in small letters. -/
def SchemeKind.ofName (name : List Char) : SchemeKind :=
  if ["http", "https", "ws", "wss", "ftp"].any fun s => s.toList = name then .web
  else if name = "file".toList then .file
  else .other

/-- Schemes that take a backslash for a slash. -/
def SchemeKind.isSpecial (k : SchemeKind) : Bool := k != .other

/-- Whether a character may stand in a scheme after its first letter. -/
def isSchemeChar (c : Char) : Bool := c.isAlphanum || c = '+' || c = '-' || c = '.'

/-- The scheme of a URL in small letters, and what follows its colon. -/
def splitScheme (s : List Char) : Option (List Char × List Char) :=
  match s with
  | c :: _ =>
    if c.isAlpha then
      match s.dropWhile isSchemeChar with
      | ':' :: rest => some (Text.lowerAscii (s.takeWhile isSchemeChar), rest)
      | _ => none
    else none
  | [] => none

/-- Whether a character separates steps of a path. -/
def isSlash (special : Bool) (c : Char) : Bool := c = '/' || (special && c = '\\')

/-- Whether a character ends a path. -/
def endsPath (c : Char) : Bool := c = '?' || c = '#'

/-! ## Paths -/

/-- Whether a step means the same level. -/
def isSingleDot (s : List Char) : Bool :=
  let s := Text.lowerAscii s
  s = ".".toList || s = "%2e".toList

/-- Whether a step means the level above. -/
def isDoubleDot (s : List Char) : Bool :=
  let s := Text.lowerAscii s
  ["..", "%2e.", ".%2e", "%2e%2e"].any fun t => t.toList = s

/-- Whether a step begins with the letter of a drive, which a colon or a bar follows. -/
def startsWithDrive : List Char → Bool
  | c :: d :: _ => c.isAlpha && (d = ':' || d = '|')
  | _ => false

/-- Whether a step is the letter of a drive. -/
def isDrive (step : List Char) : Bool := step.length = 2 && startsWithDrive step

/-- Whether a step has no level above: it is the letter of a drive, alone or before a backslash. -/
def isTopStep (step : List Char) : Bool :=
  startsWithDrive step && (step.length = 2 || step[2]? = some '\\')

/-- Whether a character breaks a line or is a tabulator. Such characters are dropped. -/
def isBreak (c : Char) : Bool := c = '\t' || c = '\n' || c = '\r'

/-- A text without its breaks. -/
def dropBreaks (s : List Char) : List Char := s.filter fun c => !isBreak c

/-- Whether a break comes between the letter of a drive with its colon and the rest of a step. -/
def isBrokenAfterDrive (step : List Char) : Bool :=
  match step.dropWhile isBreak with
  | _ :: colon => match colon.dropWhile isBreak with
    | ':' :: b :: _ => isBreak b && startsWithDrive (dropBreaks step) && !isDrive (dropBreaks step)
    | _ => false
  | [] => false

/-- A step with triples. -/
def encodeStep (step : List Char) : List Char := percentEncode isUnsafeInPath step

/-- The steps that the first step of the path of a file stands for. The letter of a drive is written
with a colon, and one with a break after it is a step of its own. -/
def firstSteps (step : List Char) : List (List Char) :=
  let text := dropBreaks step
  if isDrive text then [text.take 1 ++ [':']]
  else if isBrokenAfterDrive step then [text.take 2, encodeStep (text.drop 2)]
  else [encodeStep text]

/-- A path with one step more. The steps of a path are given from the last to the first. -/
def addStep (kind : SchemeKind) (done : List (List Char)) (step : List Char) : List (List Char) :=
  if kind = .file && done.isEmpty then (firstSteps step).reverse
  else encodeStep (dropBreaks step) :: done

/-- The path at the level above. -/
def dropStep (done : List (List Char)) : List (List Char) :=
  match done with
  | last :: before => if isTopStep last then done else before
  | [] => []

/-- Adds steps to a path, carrying out those that mean the same level or the level above. Such a
step at the end leaves the path open. -/
def walk (kind : SchemeKind) (done : List (List Char)) : List (List Char) → List (List Char)
  | [] => done
  | [step] =>
    if isDoubleDot (dropBreaks step) then [] :: dropStep done
    else if isSingleDot (dropBreaks step) then [] :: done
    else addStep kind done step
  | step :: rest =>
    if isDoubleDot (dropBreaks step) then walk kind (dropStep done) rest
    else if isSingleDot (dropBreaks step) then walk kind done rest
    else walk kind (addStep kind done step) rest

/-- The pieces of a text between slashes. -/
def splitSteps (special : Bool) : List Char → List (List Char)
  | [] => [[]]
  | c :: s =>
    if isSlash special c then [] :: splitSteps special s
    else
      match splitSteps special s with
      | [] => [[c]]
      | piece :: pieces => (c :: piece) :: pieces

/-- A path from its steps. -/
def joinSteps (steps : List (List Char)) : List Char := steps.flatMap ('/' :: ·)

/-- The path that a text after the first slash stands for. The path of a file begins with no empty
step. -/
def resolvePath (kind : SchemeKind) (s : List Char) : List Char :=
  let steps := (walk kind [] (splitSteps kind.isSpecial s)).reverse
  match kind with
  | .file =>
    match steps.dropWhile List.isEmpty with
    | [] => ['/']
    | steps => joinSteps steps
  | _ => joinSteps steps

/-- The query, if there is one, of what follows a path. -/
def readQuery (kind : SchemeKind) (s : List Char) : Option (List Char) :=
  match s with
  | '?' :: rest =>
    some (percentEncode (isUnsafeInQuery kind.isSpecial) (dropBreaks (rest.takeWhile (· != '#'))))
  | _ => none

/-- The URL with the path that `resolve` makes of the text up to the query. -/
def withPath (kind : SchemeKind) (resolve : List Char → List Char) (s : List Char) : Url :=
  ⟨resolve (s.takeWhile fun c => !endsPath c), readQuery kind (s.dropWhile fun c => !endsPath c)⟩

/-- The URL whose path begins after a slash that is already read. -/
def afterSlash (kind : SchemeKind) (s : List Char) : Url := withPath kind (resolvePath kind) s

/-- The URL without a path in steps. -/
def plainPath (s : List Char) : Url := withPath .other (percentEncode isControl) s

/-! ## Hosts and ports -/

/-- Whether a character ends the part of a URL that names a host. -/
def endsAuthority (special : Bool) (c : Char) : Bool := isSlash special c || endsPath c

/-- Cuts the name of a host off its port. A colon between brackets belongs to the name. -/
def splitPort (inBrackets : Bool) : List Char → List Char × List Char
  | [] => ([], [])
  | c :: rest =>
    if c = ':' && !inBrackets then ([], c :: rest)
    else
      let inBrackets := if c = '[' then true else if c = ']' then false else inBrackets
      let (host, port) := splitPort inBrackets rest
      (c :: host, port)

/-- Checks the part after the name of a host: nothing, or a colon and a number of sixteen bits. A
backslash ends the number; what is left from there on. -/
def readPort (s : List Char) : Except Fault (List Char) :=
  match s with
  | [] => .ok []
  | _ :: s =>
    let digits := s.takeWhile (· != '\\')
    if digits.all Char.isDigit && Text.Numeral.value digits < Nat.pow 2 16 then
      .ok (s.dropWhile (· != '\\'))
    else .error .badPort

/-- Cuts the user off the name of a host. -/
def splitUser (s : List Char) : Option (List Char) × List Char :=
  match Text.splitLast '@' s with
  | some (user, host) => (some user, host)
  | none => (none, s)

/-- Checks the part of a URL that names a host, with a user before it and a port after it; what is
left after the port. A user asks for a host; an empty user asks for one only if something
follows. -/
def readAuthority (kind : SchemeKind) (follows : Bool) (s : List Char) :
    Except Fault (List Char) :=
  let (user, rest) := splitUser s
  let (host, port) := splitPort false rest
  if host.isEmpty && (kind.isSpecial || !port.isEmpty || (user = some [] && follows)) then
    .error .emptyHost
  else
    match (if kind.isSpecial then readHost host else readPlainHost host), readPort port with
    | .error e, _ => .error e
    | _, .error e => .error e
    | .ok _, .ok left =>
      if host.isEmpty && (user.getD []) != [] && user != some [':'] then .error .emptyHost
      else .ok left

/-- The path after a host: for a scheme of the web at least a slash. -/
def afterHost (kind : SchemeKind) (s : List Char) : Url :=
  match s with
  | c :: rest =>
    if isSlash kind.isSpecial c then afterSlash kind rest
    else if kind.isSpecial || !endsPath c then afterSlash kind s
    else ⟨[], readQuery kind s⟩
  | [] => if kind.isSpecial then ⟨['/'], none⟩ else ⟨[], none⟩

/-- The URL whose host follows. -/
def authority (kind : SchemeKind) (s : List Char) : Except Fault Url :=
  let ends := endsAuthority kind.isSpecial
  let after := s.dropWhile fun c => !ends c
  match readAuthority kind (!after.isEmpty) (s.takeWhile fun c => !ends c) with
  | .error e => .error e
  | .ok left => .ok (afterHost kind (left ++ after))

/-- The URL of a file, after two slashes. A file on this host has a path with one empty step more,
and the letter of a drive is no host. -/
def fileOnHost (s : List Char) : Except Fault Url :=
  let host := dropBreaks (s.takeWhile fun c => !endsAuthority true c)
  let after := s.dropWhile fun c => !endsAuthority true c
  if isDrive host then .ok (afterSlash .file s)
  else if host.isEmpty then .ok (afterSlash .file after)
  else
    match readHost host with
    | .error e => .error e
    | .ok host => .ok (if host.isLocal then afterSlash .file after else afterHost .file after)

/-- The URL of a file, after the colon of its scheme. Its breaks are not dropped yet. -/
def fileUrl (s : List Char) : Except Fault Url :=
  match s.dropWhile isBreak with
  | c :: rest =>
    if isSlash true c then
      match rest.dropWhile isBreak with
      | d :: more => if isSlash true d then fileOnHost more else .ok (afterSlash .file rest)
      | [] => .ok (afterSlash .file [])
    else .ok (afterSlash .file s)
  | [] => .ok (afterSlash .file [])

/-! ## References -/

/-- A text without the controls and spaces at its ends. -/
def trimControls (s : List Char) : List Char :=
  let isEdge (c : Char) : Bool := c.toNat ≤ 0x20
  ((s.dropWhile isEdge).reverse.dropWhile isEdge).reverse

/-- A reference without a scheme, resolved against the root of a web server. -/
def relative (s : List Char) : Except Fault Url :=
  match s with
  | [] => .ok ⟨['/'], none⟩
  | c :: rest =>
    if isSlash true c then
      match rest with
      | d :: more =>
        if isSlash true d then
          if c = '/' && d = '/' then authority .web more
          else authority .web (more.dropWhile (isSlash true))
        else .ok (afterSlash .web rest)
      | [] => .ok (afterSlash .web rest)
    else if endsPath c then .ok ⟨['/'], readQuery .web s⟩
    else .ok (afterSlash .web s)

/-- A reference, resolved against the root of a web server that is reached by `http`. -/
def resolve (target : List Char) : Except Fault Url :=
  let raw := trimControls target
  let s := dropBreaks raw
  match splitScheme s with
  | none => relative s
  | some (scheme, rest) =>
    match SchemeKind.ofName scheme with
    | .file => fileUrl ((raw.dropWhile (· != ':')).drop 1)
    | .web =>
      let slashes := rest.takeWhile (isSlash true)
      if scheme = "http".toList && slashes.length < 2 then relative rest
      else authority .web (rest.drop slashes.length)
    | .other =>
      match rest with
      | '/' :: '/' :: more => authority .other more
      | '/' :: more => .ok (afterSlash .other more)
      | rest => .ok (plainPath rest)

/-- What follows the scheme and the two slashes of a target that names a server. The scheme is any
text of letters, digits and a few signs. -/
def afterServerScheme? (s : List Char) : Option (List Char) :=
  Text.dropStart? "://".toList (s.dropWhile fun c => isSchemeChar c || c = '~')

/-- The path and query of a target: of a URL with a server what follows the server, or `/`; of a
path or a star the whole; and `/` of any other target, which names a server alone. -/
def originForm (target : List Char) : List Char :=
  let s := target.takeWhile (· != '#')
  match s with
  | '/' :: _ | ['*'] => s
  | s =>
    match afterServerScheme? s with
    | some rest =>
      match rest.dropWhile fun c => !endsAuthority false c with
      | [] => ['/']
      | '?' :: query => '/' :: '?' :: query
      | path => path
    | none => ['/']

end Url

end RestQuery
