import RestQuery.Config.Basic
import RestQuery.Toml.Document

/-!
# Configuration files

A configuration is written as a TOML document. What the document does not name has its default, and
names that are not known are passed over.
-/

namespace RestQuery.Config

/-- A text. -/
def readText : Toml → Option String
  | .str s => some s
  | _ => none

/-- A list of texts. -/
def readTexts : Toml → Option (List String)
  | .arr items => items.mapM readText
  | _ => none

/-- A count. -/
def readCount : Toml → Option Nat
  | .int n => if 0 ≤ n then some n.toNat else none
  | _ => none

/-- A handling: its name, or a table with that name alone and nothing under it. -/
def readHandling : Toml → Option Handling
  | .str s => Handling.ofName? s
  | .table [(name, .table [])] | .table [(name, .arr [])] => Handling.ofName? name
  | _ => none

/-- The value of a member, or its default where there is none. -/
def member {α : Type} (members : List (String × Toml)) (name : String) (read : Toml → Option α)
    (default : α) : Option α :=
  match members.find? (·.1 = name) with
  | some m => read m.2
  | none => some default

/-- The configuration that a document stands for. -/
def ofMembers? (members : List (String × Toml)) : Option Config := do
  let base : Config := {}
  return {
    basePath := ← member members "base_path" readText base.basePath
    rpcSegment := ← member members "rpc_prefix" readText base.rpcSegment
    schemas := ← member members "schemas" readTexts base.schemas
    handling := ← member members "default_handling" readHandling base.handling
    maxEmbedDepth := ← member members "max_embed_depth" readCount base.maxEmbedDepth
    maxBodyBytes := ← member members "max_body_bytes" readCount base.maxBodyBytes }

/-- The configuration in the text of a file. -/
def ofText (s : List Char) : Except Error Config :=
  match (Toml.read? s).bind ofMembers? with
  | some c => c.validate
  | none => .error (.config .unreadable)

/-- The configuration in a file. -/
def load : File → Except Error Config
  | .error fault => .error (.config (.file fault))
  | .ok contents =>
    match Text.Utf8.decode contents with
    | .ok s => ofText s
    | .error _ => .error (.config (.file .notUtf8))

/-- The configuration in a file that need not exist; the default if it does not. -/
def loadIfExists (file : File) : Except Error Config := if file.exists then load file else .ok {}

end RestQuery.Config
