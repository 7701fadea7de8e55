import RestQuery.Json.Reader
import RestQuery.Operator.Basic
import RestQuery.Value.Items

/-!
# Operands

Each operator says what its operand looks like, and the operand is read into a value of that shape.
-/

namespace RestQuery.Operator

/-- Why an operand does not fit its operator. -/
inductive OperandFault where
  /-- The operator wants a list, and the operand is not written as one. -/
  | notAList (operator : Operator) (operand : List Char)
  /-- The operand is written as a list that cannot be cut into items. -/
  | badList (fault : Value.Fault)
  /-- The operand of `$is` is none of its four words. -/
  | notATruth (operand : List Char)
  deriving DecidableEq, Repr

/-- The wording of a fault. -/
def OperandFault.message : OperandFault → String
  | .notAList operator operand =>
    "operator '" ++ operator.key ++ "' expects a list like (a,b) or \x7ba,b\x7d, got '"
      ++ String.ofList operand ++ "'"
  | .badList fault => fault.message
  | .notATruth operand =>
    "operator '$is' accepts null, true, false or unknown, got '" ++ String.ofList operand ++ "'"

/-- A text as a value, without the quotes around it. -/
def readText (s : List Char) : Json := .str (.ofList (Value.unquote s).1)

/-- A scalar: a text if it is quoted, and coerced if it is bare. -/
def readScalar (s : List Char) : Json :=
  let (text, quoted) := Value.unquote s
  if quoted then .str (.ofList text) else Value.coerceScalar text

/-- The operand of a relation between collections: a JSON list or object, else a list in curly
brackets, else the text itself. -/
def readContainment (s : List Char) : Json :=
  let curly := s.head? = some '{'
  let document := if curly || s.head? = some '[' then Json.read? s else none
  match document with
  | some (.arr items) => .arr items
  | some (.obj members) => .obj members
  | _ =>
    match if curly then Value.list? s else none with
    | some (.ok items) => .arr (items.map (·.toJson))
    | _ => .str (.ofList s)

/-- A list whose items are made into values by `item`. -/
def readList (operator : Operator) (item : Value.Item → Json) (s : List Char) :
    Except OperandFault Json :=
  match Value.list? s with
  | none => .error (.notAList operator s)
  | some (.error fault) => .error (.badList fault)
  | some (.ok items) => .ok (.arr (items.map item))

/-- One of the four words of `$is`, in any case. -/
def readTriState (s : List Char) : Except OperandFault Json :=
  let word := Text.lowerAscii s
  if word = "null".toList then .ok .null
  else if word = "true".toList then .ok (.bool true)
  else if word = "false".toList then .ok (.bool false)
  else if word = "unknown".toList then .ok (.str "unknown")
  else .error (.notATruth s)

/-- A full-text query, with its configuration if it has one. -/
def readSearch (config : Option (List Char)) (s : List Char) : Json :=
  .obj (("query", readText s) :: match config with
    | some c => [("config", .str (.ofList c))]
    | none => [])

/-- The value of an operand in the shape that the operator wants. -/
def readOperand (operator : Operator) (config : Option (List Char)) (s : List Char) :
    Except OperandFault Json :=
  match operator.shape with
  | .scalar => .ok (readScalar s)
  | .list => readList operator Value.Item.toJson s
  | .patternList => readList operator (fun i => .str (.ofList (Value.likePattern i.text))) s
  | .regexList => readList operator Value.Item.toText s
  | .triState => readTriState s
  | .pattern => .ok (.str (.ofList (Value.likePattern (Value.unquote s).1)))
  | .regex => .ok (readText s)
  | .containment => .ok (readContainment s)
  | .range | .raw => .ok (.str (.ofList s))
  | .textSearch => .ok (readSearch config s)

end RestQuery.Operator
