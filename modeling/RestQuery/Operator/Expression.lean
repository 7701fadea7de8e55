import RestQuery.Operator.Basic
import RestQuery.Text.Scan

/-!
# Operator expressions

The value of a filter parameter: `not.` if it is negated, the token of an operator, a modifier in
round brackets if it has one, a point, and the operand. The modifier is a quantifier or, for a
full-text query, a configuration.
-/

namespace RestQuery

/-- An operator with its operand, as a query string spells them. -/
structure Expression where
  /-- Whether the expression is negated. -/
  negated : Bool
  /-- The operator. -/
  operator : Operator
  /-- The configuration of a full-text query. -/
  config : Option (List Char)
  /-- The operand, as it is written. -/
  operand : List Char
  deriving DecidableEq, Repr

namespace Expression

/-- Why a modifier does not fit. -/
inductive ModifierFault where
  /-- It is not closed. -/
  | unclosed (text : List Char)
  /-- It is not a quantifier. -/
  | unknown (modifier token : List Char)
  /-- The operator has no form with a quantifier. -/
  | unquantifiable (token : List Char)
  deriving DecidableEq, Repr

/-- Why a text is no operator expression. -/
inductive Fault where
  /-- It does not begin with the token of an operator and a point. -/
  | unknownOperator (token : List Char)
  /-- The operator is known, and does not take its modifier. -/
  | modifier (m : ModifierFault)
  deriving DecidableEq, Repr

/-- The wording of a fault of a modifier. -/
def ModifierFault.message : ModifierFault → String
  | .unclosed text => s!"unclosed modifier in '{String.ofList text}'"
  | .unknown modifier token =>
    s!"unknown modifier '({String.ofList modifier})' on '{String.ofList token}'"
  | .unquantifiable token => s!"operator '{String.ofList token}' cannot be quantified"

/-- The wording of a fault. -/
def Fault.message : Fault → String
  | .unknownOperator token => s!"unknown operator '{String.ofList token}'"
  | .modifier m => m.message

/-- Takes `not.` off the front of a text. -/
def splitNegation (s : List Char) : Bool × List Char :=
  match Text.dropStart? "not.".toList s with
  | some rest => (true, rest)
  | none => (false, s)

/-- The modifier at the front of a text, if there is a closed one, and what follows it. -/
def splitModifier : List Char → Option (List Char) × List Char
  | '(' :: s =>
    match Text.splitOnce ')' s with
    | some (m, rest) => (some m, rest)
    | none => (none, '(' :: s)
  | s => (none, s)

/-- The operator and the configuration that a token's operator and a modifier give. -/
def applyModifier (token : List Char) (base : Operator) :
    Option (List Char) → Except Fault (Operator × Option (List Char))
  | none => .ok (base, none)
  | some m =>
    if base.takesConfig then .ok (base, some m)
    else
      match Quantifier.ofToken? m with
      | none => .error (.modifier (.unknown m token))
      | some q =>
        match base.quantify? q with
        | none => .error (.modifier (.unquantifiable token))
        | some o => .ok (o, none)

/-- Reads an operator expression. -/
def parse (s : List Char) : Except Fault Expression :=
  let (negated, rest) := splitNegation s
  let token := rest.takeWhile Char.isAlpha
  if token.isEmpty then .error (.unknownOperator rest)
  else
    let (modifier, after) := splitModifier (rest.dropWhile Char.isAlpha)
    match after with
    | '(' :: _ => .error (.modifier (.unclosed rest))
    | '.' :: operand =>
      match Operator.ofToken? token with
      | none => .error (.unknownOperator token)
      | some base =>
        match applyModifier token base modifier with
        | .error e => .error e
        | .ok (operator, config) => .ok ⟨negated, operator, config, operand⟩
    | _ => .error (.unknownOperator token)

/-- Whether a text reads as an operator expression. -/
def accepts (s : List Char) : Bool := (parse s).isOk

/-- The spelling of an expression; none for an operator without a token. -/
def spell? (e : Expression) : Option (List Char) :=
  e.operator.token?.map fun token =>
    (if e.negated then "not.".toList else []) ++ token.toList
    ++ (match e.operator.quantifier?, e.config with
        | some q, _ => '(' :: q.token.toList ++ [')']
        | none, some c => '(' :: c ++ [')']
        | none, none => [])
    ++ '.' :: e.operand

end Expression

end RestQuery
