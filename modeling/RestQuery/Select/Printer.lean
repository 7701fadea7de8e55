import RestQuery.Select.Basic
import RestQuery.Text.Alphanumeric
import RestQuery.Text.Numeral

/-!
# Writing select lists

A select list in the form in which a query string gives it. A name that is not a plain word stands
between quotes, and so does a member name that would read as a number.
-/

namespace RestQuery.Select

/-- Whether a character may stand in a name without quotes. -/
def isNameChar (c : Char) : Bool := Text.isAlphanumeric c || c = '_' || c = '$'

/-- A name between quotes, with a backslash before each backslash and each quote. -/
def quotedName (name : List Char) : List Char :=
  '"' :: name.flatMap (fun c => if c = '"' || c = '\\' then ['\\', c] else [c]) ++ ['"']

/-- A name, between quotes if it is not a plain word. -/
def renderName (name : String) : List Char :=
  let cs := name.toList
  if !cs.isEmpty && cs.all isNameChar then cs else quotedName cs

/-- Whether a name reads as an index of sixty-four bits. -/
def readsAsIndex (name : List Char) : Bool :=
  match Text.Numeral.toInt? name with
  | some n => Text.Numeral.fitsSigned n
  | none => false

/-- One step of a path. -/
def renderKey : PathKey → List Char
  | .key name =>
    if readsAsIndex name.toList then '"' :: name.toList ++ ['"'] else renderName name
  | .index n => Text.Numeral.ofInt n

/-- The steps of a path, each after its arrow; the last arrow is double if it gives text. -/
def renderPath (asText : Bool) : List PathKey → List Char
  | [] => []
  | [k] => (if asText then "->>" else "->").toList ++ renderKey k
  | k :: rest => "->".toList ++ renderKey k ++ renderPath asText rest

/-- A cast after its mark. -/
def renderCast : Option String → List Char
  | none => []
  | some type => "::".toList ++ type.toList

/-- A field. -/
def renderField (f : Field) : List Char :=
  (if f.name = f.defaultName then [] else renderName f.name ++ [':'])
  ++ match f.column with
    | none => "count()".toList ++ renderCast f.cast
    | some column =>
      renderName column ++ renderPath f.pathAsText f.path
      ++ (match f.aggregate with
        | some a => renderCast f.preCast ++ '.' :: a.name.toList ++ "()".toList
        | none => [])
      ++ renderCast f.cast

/-- The part of an embed before its list. -/
def renderHead (name : String) (spread : Bool) (join : Join) : List Char :=
  (if spread then "...".toList else [])
  ++ (if name = join.table then [] else renderName name ++ [':'])
  ++ renderName join.table
  ++ (match join.hint with
    | some hint => '!' :: renderName hint
    | none => [])
  ++ (if join.type = .inner then "!inner".toList else [])

mutual

/-- An entry of a list whose embeds declare `joins`. -/
def renderEntry (joins : Joins) : SelectEntry → List Char
  | .wildcard => ['*']
  | .column name => renderName name
  | .field f => renderField f
  | .embed name spread _ entries nested =>
    renderHead name spread ((Keyed.find? joins name).getD { table := name })
      ++ '(' :: renderEntries nested entries ++ [')']

/-- The entries of a list whose embeds declare `joins`, with commas between them. -/
def renderEntries (joins : Joins) : List SelectEntry → List Char
  | [] => []
  | [e] => renderEntry joins e
  | e :: e' :: rest => renderEntry joins e ++ ',' :: renderEntries joins (e' :: rest)

end

/-- A select list as text. -/
def render (s : Select) : List Char := renderEntries s.joins s.entries

end RestQuery.Select
