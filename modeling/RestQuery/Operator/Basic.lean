/-!
# Operators

The operators of a filter. Each has a key, under which it stands in the query, and all but one have
a spelling in the query string: a token, and for comparisons and patterns an optional quantifier
that lets the operator take a list. Negation is no operator; it wraps a predicate.
-/

namespace RestQuery

/-- How an operator with a list treats its items. -/
inductive Quantifier where
  /-- One item is enough. -/
  | any
  /-- Every item counts. -/
  | all
  deriving DecidableEq, Repr

/-- The quantifier as it is spelled in a query string. -/
def Quantifier.token : Quantifier → String
  | .any => "any"
  | .all => "all"

/-- The quantifier that a word spells. -/
def Quantifier.ofToken? (s : List Char) : Option Quantifier :=
  if s = "any".toList then some .any else if s = "all".toList then some .all else none

/-- What the value of an operator looks like. -/
inductive ValueShape where
  /-- One value: a number, a truth value, `null` or a text. -/
  | scalar
  /-- A list of such values. -/
  | list
  /-- A list of search patterns. -/
  | patternList
  /-- A list of regular expressions. -/
  | regexList
  /-- One of `null`, `true`, `false` and `unknown`. -/
  | triState
  /-- A search pattern. -/
  | pattern
  /-- A regular expression. -/
  | regex
  /-- A JSON list or object, a list in curly brackets, or the text of a range. -/
  | containment
  /-- The text of a range. -/
  | range
  /-- A full-text query with an optional configuration. -/
  | textSearch
  /-- Text that was not read. -/
  | raw
  deriving DecidableEq, Repr

/-- The name of a shape. -/
def ValueShape.name : ValueShape → String
  | .scalar => "scalar"
  | .list => "array"
  | .patternList => "array of patterns"
  | .regexList => "array of regexes"
  | .triState => "null|true|false|unknown"
  | .pattern => "pattern"
  | .regex => "regex"
  | .containment => "json|array|range"
  | .range => "range"
  | .textSearch => "\x7bquery, config?\x7d"
  | .raw => "string"

/-- Comparisons of two values. -/
inductive Comparison where
  | eq | neq | gt | gte | lt | lte
  deriving DecidableEq, Repr

/-- Comparisons of a text with a pattern: search patterns and regular expressions, each with a twin
that ignores case. -/
inductive Matching where
  | like | ilike | regex | iregex
  deriving DecidableEq, Repr

/-- Relations between collections. -/
inductive Containment where
  | contains | containedBy | overlaps
  deriving DecidableEq, Repr

/-- Relations between ranges. -/
inductive RangeRelation where
  | strictlyLeft | strictlyRight | notExtendRight | notExtendLeft | adjacent
  deriving DecidableEq, Repr

/-- Ways to read a full-text query. -/
inductive TextSearch where
  | normal | plain | phrase | web
  deriving DecidableEq, Repr

/-- An operator. -/
inductive Operator where
  /-- A comparison with a value, or with the items of a list. -/
  | compare (c : Comparison) (q : Option Quantifier)
  /-- Membership of a list. -/
  | member
  /-- Identity with `null`, a truth value or `unknown`. -/
  | is
  /-- Inequality that takes `null` for a value. -/
  | isDistinct
  /-- A match with a pattern, or with the items of a list. -/
  | matching (m : Matching) (q : Option Quantifier)
  /-- A relation between collections. -/
  | containment (c : Containment)
  /-- A relation between ranges. -/
  | range (r : RangeRelation)
  /-- A full-text query. -/
  | search (t : TextSearch)
  /-- The mark of a value that was kept as it was written. -/
  | raw
  deriving DecidableEq, Repr

namespace Operator

/-- The ending that a quantifier gives a key. -/
def quantifierSuffix : Option Quantifier → String
  | none => ""
  | some .any => "Any"
  | some .all => "All"

/-- The key of a comparison without its quantifier. -/
def comparisonKey : Comparison → String
  | .eq => "$eq" | .neq => "$neq" | .gt => "$gt" | .gte => "$gte" | .lt => "$lt" | .lte => "$lte"

/-- The key of a match without its quantifier. -/
def matchingKey : Matching → String
  | .like => "$like" | .ilike => "$ilike" | .regex => "$match" | .iregex => "$imatch"

/-- The key of an operator, such as `$likeAny`. -/
def key : Operator → String
  | .compare c q => comparisonKey c ++ quantifierSuffix q
  | .member => "$in"
  | .is => "$is"
  | .isDistinct => "$isDistinct"
  | .matching m q => matchingKey m ++ quantifierSuffix q
  | .containment .contains => "$contains"
  | .containment .containedBy => "$containedBy"
  | .containment .overlaps => "$overlaps"
  | .range .strictlyLeft => "$strictlyLeft"
  | .range .strictlyRight => "$strictlyRight"
  | .range .notExtendRight => "$notExtendRight"
  | .range .notExtendLeft => "$notExtendLeft"
  | .range .adjacent => "$adjacent"
  | .search .normal => "$fts"
  | .search .plain => "$plfts"
  | .search .phrase => "$phfts"
  | .search .web => "$wfts"
  | .raw => "$raw"

/-- The token that spells an operator in a query string, without its quantifier. -/
def token? : Operator → Option String
  | .compare .eq _ => some "eq"
  | .compare .neq _ => some "neq"
  | .compare .gt _ => some "gt"
  | .compare .gte _ => some "gte"
  | .compare .lt _ => some "lt"
  | .compare .lte _ => some "lte"
  | .member => some "in"
  | .is => some "is"
  | .isDistinct => some "isdistinct"
  | .matching .like _ => some "like"
  | .matching .ilike _ => some "ilike"
  | .matching .regex _ => some "match"
  | .matching .iregex _ => some "imatch"
  | .containment .contains => some "cs"
  | .containment .containedBy => some "cd"
  | .containment .overlaps => some "ov"
  | .range .strictlyLeft => some "sl"
  | .range .strictlyRight => some "sr"
  | .range .notExtendRight => some "nxr"
  | .range .notExtendLeft => some "nxl"
  | .range .adjacent => some "adj"
  | .search .normal => some "fts"
  | .search .plain => some "plfts"
  | .search .phrase => some "phfts"
  | .search .web => some "wfts"
  | .raw => none

/-- The quantifier of an operator. -/
def quantifier? : Operator → Option Quantifier
  | .compare _ q => q
  | .matching _ q => q
  | _ => none

/-- The shape of the value of an operator. -/
def shape : Operator → ValueShape
  | .compare _ none => .scalar
  | .compare _ (some _) => .list
  | .member => .list
  | .is => .triState
  | .isDistinct => .scalar
  | .matching .like none | .matching .ilike none => .pattern
  | .matching .like (some _) | .matching .ilike (some _) => .patternList
  | .matching .regex none | .matching .iregex none => .regex
  | .matching .regex (some _) | .matching .iregex (some _) => .regexList
  | .containment _ => .containment
  | .range _ => .range
  | .search _ => .textSearch
  | .raw => .raw

/-- Full-text queries take a configuration where other operators take a quantifier. -/
def takesConfig (o : Operator) : Bool := o.shape = .textSearch

/-- The operator with a quantifier, if it can have one. -/
def quantify? (q : Quantifier) : Operator → Option Operator
  | .compare c _ => some (.compare c (some q))
  | .matching m _ => some (.matching m (some q))
  | _ => none

/-- The operators that have a token and no quantifier. -/
def basic : List Operator :=
  [.compare .eq none, .compare .neq none, .compare .gt none, .compare .gte none,
   .compare .lt none, .compare .lte none, .member, .is, .isDistinct, .matching .like none,
   .matching .ilike none, .matching .regex none, .matching .iregex none, .containment .contains,
   .containment .containedBy, .containment .overlaps, .range .strictlyLeft, .range .strictlyRight,
   .range .notExtendRight, .range .notExtendLeft, .range .adjacent, .search .normal,
   .search .plain, .search .phrase, .search .web]

/-- The two quantified forms of operators. -/
def quantified (ops : List Operator) : List Operator :=
  ops.flatMap fun o => [Quantifier.any, .all].filterMap (o.quantify? ·)

/-- All operators, in the order of the catalogue. -/
def all : List Operator :=
  [.compare .eq none, .compare .neq none, .compare .gt none, .compare .gte none,
   .compare .lt none, .compare .lte none]
  ++ quantified [.compare .eq none, .compare .neq none, .compare .gt none, .compare .gte none,
    .compare .lt none, .compare .lte none]
  ++ [.member, .is, .isDistinct, .matching .like none, .matching .ilike none]
  ++ quantified [.matching .like none, .matching .ilike none]
  ++ [.matching .regex none, .matching .iregex none]
  ++ quantified [.matching .regex none, .matching .iregex none]
  ++ [.containment .contains, .containment .containedBy, .containment .overlaps,
   .range .strictlyLeft, .range .strictlyRight, .range .notExtendRight, .range .notExtendLeft,
   .range .adjacent, .search .normal, .search .plain, .search .phrase, .search .web, .raw]

/-- The operator without quantifier that a token spells. -/
def ofToken? (token : List Char) : Option Operator :=
  basic.find? fun o => o.token?.map String.toList = some token

/-- The operator that a token and an optional quantifier spell. -/
def lookup? (token : List Char) (q : Option Quantifier) : Option Operator :=
  match ofToken? token, q with
  | some o, none => some o
  | some o, some q => o.quantify? q
  | none, _ => none

/-- Whether a text is the token of an operator. -/
def isToken (token : List Char) : Bool := (ofToken? token).isSome

/-- The operator with a given key. -/
def ofKey? (key : String) : Option Operator := all.find? (·.key = key)

end Operator

end RestQuery
