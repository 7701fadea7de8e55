import RestQuery.Binary64.Basic
import RestQuery.Text.Numeral

/-!
# The fewest digits that read back

A decimal reads back to a number if it lies in the interval of reals that round to the number: from
half way to the neighbour below to half way to the neighbour above, both ends included exactly when
the significand is even. Of the decimals that read back, those with the fewest digits are chosen,
and of these the nearest. For each count of digits only the two points of that decimal grid next to
the number need a look, since a grid has a point in the interval only if it has one next to the
number. All comparisons are between products of naturals.
-/

namespace RestQuery.Binary64

/-- A positive decimal `digits * 10 ^ exponent`. -/
structure Decimal where
  /-- The digits, as a number. -/
  digits : Nat
  /-- The weight of the last digit. -/
  exponent : Int
  deriving DecidableEq, Repr

/-- A power of ten or of two as a quotient of naturals. -/
def powQuotient (base : Nat) (e : Int) : Nat × Nat :=
  if 0 ≤ e then (base.pow e.toNat, 1) else (1, base.pow (-e).toNat)

/-- The interval of a positive number, in quarters of the weight of its last bit. -/
structure Interval where
  /-- The lower end. -/
  low : Nat
  /-- The number itself. -/
  mid : Nat
  /-- The upper end. -/
  high : Nat
  /-- Whether the ends belong to it. -/
  closed : Bool

/-- The reals that round to a positive number. The gap below a power of two is half as wide. -/
def interval (x : Binary64) : Interval :=
  let narrow := x.significand = Nat.pow 2 52 && minExponent < x.exponent
  let m := 4 * x.significand
  ⟨if narrow then m - 1 else m - 2, m, m + 2, x.significand % 2 = 0⟩

/-- Whether `d * 10 ^ t` lies in the interval of `x`. -/
def readsBack (x : Binary64) (d : Nat) (t : Int) : Bool :=
  let i := x.interval
  let (p, q) := powQuotient 10 t
  let (a, b) := powQuotient 2 (x.exponent - 2)
  let point := d * p * b
  let low := i.low * a * q
  let high := i.high * a * q
  if i.closed then low ≤ point && point ≤ high else low < point && point < high

/-- Whether a positive number is at least `10 ^ t`. -/
def reaches (x : Binary64) (t : Int) : Bool :=
  let (p, q) := powQuotient 10 t
  let (n, d) := x.magnitude
  p * d ≤ n * q

/-- The least `k` with `x < 10 ^ k`, found from below in at most `fuel` steps. -/
def scaleFrom (x : Binary64) : Nat → Int → Int
  | 0, k => k
  | fuel + 1, k => if x.reaches k then scaleFrom x fuel (k + 1) else k

/-- The least `k` with `x < 10 ^ k`, for a positive number. -/
def scale (x : Binary64) : Int :=
  let log2 := (x.significand.log2 : Int) + x.exponent
  x.scaleFrom 8 (log2 * 30103 / 100000 - 2)

/-- The decimal on the grid of `10 ^ t` that reads back to `x`, if there is one. Of two the nearer
is taken, and in a tie the one with the even last digit. -/
def onGrid? (x : Binary64) (t : Int) : Option Decimal :=
  let (p, q) := powQuotient 10 t
  let (n, d) := x.magnitude
  let below := n * q / (d * p)
  let twice := 2 * (n * q % (d * p))
  match readsBack x below t && below != 0, readsBack x (below + 1) t with
  | false, false => none
  | true, false => some ⟨below, t⟩
  | false, true => some ⟨below + 1, t⟩
  | true, true =>
    if twice < d * p || (twice = d * p && below % 2 = 0) then some ⟨below, t⟩
    else some ⟨below + 1, t⟩

/-- A decimal without zeros at its end, dropped in at most `fuel` steps. -/
def Decimal.strip : Nat → Decimal → Decimal
  | 0, d => d
  | fuel + 1, d =>
    if d.digits % 10 = 0 && d.digits != 0 then strip fuel ⟨d.digits / 10, d.exponent + 1⟩ else d

/-- The exact decimal of a positive number. -/
def exactDecimal (x : Binary64) : Decimal :=
  if 0 ≤ x.exponent then ⟨x.significand * Nat.pow 2 x.exponent.toNat, 0⟩
  else ⟨x.significand * Nat.pow 5 (-x.exponent).toNat, x.exponent⟩

/-- The decimal with the fewest digits that reads back to a positive number. -/
def shortest (x : Binary64) : Decimal :=
  let k := x.scale
  match (List.range 17).findSome? fun (n : Nat) => x.onGrid? (k - (n + 1)) with
  | some d => d.strip 20
  | none => x.exactDecimal

/-! ## Layout -/

/-- How a number is laid out. -/
structure Layout where
  /-- The least exponent of the first digit that is written positionally. -/
  positionalFrom : Int
  /-- The first exponent past those that are written positionally. -/
  positionalBelow : Int

/-- A decimal in positional notation: a point always, with a zero on an empty side of it. -/
def Decimal.positional (d : Decimal) : List Char :=
  let ds := Text.Numeral.ofNat d.digits
  if 0 ≤ d.exponent then ds ++ List.replicate d.exponent.toNat '0' ++ ".0".toList
  else
    let places := (-d.exponent).toNat
    if places < ds.length then
      ds.take (ds.length - places) ++ '.' :: ds.drop (ds.length - places)
    else "0.".toList ++ List.replicate (places - ds.length) '0' ++ ds

/-- A decimal in scientific notation: one digit before the point, and the exponent with its sign. -/
def Decimal.scientific (d : Decimal) : List Char :=
  let ds := Text.Numeral.ofNat d.digits
  let e := d.exponent + ds.length - 1
  let mark := if 0 ≤ e then '+' :: Text.Numeral.ofInt e else Text.Numeral.ofInt e
  match ds with
  | [] => []
  | [c] => c :: 'e' :: mark
  | c :: more => c :: '.' :: more ++ 'e' :: mark

/-- A number in its shortest form, laid out as `layout` says. -/
def render (layout : Layout) (x : Binary64) : List Char :=
  let body :=
    if x.isZero then "0.0".toList
    else
      let d := x.shortest
      let e := d.exponent + (Text.Numeral.ofNat d.digits).length - 1
      if layout.positionalFrom ≤ e && e < layout.positionalBelow then d.positional else d.scientific
  if x.negative then '-' :: body else body

end RestQuery.Binary64
