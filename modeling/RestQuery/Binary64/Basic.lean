/-!
# Finite binary floating-point numbers

The finite numbers of the sixty-four bit binary format, as a sign, a significand and an exponent.
Every operation computes its exact result as a quotient of naturals and rounds it once, to the
nearest number and in a tie to the even significand. A result past the largest number is no number.
-/

namespace RestQuery

/-- The number `± significand * 2 ^ exponent`. The significand has at most fifty-three bits, and it
has exactly so many unless the exponent is the least one. -/
structure Binary64 where
  /-- Whether the number has a minus sign, which a zero may have too. -/
  negative : Bool
  /-- The bits of the number. -/
  significand : Nat
  /-- The weight of the last bit. -/
  exponent : Int
  deriving DecidableEq, Repr, Inhabited

namespace Binary64

/-- The least exponent. -/
def minExponent : Int := -1074

/-- The greatest exponent. -/
def maxExponent : Int := 971

/-- The nearest natural to `num / den`; a tie goes to the even one. -/
def roundQuotient (num den : Nat) : Nat :=
  let q := num / den
  let twice := 2 * (num % den)
  if twice < den then q else if den < twice then q + 1 else q + q % 2

/-- `num / den` in units of `2 ^ e`, again as a quotient of naturals. -/
def scaled (num den : Nat) (e : Int) : Nat × Nat :=
  if 0 ≤ e then (num, den * Nat.pow 2 e.toNat) else (num * Nat.pow 2 (-e).toNat, den)

/-- Zero. -/
def zero (negative : Bool) : Binary64 := ⟨negative, 0, minExponent⟩

/-- The exponent at which `num / den` has fifty-three bits, or the least exponent. -/
def exponentOf (num den : Nat) : Int :=
  let estimate := max ((num.log2 : Int) - den.log2 - 53) minExponent
  let (n, d) := scaled num den estimate
  if n / d < Nat.pow 2 53 then estimate else estimate + 1

/-- The number nearest to `num / den`; none if it is past the largest. -/
def ofQuotient? (negative : Bool) (num den : Nat) : Option Binary64 :=
  if num = 0 then some (zero negative)
  else
    let e := exponentOf num den
    let (n, d) := scaled num den e
    let m := roundQuotient n d
    let (m, e) := if m = Nat.pow 2 53 then (Nat.pow 2 52, e + 1) else (m, e)
    if e ≤ maxExponent then some ⟨negative, m, e⟩ else none

/-- The magnitude of a number as a quotient of naturals. -/
def magnitude (x : Binary64) : Nat × Nat :=
  if 0 ≤ x.exponent then (x.significand * Nat.pow 2 x.exponent.toNat, 1)
  else (x.significand, Nat.pow 2 (-x.exponent).toNat)

/-- The number nearest to a product. -/
def mul? (x y : Binary64) : Option Binary64 :=
  ofQuotient? (x.negative != y.negative) (x.magnitude.1 * y.magnitude.1)
    (x.magnitude.2 * y.magnitude.2)

/-- The number nearest to a quotient; none if the divisor is zero. -/
def div? (x y : Binary64) : Option Binary64 :=
  if y.significand = 0 then none
  else ofQuotient? (x.negative != y.negative) (x.magnitude.1 * y.magnitude.2)
    (x.magnitude.2 * y.magnitude.1)

/-- The number nearest to a natural. -/
def ofNat? (n : Nat) : Option Binary64 := ofQuotient? false n 1

/-- The number nearest to `10 ^ n`. -/
def pow10? (n : Nat) : Option Binary64 := ofNat? (Nat.pow 10 n)

/-- Whether a number is a zero of either sign. -/
def isZero (x : Binary64) : Bool := x.significand = 0

end Binary64

end RestQuery
