/-!
# Finite binary64 numbers

A double is a sign, a significand and a power of two.  Every operation
rounds an exact quotient of natural numbers, so that reading a literal,
dividing two doubles and comparing a double with an integer share one
rounding function, `Double.ofRatio?`.

Infinities and NaN are no values here: an operation that would overflow
answers `none`.
-/

namespace ApiContract

/-- The number `significand * 2 ^ exponent`, negated if `negative`.  The
rounding functions below answer the canonical form: a significand below
`2 ^ 53`, and either `2 ^ 52` at least or the least exponent `-1074`. -/
structure Double where
  negative : Bool
  significand : Nat
  exponent : Int
deriving DecidableEq, Inhabited, Repr

namespace Double

/-- Zero, which has a sign. -/
def zero (negative : Bool) : Double := ⟨negative, 0, -1074⟩

/-- The magnitude is `numerator / denominator`. -/
def numerator (d : Double) : Nat := d.significand * Nat.pow 2 d.exponent.toNat

/-- The magnitude is `numerator / denominator`. -/
def denominator (d : Double) : Nat := Nat.pow 2 (-d.exponent).toNat

/-- The numerator with the sign of the number. -/
def signedNumerator (d : Double) : Int :=
  if d.negative then -(d.numerator : Int) else d.numerator

/-- The least power of two that is not above a positive quotient, as an
exponent. -/
def floorLog2 (numerator denominator : Nat) : Int :=
  let guess : Int := (numerator.log2 : Int) - (denominator.log2 : Int)
  if denominator * Nat.pow 2 guess.toNat ≤ numerator * Nat.pow 2 (-guess).toNat then guess else guess - 1

/-- A quotient rounded to the nearest integer.  A half goes to the even
neighbour. -/
def roundHalfEven (numerator denominator : Nat) : Nat :=
  let quotient := numerator / denominator
  let rest := 2 * (numerator % denominator)
  if rest < denominator ∨ (rest = denominator ∧ quotient % 2 = 0) then quotient else quotient + 1

/-- The double nearest to `numerator / denominator`, or `none` when the
quotient is too large for any. -/
def ofRatio? (negative : Bool) (numerator denominator : Nat) : Option Double :=
  if numerator = 0 then some (zero negative)
  else
    let exponent := max (floorLog2 numerator denominator - 52) (-1074)
    let significand :=
      roundHalfEven (numerator * Nat.pow 2 (-exponent).toNat) (denominator * Nat.pow 2 exponent.toNat)
    let rounded : Double :=
      if significand = Nat.pow 2 53 then ⟨negative, Nat.pow 2 52, exponent + 1⟩
      else ⟨negative, significand, exponent⟩
    if 971 < rounded.exponent then none else some rounded

/-- The double nearest to an integer. -/
def ofInt? (n : Int) : Option Double := ofRatio? (n < 0) n.natAbs 1

/-- The double nearest to `digits * 10 ^ exponent`.  Exponents far outside
the range of doubles are decided without computing the power. -/
def ofDecimal? (negative : Bool) (digits : Nat) (exponent : Int) : Option Double :=
  let magnitude : Int := (digits.log2 : Int) / 4 + exponent
  if digits = 0 then some (zero negative)
  else if 400 < magnitude then none
  else if exponent + (digits.log2 : Int) < -400 then some (zero negative)
  else ofRatio? negative (digits * Nat.pow 10 exponent.toNat) (Nat.pow 10 (-exponent).toNat)

/-- The rounded product. -/
def mul? (a b : Double) : Option Double :=
  ofRatio? (a.negative != b.negative) (a.numerator * b.numerator) (a.denominator * b.denominator)

/-- The rounded quotient of `a` and a `b` that is not zero. -/
def div? (a b : Double) : Option Double :=
  ofRatio? (a.negative != b.negative) (a.numerator * b.denominator) (a.denominator * b.numerator)

/-- Whether the number has no fractional part. -/
def isIntegral (d : Double) : Bool := d.numerator % d.denominator = 0

/-- The integer part, the fractional part being dropped. -/
def truncate (d : Double) : Int :=
  let magnitude : Int := (d.numerator / d.denominator : Nat)
  if d.negative then -magnitude else magnitude

/-! ## Shortest digits -/

/-- The exponent of the leading decimal digit of a positive quotient. -/
def leadingExponent (numerator denominator : Nat) : Int :=
  let guess : Int :=
    ((Nat.toDigits 10 numerator).length : Int) - ((Nat.toDigits 10 denominator).length : Int)
  if denominator * Nat.pow 10 guess.toNat ≤ numerator * Nat.pow 10 (-guess).toNat then guess else guess - 1

/-- The decimal neighbours of the magnitude on the grid of multiples of
`10 ^ unit`, those of them that read back as `d`, the nearest first. -/
def readingBack (d : Double) (unit : Int) : List Nat :=
  let top := d.numerator * Nat.pow 10 (-unit).toNat
  let bottom := d.denominator * Nat.pow 10 unit.toNat
  let low := top / bottom
  let rest := 2 * (top % bottom)
  let lowFirst := rest < bottom ∨ (rest = bottom ∧ low % 2 = 0)
  let neighbours := if lowFirst then [low, low + 1] else [low + 1, low]
  neighbours.filter fun digits => ofDecimal? d.negative digits unit = some d

/-- The first grid, from coarse to fine, on which a neighbour reads back. -/
def firstReadingBack (d : Double) (unit : Int) : Nat → Nat × Int
  | 0 => (d.readingBack unit |>.headD 0, unit)
  | finer + 1 =>
    match d.readingBack unit with
    | digits :: _ => (digits, unit)
    | [] => firstReadingBack d (unit - 1) finer

/-- The same decimal without trailing zeros, as far as the bound allows. -/
def dropTrailingZeros (digits : Nat) (exponent : Int) : Nat → Nat × Int
  | 0 => (digits, exponent)
  | bound + 1 =>
    if digits ≠ 0 ∧ digits % 10 = 0 then dropTrailingZeros (digits / 10) (exponent + 1) bound
    else (digits, exponent)

/-- Digits and exponent of the shortest decimal that reads back as `d`, of
those the nearest to it.  Seventeen digits always suffice. -/
def shortest (d : Double) : Nat × Int :=
  if d.significand = 0 then (0, 0)
  else
    let (digits, exponent) :=
      d.firstReadingBack (leadingExponent d.numerator d.denominator) 16
    dropTrailingZeros digits exponent 17

end Double

end ApiContract
