/-!
# The fewest digits that read back

A binary number stands for the interval of reals that round to it. `shortest` looks for the decimal with the
fewest digits in that interval: on each decimal grid, from the coarsest, it tries the two neighbours of the
value, takes the only one inside, or the nearer of two, and on an exact tie the one whose last digit is even.
All comparisons are between natural numbers.
-/

namespace OpGraph.Decimal

/-- A positive binary number `mantissa * 2 ^ exponent` of a format with a fixed number of mantissa bits.
`narrowBelow` says that the number below is only half a unit away, as it is at a power of two. -/
structure Dyadic where
  mantissa : Nat
  exponent : Int
  narrowBelow : Bool
  deriving DecidableEq, Repr

/-- A positive decimal: the number with these digits, times ten to the exponent. -/
structure Digits where
  digits : Nat
  exponent : Int
  deriving DecidableEq, Repr

/-- The number of decimal digits of a natural number, one for zero. -/
def digitCount (n : Nat) : Nat :=
  (Nat.toDigits 10 n).length

/-- The decimal exponent of the leading digit of the ratio `num / den`. -/
def leadingExponent (num den : Nat) : Int :=
  let e : Int := (digitCount num : Int) - (digitCount den : Int)
  let reaches : Bool :=
    if 0 ≤ e then Nat.pow 10 e.toNat * den ≤ num else den ≤ Nat.pow 10 (-e).toNat * num
  if reaches then e else e - 1

/-- Moves factors ten from the digits to the exponent, at most `fuel` of them. -/
def stripZeros : (fuel : Nat) → Digits → Digits
  | 0, d => d
  | fuel + 1, d =>
    if d.digits != 0 && d.digits % 10 == 0 then stripZeros fuel ⟨d.digits / 10, d.exponent + 1⟩ else d

/-- The interval of a binary number, as numerators over one denominator: the value, its two ends, and whether
the ends belong to it. -/
structure Interval where
  value : Nat
  low : Nat
  high : Nat
  closed : Bool
  den : Nat
  deriving Repr

/-- The interval of the reals that round to a binary number. -/
def Dyadic.interval (x : Dyadic) : Interval :=
  let quarter : Nat := if 2 ≤ x.exponent then Nat.pow 2 (x.exponent - 2).toNat else 1
  { value := 4 * x.mantissa * quarter
    low := (4 * x.mantissa - if x.narrowBelow then 1 else 2) * quarter
    high := (4 * x.mantissa + 2) * quarter
    closed := x.mantissa % 2 == 0
    den := if 2 ≤ x.exponent then 1 else Nat.pow 2 (2 - x.exponent).toNat }

/-- Whether `n` times ten to the exponent lies in the interval. -/
def Interval.holds (i : Interval) (n : Nat) (exponent : Int) : Bool :=
  let num := if 0 ≤ exponent then n * Nat.pow 10 exponent.toNat * i.den else n * i.den
  let scale := if 0 ≤ exponent then 1 else Nat.pow 10 (-exponent).toNat
  if i.closed then i.low * scale ≤ num && num ≤ i.high * scale
  else i.low * scale < num && num < i.high * scale

/-- The neighbour of the value on one decimal grid that lies in the interval, if one does. -/
def Interval.onGrid (i : Interval) (exponent : Int) : Option Digits :=
  let num := if 0 ≤ exponent then i.value else i.value * Nat.pow 10 (-exponent).toNat
  let den := if 0 ≤ exponent then i.den * Nat.pow 10 exponent.toNat else i.den
  let below := num / den
  let twice := 2 * (num % den)
  match i.holds below exponent, i.holds (below + 1) exponent with
  | true, true =>
    let up := den < twice || (twice == den && below % 2 == 1)
    some ⟨if up then below + 1 else below, exponent⟩
  | true, false => some ⟨below, exponent⟩
  | false, true => some ⟨below + 1, exponent⟩
  | false, false => none

/-- Tries the grids from the given exponent downwards and ends with the last of them. -/
def Interval.search (i : Interval) : (fuel : Nat) → (exponent : Int) → Digits
  | 0, e =>
    let num := if 0 ≤ e then i.value else i.value * Nat.pow 10 (-e).toNat
    let den := if 0 ≤ e then i.den * Nat.pow 10 e.toNat else i.den
    ⟨num / den, e⟩
  | fuel + 1, e => (i.onGrid e).getD (i.search fuel (e - 1))

/-- The decimal with the fewest digits that rounds to a positive binary number, among those the nearest. Two
digits more than the mantissa has decimal places are always enough. -/
def Dyadic.shortest (x : Dyadic) : Digits :=
  let i := x.interval
  let grids := digitCount x.mantissa + 2
  stripZeros (grids + 1) (i.search grids (leadingExponent i.value i.den))

end OpGraph.Decimal
