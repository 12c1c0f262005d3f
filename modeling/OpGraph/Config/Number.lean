import OpGraph.Decimal.Read

/-!
# Numbers of a configuration

A number is a binary number of a fixed number of mantissa bits, 512 for one that was written as text, or an infinity.
Results of arithmetic are exact results rounded once, a half to the even neighbour. Magnitudes are only written out as
integers where the result needs them, so that exponents may be large.
-/

namespace OpGraph.Config

open Decimal (bitCount)

/-- A number: `mantissa * 2 ^ exponent` with a sign and the number of bits its mantissa is rounded to, or an
infinity. Zero has a sign too. -/
inductive Number where
  | finite (negative : Bool) (mantissa : Nat) (exponent : Int) (bits : Nat)
  | infinite (negative : Bool)
  deriving DecidableEq, Repr, Inhabited

namespace Number

/-- The number of mantissa bits of a number that was written as text. -/
def writtenBits : Nat := 512

/-! ### Rounding -/

/-- The least exponent of a power of two above `mantissa * 2 ^ exponent`. -/
def top (mantissa : Nat) (exponent : Int) : Int :=
  exponent + bitCount mantissa

/-- The greatest `top` of a number; what is larger is infinite. -/
def greatestTop : Int := (Nat.pow 2 31 : Int) - 1

/-- The least `top` of a number; what is smaller is zero. -/
def leastTop : Int := -(Nat.pow 2 31 : Int)

/-- Zero. -/
def zero (bits : Nat) (negative : Bool) : Number :=
  finite negative 0 0 bits

/-- A number unless it is too large. -/
def bounded (bits : Nat) (negative : Bool) (mantissa : Nat) (exponent : Int) : Number :=
  if greatestTop < top mantissa exponent then infinite negative else finite negative mantissa exponent bits

/-- `mantissa * 2 ^ exponent` rounded to a number of bits. -/
def round (bits : Nat) (negative : Bool) (mantissa : Nat) (exponent : Int) : Number :=
  if mantissa = 0 ∨ top mantissa exponent < leastTop then zero bits negative
  else
    let extra := bitCount mantissa - bits
    let rounded := Decimal.roundDiv mantissa (Nat.pow 2 extra)
    if rounded = Nat.pow 2 bits then bounded bits negative (Nat.pow 2 (bits - 1)) (exponent + extra + 1)
    else bounded bits negative rounded (exponent + extra)

/-- The quotient of two numbers, the second not zero, rounded to a number of bits. Two bits more than asked for and a
mark for a remainder decide the rounding. -/
def quotient (bits : Nat) (negative : Bool) (m₁ : Nat) (e₁ : Int) (m₂ : Nat) (e₂ : Int) : Number :=
  let shift := bits + 2 + bitCount m₂ - bitCount m₁
  let num := m₁ * Nat.pow 2 shift
  let mark := if num % m₂ = 0 then 0 else 1
  round bits negative (2 * (num / m₂) + mark) (e₁ - e₂ - shift - 1)

/-- Whether a number is zero. -/
def isZero : Number → Bool
  | finite _ 0 _ _ => true
  | _ => false

/-- Whether a number has a minus sign. -/
def isNegative : Number → Bool
  | finite negative _ _ _ => negative
  | infinite negative => negative

/-- The product of two numbers that have one, rounded to a number of bits. -/
def product (bits : Nat) (a b : Number) : Number :=
  match a, b with
  | finite n₁ m₁ e₁ _, finite n₂ m₂ e₂ _ => round bits (n₁ != n₂) (m₁ * m₂) (e₁ + e₂)
  | _, _ => infinite (a.isNegative != b.isNegative)

/-! ### Making and reading -/

/-- An integer. -/
def ofInt (i : Int) : Number :=
  finite (i < 0) i.natAbs 0 64

/-- A 64-bit float; there is no number for what is not one. -/
def ofFloat? (x : Float) : Option Number :=
  match Decimal.ofFloat x with
  | .notNumber => none
  | .infinite negative => some (infinite negative)
  | .zero negative => some (zero 53 negative)
  | .finite negative d => some (finite negative d.mantissa d.exponent 53)

/-- The number of bits to which a power of five is computed, 64 more than a written number has. -/
def powerBits : Nat := writtenBits + 64

/-- The number of bits of the squares from which a power of five is computed, 64 more still. -/
def squareBits : Nat := powerBits + 64

/-- Multiplies by a power of the second number, which is squared once for each bit of the exponent. -/
def raise (acc square : Number) (n : Nat) : Number :=
  if n = 0 then acc
  else raise (if n % 2 = 1 then product powerBits acc square else acc) (product squareBits square square) (n / 2)
termination_by n
decreasing_by omega

/-- A power of five. Up to the 27th it is one machine word, from which the others are computed. -/
def fivePower (n : Nat) : Number :=
  let exact := finite false (Nat.pow 5 (min n 27)) 0 powerBits
  raise exact (finite false 5 0 squareBits) (n - 27)

/-- The number of a written decimal times a power of two. Its power of ten is one of two, which is exact, and one of
five, which is not beyond the 248th. There is none if the exponent of two alone is too large or too small. -/
def ofWritten? (negative : Bool) (w : Decimal.Written) (power : Int) : Option Number :=
  let e := w.exponent + power
  if w.digits = 0 then some (zero writtenBits negative)
  else if top w.digits e < leastTop ∨ greatestTop < top w.digits e then none
  else if 0 ≤ w.exponent then
    some (product writtenBits (finite negative w.digits e writtenBits) (fivePower w.exponent.toNat))
  else match fivePower (-w.exponent).toNat with
    | finite _ m₅ e₅ _ => some (quotient writtenBits negative w.digits e m₅ e₅)
    | infinite _ => some (zero writtenBits negative)

/-- Whether an exponent is a machine word. -/
def isWord (e : Int) : Bool :=
  -(Nat.pow 2 63 : Int) ≤ e && e < Nat.pow 2 63

/-- Reads a number without a sign: a decimal that may have a decimal or a binary exponent. -/
def parseUnsigned? (negative : Bool) (cs : List Char) : Option Number :=
  let isMark := fun c => c = 'p' ∨ c = 'P'
  match cs.dropWhile fun c => !isMark c with
  | [] => do
    let w ← Decimal.written? cs
    if isWord w.exponent then ofWritten? negative w 0 else none
  | _ :: power => do
    let w ← Decimal.written? (cs.takeWhile fun c => !isMark c)
    let p ← Decimal.exponent? power
    -- Only one of the two exponents can be written.
    if isWord p && !(cs.any fun c => c = 'e' ∨ c = 'E') then ofWritten? negative w p else none

/-- Reads a number with or without a sign, or an infinity. -/
def parse? (s : String) : Option Number :=
  let (negative, cs) := Decimal.sign s.toList
  if cs = "Inf".toList ∨ cs = "inf".toList then some (infinite negative)
  else parseUnsigned? negative cs

/-! ### Arithmetic -/

/-- The number with the other sign. -/
def neg : Number → Number
  | finite negative m e bits => finite (!negative) m e bits
  | infinite negative => infinite !negative

/-- The mantissa of a number with its sign at a lower exponent. -/
def alignedTo (low : Int) (negative : Bool) (m : Nat) (e : Int) : Int :=
  let scaled : Int := m * Nat.pow 2 (e - low).toNat
  if negative then -scaled else scaled

/-- A number that is not zero, moved by less than one unit of `bits + 3` further places: away from zero or towards
it. -/
def nudge (bits : Nat) (negative : Bool) (m : Nat) (e : Int) (away : Bool) : Number :=
  let shifted := m * Nat.pow 2 (bits + 3)
  round bits negative (if away then shifted + 1 else shifted - 1) (e - (bits + 3))

/-- The sum of two finite numbers. One that is too small to meet the other's places only tells on which side of it the
sum lies. -/
def addFinite (bits : Nat) (n₁ : Bool) (m₁ : Nat) (e₁ : Int) (n₂ : Bool) (m₂ : Nat) (e₂ : Int) : Number :=
  if m₁ = 0 ∧ m₂ = 0 then zero bits (n₁ && n₂)
  else if m₂ = 0 then round bits n₁ m₁ e₁
  else if m₁ = 0 then round bits n₂ m₂ e₂
  else if top m₂ e₂ ≤ e₁ - (bits + 3) then nudge bits n₁ m₁ e₁ (n₁ == n₂)
  else if top m₁ e₁ ≤ e₂ - (bits + 3) then nudge bits n₂ m₂ e₂ (n₁ == n₂)
  else
    let low := min e₁ e₂
    let sum := alignedTo low n₁ m₁ e₁ + alignedTo low n₂ m₂ e₂
    round bits (sum < 0) sum.natAbs low

/-- The sum, which two opposite infinities do not have. -/
def add? : Number → Number → Option Number
  | infinite a, infinite b => if a = b then some (infinite a) else none
  | infinite a, finite .. => some (infinite a)
  | finite .., infinite b => some (infinite b)
  | finite n₁ m₁ e₁ b₁, finite n₂ m₂ e₂ b₂ => some (addFinite (max b₁ b₂) n₁ m₁ e₁ n₂ m₂ e₂)

/-- The difference. -/
def sub? (a b : Number) : Option Number :=
  add? a b.neg

/-- Whether a number is an infinity. -/
def isInfinite : Number → Bool
  | infinite _ => true
  | finite .. => false

/-- The product, which zero and an infinity do not have. -/
def mul? (a b : Number) : Option Number :=
  if (a.isInfinite && b.isZero) || (a.isZero && b.isInfinite) then none
  else some (product writtenBits a b)

/-- The quotient. A number divided by zero is an infinity; zero by zero and infinity by infinity have none. -/
def div? (a b : Number) : Option Number :=
  let negative := a.isNegative != b.isNegative
  match a, b with
  | infinite _, infinite _ => none
  | infinite _, finite .. => some (infinite negative)
  | finite _ _ _ bits, infinite _ => some (zero bits negative)
  | finite _ m₁ e₁ b₁, finite _ m₂ e₂ b₂ =>
    if m₂ = 0 then if m₁ = 0 then none else some (infinite negative)
    else some (quotient (max b₁ b₂) negative m₁ e₁ m₂ e₂)

/-- The integer part of a finite number, rounded to its own number of bits. -/
def truncate (bits : Nat) (negative : Bool) (m : Nat) (e : Int) : Number :=
  if 0 ≤ e then round bits negative m e
  else
    let whole := if top m e ≤ 0 then 0 else m / Nat.pow 2 (-e).toNat
    round bits (negative && whole != 0) whole 0

/-- The remainder of the division that cuts the quotient to an integer. Each step is rounded to the bits of the
dividend. Modulo zero a number is itself; there is no other remainder with an infinity. -/
def mod? (a b : Number) : Option Number :=
  if b.isZero then some a
  else match a, b with
    | finite _ _ _ bits, finite .. =>
      match div? a b with
      | some (finite n m e _) => sub? a (product bits b (truncate bits n m e))
      | _ => none
    | _, _ => none

/-- The order of two magnitudes. -/
def compareMagnitudes (m₁ : Nat) (e₁ : Int) (m₂ : Nat) (e₂ : Int) : Ordering :=
  if m₁ = 0 ∨ m₂ = 0 then Ord.compare m₁ m₂
  else if top m₁ e₁ ≠ top m₂ e₂ then Ord.compare (top m₁ e₁) (top m₂ e₂)
  else
    let low := min e₁ e₂
    Ord.compare (alignedTo low false m₁ e₁) (alignedTo low false m₂ e₂)

/-- The order of numbers. -/
def compare : Number → Number → Ordering
  | infinite a, infinite b => if a = b then .eq else if a then .lt else .gt
  | infinite a, finite .. => if a then .lt else .gt
  | finite .., infinite b => if b then .gt else .lt
  | finite n₁ m₁ e₁ _, finite n₂ m₂ e₂ _ =>
    if m₁ = 0 ∧ m₂ = 0 then .eq
    else match n₁ && m₁ != 0, n₂ && m₂ != 0 with
      | false, false => compareMagnitudes m₁ e₁ m₂ e₂
      | true, true => compareMagnitudes m₂ e₂ m₁ e₁
      | true, false => .lt
      | false, true => .gt

/-! ### Conversions -/

/-- The machine word a number is equal to. -/
def toInt64? : Number → Option Int64
  | infinite _ => none
  | finite negative m e _ =>
    if m = 0 then some 0
    else if 64 < top m e ∨ top m e ≤ 0 then none
    else
      let whole := if 0 ≤ e then m * Nat.pow 2 e.toNat else m / Nat.pow 2 (-e).toNat
      let i : Int := if negative then -whole else whole
      if (e < 0 ∧ m % Nat.pow 2 (-e).toNat ≠ 0) ∨ i < -(Nat.pow 2 63 : Int) ∨
        Nat.pow 2 63 ≤ i then none else some (Int64.ofInt i)

/-- The nearest 64-bit float; a finite number beyond their range has none. -/
def toFloat? : Number → Option Float
  | infinite negative => some (Float.ofBits (if negative then 0xfff0000000000000 else 0x7ff0000000000000))
  | finite negative m e _ =>
    if m = 0 ∨ top m e < -1100 then some (Decimal.toFloat negative 0 1)
    else if 1100 < top m e then none
    else
      let x := Decimal.toFloat negative (m * Nat.pow 2 e.toNat) (Nat.pow 2 (-e).toNat)
      if x.isInf then none else some x

/-- A short text of a number has ten digits at most, and an exponent if there are more places. -/
def shortForm : Decimal.Form := ⟨-4, 10, 2⟩

/-- A positive ratio rounded to a number of decimal digits, a half to the even neighbour. -/
def significant (places num den : Nat) : Decimal.Digits :=
  let e := Decimal.leadingExponent num den - places + 1
  Decimal.stripZeros (places + 1) ⟨Decimal.roundDiv (num * Nat.pow 10 (-e).toNat) (den * Nat.pow 10 e.toNat), e⟩

/-- A text of a number with at most ten digits. -/
def shortText : Number → String
  | infinite negative => if negative then "-Inf" else "+Inf"
  | finite negative m e _ =>
    let cs := if m = 0 then ['0'] else shortForm.write (significant 10 (m * Nat.pow 2 e.toNat) (Nat.pow 2 (-e).toNat))
    String.ofList (if negative then '-' :: cs else cs)

/-- The positional text of a number with the fewest digits that determine it. -/
def text : Number → String
  | infinite negative => if negative then "-Inf" else "+Inf"
  | finite negative m e bits =>
    if m = 0 then if negative then "-0" else "0"
    else
      let shift := bits - bitCount m
      let cs := (Decimal.Dyadic.mk (m * Nat.pow 2 shift) (e - shift) false).shortest.plain
      String.ofList (if negative then '-' :: cs else cs)

end Number

end OpGraph.Config
