import OpGraph.Decimal.Form

/-!
# Binary formats

Ratios rounded to a number of binary places, and the two interchange formats of 64 and 32 bits: reading their
bit patterns, finding the member nearest to a ratio, and writing a member with the fewest digits.
-/

namespace OpGraph.Decimal

/-- The quotient rounded to the nearest natural number, a half to the even one. -/
def roundDiv (num den : Nat) : Nat :=
  let quotient := num / den
  let twice := 2 * (num % den)
  if den < twice || (twice == den && quotient % 2 == 1) then quotient + 1 else quotient

/-- The number of binary digits of a natural number, none for zero. -/
def bitCount (n : Nat) : Nat :=
  if n = 0 then 0 else n.log2 + 1

/-- The binary exponent of the leading bit of the positive ratio `num / den`. -/
def leadingBit (num den : Nat) : Int :=
  let e : Int := (bitCount num : Int) - (bitCount den : Int)
  let reaches : Bool := if 0 ≤ e then Nat.pow 2 e.toNat * den ≤ num else den ≤ Nat.pow 2 (-e).toNat * num
  if reaches then e else e - 1

/-- The ratio rounded to a multiple of `2 ^ exponent`. -/
def roundAt (num den : Nat) (exponent : Int) : Nat :=
  if 0 ≤ exponent then roundDiv num (den * Nat.pow 2 exponent.toNat)
  else roundDiv (num * Nat.pow 2 (-exponent).toNat) den

/-- The positive ratio rounded to `bits` significant bits, but to no multiple of less than `2 ^ least`. -/
def roundToBits (bits : Nat) (least : Option Int) (num den : Nat) : Nat × Int :=
  let fine := leadingBit num den - (bits : Int) + 1
  let exponent := match least with
    | some l => max l fine
    | none => fine
  let mantissa := roundAt num den exponent
  if mantissa = Nat.pow 2 bits then (Nat.pow 2 (bits - 1), exponent + 1) else (mantissa, exponent)

/-- A binary interchange format. -/
structure Format where
  mantissaBits : Nat
  exponentBits : Nat
  deriving Repr

/-- The 64-bit format. -/
def Format.double : Format := ⟨52, 11⟩

/-- The 32-bit format. -/
def Format.single : Format := ⟨23, 8⟩

/-- The exponent field of infinities and of what is not a number. -/
def Format.topField (f : Format) : Nat :=
  Nat.pow 2 f.exponentBits - 1

/-- The exponent of the smallest positive member. -/
def Format.leastExponent (f : Format) : Int :=
  2 - Nat.pow 2 (f.exponentBits - 1) - (f.mantissaBits : Int)

/-- What a bit pattern stands for. -/
inductive Reading where
  | notNumber
  | infinite (negative : Bool)
  | zero (negative : Bool)
  | finite (negative : Bool) (value : Dyadic)
  deriving Repr

/-- Reads a bit pattern. -/
def Format.read (f : Format) (bits : Nat) : Reading :=
  let fraction := bits % Nat.pow 2 f.mantissaBits
  let field := bits / Nat.pow 2 f.mantissaBits % Nat.pow 2 f.exponentBits
  let negative := bits / Nat.pow 2 (f.mantissaBits + f.exponentBits) % 2 == 1
  if field = f.topField then
    if fraction = 0 then .infinite negative else .notNumber
  else if field = 0 then
    if fraction = 0 then .zero negative
    else .finite negative ⟨fraction, f.leastExponent, false⟩
  else
    .finite negative
      ⟨Nat.pow 2 f.mantissaBits + fraction, f.leastExponent + (field : Int) - 1, fraction == 0 && 1 < field⟩

/-- The bit pattern of the member nearest to the ratio `num / den`; beyond the range, of an infinity. -/
def Format.nearest (f : Format) (negative : Bool) (num den : Nat) : Nat :=
  let sign := if negative then Nat.pow 2 (f.mantissaBits + f.exponentBits) else 0
  if num = 0 then sign
  else
    let (mantissa, exponent) := roundToBits (f.mantissaBits + 1) (some f.leastExponent) num den
    if mantissa < Nat.pow 2 f.mantissaBits then sign + mantissa
    else
      let field := (exponent - f.leastExponent).toNat + 1
      if f.topField ≤ field then sign + f.topField * Nat.pow 2 f.mantissaBits
      else sign + field * Nat.pow 2 f.mantissaBits + (mantissa - Nat.pow 2 f.mantissaBits)

/-- The text of a reading in a given form. -/
def Form.text (f : Form) : Reading → String
  | .notNumber => "NaN"
  | .infinite negative => if negative then "-Inf" else "+Inf"
  | .zero negative => if negative then "-0" else "0"
  | .finite negative x =>
    let cs := f.write x.shortest
    String.ofList (if negative then '-' :: cs else cs)

/-- The positional text of a reading. -/
def Reading.plainText : Reading → String
  | .finite negative x =>
    let cs := x.shortest.plain
    String.ofList (if negative then '-' :: cs else cs)
  | r => Form.shown.text r

/-- What a 64-bit float stands for. -/
def ofFloat (x : Float) : Reading :=
  Format.double.read x.toBits.toNat

/-- What a 32-bit float stands for. -/
def ofFloat32 (x : Float32) : Reading :=
  Format.single.read x.toBits.toNat

/-- The 64-bit float nearest to a ratio. -/
def toFloat (negative : Bool) (num den : Nat) : Float :=
  Float.ofBits (Format.double.nearest negative num den).toUInt64

/-- The text of a 64-bit float. -/
def floatText (x : Float) : String :=
  Form.shown.text (ofFloat x)

/-- The text of a 32-bit float. -/
def float32Text (x : Float32) : String :=
  Form.shown.text (ofFloat32 x)

end OpGraph.Decimal
