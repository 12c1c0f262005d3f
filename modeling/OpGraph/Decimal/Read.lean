import OpGraph.Decimal.Nearest

/-!
# Reading decimals

The decimal notation of numbers, read exactly and then rounded once.
-/

namespace OpGraph.Decimal

/-- A decimal as it is written: `digits * 10 ^ exponent`. -/
structure Written where
  digits : Nat
  exponent : Int
  deriving DecidableEq, Repr

/-- The number a list of digits stands for. -/
def ofDigits (cs : List Char) : Nat :=
  cs.foldl (fun n c => 10 * n + (c.toNat - 48)) 0

/-- Splits off the digits at the front. -/
def spanDigits (cs : List Char) : List Char × List Char :=
  (cs.takeWhile Char.isDigit, cs.dropWhile Char.isDigit)

/-- Reads an exponent with or without a sign, to the end of the text. -/
def exponent? (cs : List Char) : Option Int :=
  let (negative, cs) := match cs with
    | '-' :: rest => (true, rest)
    | '+' :: rest => (false, rest)
    | rest => (false, rest)
  match spanDigits cs with
  | ([], _) => none
  | (ds, []) => some (if negative then -(ofDigits ds : Int) else ofDigits ds)
  | _ => none

/-- Reads a decimal without a sign, to the end of the text: digits, perhaps a point and more digits, perhaps an
exponent. -/
def written? (cs : List Char) : Option Written :=
  let (whole, rest) := spanDigits cs
  let (fraction, rest) := match rest with
    | '.' :: rest => spanDigits rest
    | rest => ([], rest)
  if whole.isEmpty && fraction.isEmpty then none
  else
    let w : Written := ⟨ofDigits (whole ++ fraction), -(fraction.length : Int)⟩
    match rest with
    | [] => some w
    | c :: rest =>
      if c = 'e' ∨ c = 'E' then (exponent? rest).map fun e => { w with exponent := w.exponent + e }
      else none

/-- The 64-bit float nearest to a decimal. An exponent far outside the range decides without arithmetic. -/
def Written.toFloat (w : Written) (negative : Bool) : Float :=
  let leading := w.exponent + (digitCount w.digits : Int)
  if w.digits = 0 ∨ leading < -400 then Decimal.toFloat negative 0 1
  else if 400 < leading then Float.ofBits (if negative then 0xfff0000000000000 else 0x7ff0000000000000)
  else if 0 ≤ w.exponent then Decimal.toFloat negative (w.digits * Nat.pow 10 w.exponent.toNat) 1
  else Decimal.toFloat negative w.digits (Nat.pow 10 (-w.exponent).toNat)

/-- Splits off a sign: whether it is a minus, and the rest. -/
def sign (cs : List Char) : Bool × List Char :=
  match cs with
  | '-' :: rest => (true, rest)
  | '+' :: rest => (false, rest)
  | rest => (false, rest)

/-- Reads a 64-bit float: a decimal, an infinity or the mark of what is not a number. -/
def readFloat? (s : String) : Option Float :=
  if s = "NaN" then some (Float.ofBits 0x7ff8000000000000)
  else
    let (negative, rest) := sign s.toList
    if rest = "Inf".toList then some (Float.ofBits (if negative then 0xfff0000000000000 else 0x7ff0000000000000))
    else (written? rest).map fun w => w.toFloat negative

end OpGraph.Decimal
