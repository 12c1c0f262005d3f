/-!
# Integer literals

Whole numbers with a sign and a base: `0x`, `0o` and `0b` put the base in front, a leading zero means octal.
Underscores may stand between digits and behind the base.
-/

namespace OpGraph.Text

/-- Why a text is no integer of 64 bits. -/
inductive IntegerError where
  | malformed
  | outOfRange
  deriving DecidableEq, Repr

/-- The value of a digit or letter. -/
def digitValue? (c : Char) : Option Nat :=
  if '0' ≤ c && c ≤ '9' then some (c.toNat - 48)
  else if 'a' ≤ c && c ≤ 'z' then some (c.toNat - 87)
  else if 'A' ≤ c && c ≤ 'Z' then some (c.toNat - 55)
  else none

/-- The base of a literal, its digits, and whether an underscore may stand before them. -/
def literalBase : List Char → Nat × List Char × Bool
  | '0' :: c :: d :: cs =>
    match c with
    | 'x' => (16, d :: cs, true)
    | 'X' => (16, d :: cs, true)
    | 'o' => (8, d :: cs, true)
    | 'O' => (8, d :: cs, true)
    | 'b' => (2, d :: cs, true)
    | 'B' => (2, d :: cs, true)
    | _ => (8, c :: d :: cs, true)
  | '0' :: cs => (8, cs, true)
  | cs => (10, cs, false)

/-- The number with digits behind those of another one. The first digit that makes it exceed a word of 64 bits, or that
is none of the base, ends the reading. -/
def digitsValue (base : Nat) : Nat → List Char → Except IntegerError Nat
  | n, [] => .ok n
  | n, c :: cs =>
    if c = '_' then digitsValue base n cs
    else match digitValue? c with
      | none => .error .malformed
      | some d =>
        if base ≤ d then .error .malformed
        else if Nat.pow 2 64 ≤ n * base + d then .error .outOfRange
        else digitsValue base (n * base + d) cs

/-- Whether each underscore has a digit, or a base, before it and a digit behind it. -/
def underscoresDivide : (afterDigit : Bool) → List Char → Bool
  | afterDigit, [] => afterDigit
  | afterDigit, c :: cs => if c = '_' then afterDigit && underscoresDivide false cs else underscoresDivide true cs

/-- The number an unsigned literal stands for. -/
def literalValue (cs : List Char) : Except IntegerError Nat := do
  if cs.isEmpty then throw .malformed
  let (base, digits, afterDigit) := literalBase cs
  let n ← digitsValue base 0 digits
  if underscoresDivide afterDigit digits then return n else throw .malformed

/-- Reads an integer of 64 bits. -/
def readInteger (s : String) : Except IntegerError Int := do
  let (negative, cs) := match s.toList with
    | '-' :: cs => (true, cs)
    | '+' :: cs => (false, cs)
    | cs => (false, cs)
  let n ← literalValue cs
  if negative then if n ≤ Nat.pow 2 63 then return -(n : Int) else throw .outOfRange
  else if n < Nat.pow 2 63 then return n else throw .outOfRange

end OpGraph.Text
