import OpGraph.Decimal.Shortest

/-!
# Written decimals

How the digits of a decimal are laid out: positionally, or with one digit before the point and an exponent.
Which exponents are written positionally is a decision of the output, kept in one record per output.
-/

namespace OpGraph.Decimal

/-- The layout decisions of one output. An exponent `e` of the leading digit with `plainFrom ≤ e < plainBelow`
is written positionally; other exponents are written out, with at least `exponentWidth` digits. -/
structure Form where
  plainFrom : Int
  plainBelow : Int
  exponentWidth : Nat
  deriving DecidableEq, Repr

/-- Values shown as text are positional from `0.0001` to `999999`; exponents have two digits. -/
def Form.shown : Form := ⟨-4, 6, 2⟩

/-- The machine-readable report is positional from `0.000001` to below `1e21`; exponents are not padded. -/
def Form.report : Form := ⟨-6, 21, 1⟩

/-- The characters of a natural number. -/
def natChars (n : Nat) : List Char :=
  Nat.toDigits 10 n

/-- The number padded with zeros on the left to at least `width` characters. -/
def padded (width n : Nat) : List Char :=
  let cs := natChars n
  List.replicate (width - cs.length) '0' ++ cs

/-- The decimal exponent of the leading digit. -/
def Digits.leading (d : Digits) : Int :=
  d.exponent + (digitCount d.digits : Int) - 1

/-- The positional text of a decimal. -/
def Digits.plain (d : Digits) : List Char :=
  let cs := natChars d.digits
  if 0 ≤ d.exponent then cs ++ List.replicate d.exponent.toNat '0'
  else
    let places := (-d.exponent).toNat
    let whole := cs.length - places
    if places < cs.length then cs.take whole ++ '.' :: cs.drop whole
    else '0' :: '.' :: List.replicate (places - cs.length) '0' ++ cs

/-- The text of a decimal with an exponent. -/
def Digits.scientific (d : Digits) (exponentWidth : Nat) : List Char :=
  let lead := d.leading
  let mark := if lead < 0 then '-' else '+'
  let front :=
    match natChars d.digits with
    | [] => []
    | [c] => [c]
    | c :: cs => c :: '.' :: cs
  front ++ 'e' :: mark :: padded exponentWidth lead.natAbs

/-- The text of a positive decimal in a given form. -/
def Form.write (f : Form) (d : Digits) : List Char :=
  if f.plainFrom ≤ d.leading && d.leading < f.plainBelow then d.plain
  else d.scientific f.exponentWidth

end OpGraph.Decimal
