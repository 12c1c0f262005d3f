import OpGraph.Text.Canonical

/-!
# Long runs of marks

A text in which more than thirty marks follow each other is hard to put in its composed form piece by piece. So that no
piece grows longer, a joiner, which is not seen, is put between the thirtieth and the next one. Letters that can only
be part of a syllable count as marks too. What a character stands for in a compatible spelling counts, not the
character itself.
-/

namespace OpGraph.Text

/-- The class of a combining mark, zero for any other character. -/
def markClass (c : Nat) : Nat :=
  match markClasses.find? fun (first, last, _) => first ≤ c && c ≤ last with
  | some (_, _, k) => k
  | none => 0

/-- The characters that are not marks in their canonical spelling but in a compatible one have marks at their start or
end: ranges with how many. -/
def compatibleMarks : List (Nat × Nat × Nat × Nat) :=
  [(0xA8, 0xA8, 0, 1), (0xAF, 0xAF, 0, 1), (0xB4, 0xB4, 0, 1), (0xB8, 0xB8, 0, 1),
    (0x1C4, 0x1C6, 0, 1), (0x2D8, 0x2DD, 0, 1), (0x37A, 0x37A, 0, 1), (0x384, 0x384, 0, 1),
    (0x385, 0x385, 0, 2), (0xF77, 0xF77, 0, 2), (0xF79, 0xF79, 0, 2), (0x1FBD, 0x1FBD, 0, 1),
    (0x1FBF, 0x1FC0, 0, 1), (0x1FC1, 0x1FC1, 0, 2), (0x1FCD, 0x1FCF, 0, 2),
    (0x1FDD, 0x1FDF, 0, 2), (0x1FED, 0x1FEE, 0, 2), (0x1FFD, 0x1FFE, 0, 1),
    (0x2017, 0x2017, 0, 1), (0x203E, 0x203E, 0, 1), (0x309B, 0x309C, 0, 1),
    (0x3133, 0x3133, 1, 1), (0x3135, 0x3136, 1, 1), (0x313A, 0x313F, 1, 1),
    (0x314F, 0x3163, 1, 1), (0x326E, 0x327E, 0, 1), (0x3304, 0x3304, 0, 1),
    (0x3307, 0x3307, 0, 1), (0x3310, 0x3310, 0, 1), (0x331E, 0x331E, 0, 1),
    (0x3321, 0x3321, 0, 1), (0x3332, 0x3332, 0, 1), (0x333B, 0x333B, 0, 1),
    (0x3340, 0x3340, 0, 1), (0x334B, 0x334B, 0, 1), (0x334E, 0x334E, 0, 1),
    (0xFBA4, 0xFBA5, 0, 1), (0xFBB0, 0xFBB1, 0, 1), (0xFC5B, 0xFC5D, 0, 1),
    (0xFC5E, 0xFC63, 0, 2), (0xFC90, 0xFC90, 0, 1), (0xFCD9, 0xFCD9, 0, 1),
    (0xFCF2, 0xFCF4, 0, 2), (0xFD3C, 0xFD3D, 0, 1), (0xFE49, 0xFE4C, 0, 1),
    (0xFE70, 0xFE72, 0, 1), (0xFE74, 0xFE74, 0, 1), (0xFE76, 0xFE7F, 0, 1),
    (0xFE81, 0xFE8C, 0, 1), (0xFEF5, 0xFEFA, 0, 1), (0xFF9E, 0xFF9F, 1, 1),
    (0xFFA3, 0xFFA3, 1, 1), (0xFFA5, 0xFFA6, 1, 1), (0xFFAA, 0xFFAF, 1, 1),
    (0xFFC2, 0xFFC7, 1, 1), (0xFFCA, 0xFFCF, 1, 1), (0xFFD2, 0xFFD7, 1, 1),
    (0xFFDA, 0xFFDC, 1, 1), (0xFFE3, 0xFFE3, 0, 1), (0x1F213, 0x1F213, 0, 1)]

/-- Whether a character attaches to the one in front of it. -/
def attaches (c : Nat) : Bool :=
  markClass c != 0 || (0x1161 ≤ c && c ≤ 0x1175) || (0x11A8 ≤ c && c ≤ 0x11C2) || composites.any fun (_, _, b) => b == c

/-- How many of the characters that a character is taken apart into, at its start and at its end, are marks. -/
def marksOf (apart : Nat → List Nat) (c : Nat) : Nat × Nat :=
  match compatibleMarks.find? fun (first, last, _, _) => first ≤ c && c ≤ last with
  | some (_, _, leading, trailing) => (leading, trailing)
  | none =>
    let cs := apart c
    ((cs.takeWhile attaches).length, (cs.reverse.takeWhile attaches).length)

/-- The greatest number of marks in a row. -/
def greatestRun : Nat := 30

/-- The invisible joiner. -/
def joiner : Nat := 0x34F

/-- Puts joiners into long runs of marks; `run` of them stand in front of the text. -/
def splitRuns (apart : Nat → List Nat) : (run : Nat) → List Nat → List Nat
  | _, [] => []
  | run, c :: cs =>
    let (leading, trailing) := marksOf apart c
    if leading = 0 then c :: splitRuns apart trailing cs
    else if greatestRun < run + leading then joiner :: c :: splitRuns apart leading cs
    else c :: splitRuns apart (run + leading) cs

end OpGraph.Text
