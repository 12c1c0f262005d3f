import OpGraph.Text.Joiner

/-!
# The composed form of texts

A text is taken apart into the characters its own are canonically equivalent to, the marks behind each base are put in
the order of their classes, and then every base takes in the marks it can be composed with. Equivalent texts become
one text. Runs of marks that are too long are split before.
-/

namespace OpGraph.Text

/-- The letters of a syllable block: leading, vowel and perhaps trailing. -/
def syllableParts (c : Nat) : List Nat :=
  let i := c - 0xAC00
  let lead := 0x1100 + i / 588
  let vowel := 0x1161 + i % 588 / 28
  if i % 28 = 0 then [lead, vowel] else [lead, vowel, 0x11A7 + i % 28]

/-- Takes a character apart, in up to `n` rounds. -/
def takeApart : Nat → Nat → List Nat
  | 0, c => [c]
  | n + 1, c =>
    if 0xAC00 ≤ c && c ≤ 0xD7A3 then syllableParts c
    else match replaced.lookup c with
      | some d => takeApart n d
      | none =>
        match (composites ++ excludedComposites).find? (·.1 == c) with
        | some (_, a, b) => takeApart n a ++ takeApart n b
        | none => [c]

/-- Orders marks by their classes; characters without a class stay where they are. -/
def orderMarks : List Nat → List (Nat × Nat)
  | [] => []
  | c :: rest =>
    let k := markClass c
    if k = 0 then (k, c) :: orderMarks rest else pushMark k c (orderMarks rest)
where
  /-- Puts a mark in front of marks that are in order already. -/
  pushMark (k c : Nat) : List (Nat × Nat) → List (Nat × Nat)
    | [] => [(k, c)]
    | (j, d) :: rest => if j ≠ 0 && j < k then (j, d) :: pushMark k c rest else (k, c) :: (j, d) :: rest

/-- The character that two others are put together to. -/
def putTogether (a b : Nat) : Option Nat :=
  if 0x1100 ≤ a && a < 0x1113 && 0x1161 ≤ b && b < 0x1176 then
    some (0xAC00 + ((a - 0x1100) * 21 + (b - 0x1161)) * 28)
  else if 0xAC00 ≤ a && a ≤ 0xD7A3 && (a - 0xAC00) % 28 == 0 && 0x11A8 ≤ b && b < 0x11C3 then
    some (a + (b - 0x11A7))
  else (composites.find? fun (_, x, y) => x == a && y == b).map (·.1)

/-- Puts a base together with the marks behind it; `kept` are those it did not take in, last first, and `last` is the
class of the last of them. -/
def compose : (base : Option Nat) → (kept : List Nat) → (last : Nat) → List (Nat × Nat) → List Nat
  | base, kept, _, [] => base.toList ++ kept.reverse
  | none, _, _, (k, c) :: rest => if k = 0 then compose (some c) [] 0 rest else c :: compose none [] 0 rest
  | some b, kept, last, (k, c) :: rest =>
    match if kept.isEmpty || last < k then putTogether b c else none with
    | some b => compose (some b) kept last rest
    | none =>
      if k = 0 then b :: kept.reverse ++ compose (some c) [] 0 rest
      else compose (some b) (c :: kept) k rest

/-- The composed form of a text. Characters below U+0300 are never changed by it. -/
def normal (s : String) : String :=
  if s.toList.all fun c => c.toNat < 0x300 then s
  else
    let apart := (splitRuns (takeApart 8) 0 (s.toList.map Char.toNat)).flatMap (takeApart 8)
    String.ofList ((compose none [] 0 (orderMarks apart)).map Char.ofNat)

end OpGraph.Text
