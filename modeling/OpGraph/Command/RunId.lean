import OpGraph.Text.Quoted

/-!
# Names of runs

A run is named by 128 random bits, written as hexadecimal digits in five groups. Six of the bits are fixed: they tell
that the others are random.
-/

namespace OpGraph.RunId

/-- The lengths of the groups, in bytes. -/
def groups : List Nat := [4, 2, 2, 2, 6]

/-- The byte at a place, with the fixed bits in it. -/
def stamp (i byte : Nat) : Nat :=
  if i = 6 then 0x40 + byte % 0x10
  else if i = 8 then 0x80 + byte % 0x40
  else byte % 0x100

/-- Divides bytes into groups; missing bytes are left out. -/
def divide : List Nat → List Nat → List (List Nat)
  | [], _ => []
  | n :: ns, bytes => bytes.take n :: divide ns (bytes.drop n)

/-- The name of a run with random bytes. -/
def ofBytes (bytes : List Nat) : String :=
  "-".intercalate ((divide groups (bytes.mapIdx stamp)).map fun group =>
    String.ofList (group.flatMap (Text.hexDigits 2)))

end OpGraph.RunId
