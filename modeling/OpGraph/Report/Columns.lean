/-!
# Aligned columns

Lines of cells that are divided by tabs. The cells of a column are padded to the longest of them and a gap; a column
ends at the first line that does not go on with it, and the last cell of a line is written as it is.
-/

namespace OpGraph.Report.Columns

/-- What stands between two columns, in characters. -/
def gap : Nat := 2

/-- The parts of a text between the characters of a class. -/
def parts (p : Char → Bool) : List Char → List (List Char)
  | [] => [[]]
  | c :: cs => if p c then [] :: parts p cs else (parts p cs).modifyHead (c :: ·)

/-- Cells end at a tab, horizontal or vertical. -/
def endsCell (c : Char) : Bool :=
  c.toNat == 0x09 || c.toNat == 0x0b

/-- Lines end at a line feed. -/
def endsLine (c : Char) : Bool :=
  c.toNat == 0x0a

/-- A form feed ends a line and all columns. -/
def endsSection (c : Char) : Bool :=
  c.toNat == 0x0c

/-- The greatest widths of columns, where a line with some widths follows others. -/
def widen : List Nat → List Nat → List Nat
  | _, [] => []
  | [], w :: ws => w :: ws
  | v :: vs, w :: ws => max v w :: widen vs ws

/-- The greatest width so far in each column that goes on, line by line. -/
def widest : List Nat → List (List Nat) → List (List Nat)
  | _, [] => []
  | before, ws :: rest => widen before ws :: widest (widen before ws) rest

/-- The width of each column at each line, from the widths of the cells in it. -/
def widths (lines : List (List Nat)) : List (List Nat) :=
  List.zipWith widen (widest [] lines) (widest [] lines.reverse).reverse

/-- The characters of a line whose columns have given widths. -/
def fill : List Nat → List (List Char) → List Char
  | w :: ws, cell :: cells => cell ++ List.replicate (w + gap - cell.length) ' ' ++ fill ws cells
  | _, cells => cells.flatten

/-- A section with its columns aligned. -/
def alignSection (cs : List Char) : List Char :=
  let lines := (parts endsLine cs).map (parts endsCell)
  let ws := widths (lines.map fun cells => cells.dropLast.map List.length)
  ['\n'].intercalate (List.zipWith fill ws lines)

/-- A text with its columns aligned. -/
def align (text : String) : String :=
  String.ofList (['\n'].intercalate ((parts endsSection text.toList).map alignSection))

end OpGraph.Report.Columns
