import OpGraph.Failure
import OpGraph.Text.Blank
import OpGraph.Text.Lowercase
import OpGraph.Text.Quoted

/-!
# Layouts

The order of the dimensions of a variable in memory.
-/

namespace OpGraph

/-- The layout of a variable. -/
inductive Layout where
  | invalid
  | nchw
  | nhwc
  | nc
  | nchwC8
  /-- A code without a name. -/
  | unnamed (code : Int)
  deriving DecidableEq, Repr, Inhabited

namespace Layout

/-- The text of a layout; what has no name is written like an invalid one. -/
def text : Layout → String
  | nchw => "NCHW"
  | nhwc => "NHWC"
  | nc => "NC"
  | nchwC8 => "NCHW_C8"
  | invalid | unnamed _ => "Invalid"

/-- The code of a layout. -/
def code : Layout → Int
  | invalid => 0
  | nchw => 1
  | nhwc => 2
  | nc => 3
  | nchwC8 => 4
  | unnamed code => code

/-- The layout of a code. -/
def ofCode : Int → Layout
  | 0 => invalid
  | 1 => nchw
  | 2 => nhwc
  | 3 => nc
  | 4 => nchwC8
  | code => unnamed code

/-- The names under which layouts can be given. -/
def aliases : List (String × Layout) :=
  [("nchw", nchw), ("channels_first", nchw), ("nhwc", nhwc), ("channels_last", nhwc), ("nc", nc),
    ("nchw_c8", nchwC8), ("nchwc8", nchwC8), ("nchw8c", nchwC8)]

/-- The layout of a name, whatever its case and the blanks around it. -/
def parse? (s : String) : Option Layout :=
  aliases.lookup (Text.lower (Text.trim s))

/-- The failure of a name that no layout has. -/
def unknown (s : String) : Failure :=
  .of .typeMismatch s!"unknown layout {Text.quote s}"

/-- The layout of a name. -/
def parse (s : String) : Except Failure Layout :=
  match parse? s with
  | some l => .ok l
  | none => .error (unknown s)

end Layout

end OpGraph
