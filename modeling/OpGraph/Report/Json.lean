import OpGraph.Report.Basic

/-!
# Reports for programs

A report as a JSON document: two spaces for each level, members in a fixed order. Lists that may be left out are left
out when they are empty.
-/

namespace OpGraph.Report

/-- A JSON document. -/
inductive Json where
  | null
  | bool (b : Bool)
  | int (n : Int)
  | float (x : Float32)
  | string (s : String)
  | array (items : List Json)
  | object (members : List (String × Json))
  deriving Repr

namespace Json

/-- How one character is written between quotes. Characters with a meaning in web pages, and the two separators that
end a line in scripts, are written by their numbers. -/
def writeChar (c : Char) : List Char :=
  match c.toNat with
  | 0x22 => ['\\', '"']
  | 0x5c => ['\\', '\\']
  | 0x08 => ['\\', 'b']
  | 0x0c => ['\\', 'f']
  | 0x0a => ['\\', 'n']
  | 0x0d => ['\\', 'r']
  | 0x09 => ['\\', 't']
  | n =>
    if n < 0x20 || n == 0x3c || n == 0x3e || n == 0x26 || n == 0x2028 || n == 0x2029 then
      '\\' :: 'u' :: Text.hexDigits 4 n
    else [c]

/-- The text of a string. -/
def writeString (s : String) : String :=
  String.ofList ('"' :: s.toList.flatMap writeChar ++ ['"'])

/-- A line break before a line of a level. -/
def break_ (level : Nat) : String :=
  "\n" ++ String.ofList (List.replicate (2 * level) ' ')

/-- Texts between brackets, each on a line of the next level. -/
def enclose (first last : String) (level : Nat) (texts : List String) : String :=
  if texts.isEmpty then first ++ last
  else first ++ break_ (level + 1) ++ ("," ++ break_ (level + 1)).intercalate texts ++ break_ level ++ last

mutual

/-- The text of a document on a level. -/
def write (level : Nat) : Json → String
  | null => "null"
  | bool b => if b then "true" else "false"
  | int n => toString n
  | float x => Decimal.Form.report.text (Decimal.ofFloat32 x)
  | string s => writeString s
  | array items => enclose "[" "]" level (writeItems (level + 1) items)
  | object members => enclose "\x7b" "\x7d" level (writeMembers (level + 1) members)

/-- The texts of the items of an array. -/
def writeItems (level : Nat) : List Json → List String
  | [] => []
  | j :: js => write level j :: writeItems level js

/-- The texts of the members of an object. -/
def writeMembers (level : Nat) : List (String × Json) → List String
  | [] => []
  | (name, j) :: js => (writeString name ++ ": " ++ write level j) :: writeMembers level js

end

/-- An array of strings. -/
def strings (ss : List String) : Json :=
  array (ss.map string)

/-- A member that is left out when its list is empty. -/
def unlessEmpty (name : String) (items : List Json) : List (String × Json) :=
  if items.isEmpty then [] else [(name, array items)]

/-- The names at the boundary of a network, `null` when there are none. -/
def boundary (ns : List String) : Json :=
  if ns.isEmpty then null else strings ns

/-- An operator. -/
def ofNode (n : Node) : Json :=
  object ([("name", string n.name), ("type", string n.type), ("precision", string n.precision.text)] ++
    unlessEmpty "inputs" (n.inputs.map string) ++ unlessEmpty "outputs" (n.outputs.map string))

/-- A merge. -/
def ofMerge (m : MergeRecord) : Json :=
  object [("fused", string m.fused), ("pattern", string m.pattern), ("originals", strings m.members)]

/-- The scale of an edge. -/
def ofScale (id : EdgeId) (s : Scale) : Json :=
  object ([("edge", string id), ("values", array (s.values.map float))] ++
    if s.isBias then [("bias", bool true)] else [])

/-- The layout of an edge. -/
def ofLayout (id : EdgeId) (l : Layout) : Json :=
  object [("edge", string id), ("layout", string l.text)]

end Json

/-- The document of a report. -/
def toJson (r : Report) : Json :=
  .object ([("graph", .string r.graph), ("state", .string r.state.text), ("target", .string r.target),
    ("run_id", .string r.run), ("fusion", .bool r.fusion), ("iterations", .int r.stats.iterations),
    ("fused", .int r.stats.fused), ("dropped", .int r.stats.dropped), ("rejected", .int r.stats.rejected),
    ("inputs", .boundary r.inputs), ("outputs", .boundary r.outputs), ("order", .array (r.order.map .ofNode))] ++
    Json.unlessEmpty "merges" (r.merges.map .ofMerge) ++
    Json.unlessEmpty "scales" (r.scales.entries.map fun (id, s) => .ofScale id s) ++
    Json.unlessEmpty "layouts" (r.layouts.entries.map fun (id, l) => .ofLayout id l) ++
    Json.unlessEmpty "blocks" (r.blocks.map .string))

/-- Why a report can not be written as a document. -/
inductive Error where
  /-- A scale is infinite or not a number. -/
  | notFinite (x : Float32)
  deriving Repr

/-- The failure an error is reported as. -/
def Error.toFailure : Error → Failure
  | notFinite x => .plain s!"json: unsupported value: {Decimal.float32Text x}"

instance : Reported Error := ⟨fun e => .failure e.toFailure⟩

/-- Whether a value can be written as a number. -/
def isFinite (x : Float32) : Bool :=
  match Decimal.ofFloat32 x with
  | .notNumber => false
  | .infinite _ => false
  | _ => true

/-- The first value of a scale that can not be written as a number. -/
def notFinite? (r : Report) : Option Float32 :=
  (r.scales.entries.flatMap fun (_, s) => s.values).find? fun x => !isFinite x

/-- The report as a text for programs. -/
def json (r : Report) : Except Error String :=
  match r.notFinite? with
  | some x => .error (.notFinite x)
  | none => .ok (r.toJson.write 0 ++ "\n")

end OpGraph.Report
