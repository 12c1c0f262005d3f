import OpGraph.Data.Dict

/-!
# Edges

An edge takes a variable from an output slot of its producer to an input slot of its consumer. It is identified by
the names of both; the weights and the bias of an operator have identifiers of the same kind.
-/

namespace OpGraph

/-- The text that identifies an edge or a weight tensor. -/
abbrev EdgeId := String

namespace EdgeId

/-- The identifier of the edge between two nodes. -/
def arc (src dst : String) : EdgeId :=
  src ++ "->" ++ dst

/-- The identifier of the weights or the bias of an operator. -/
def weights (op : String) (bias : Bool) : EdgeId :=
  op ++ if bias then "#bias" else "#weights"

/-- Cuts a text at its first arrow. -/
def cutArrow : List Char → Option (List Char × List Char)
  | [] => none
  | '-' :: '>' :: rest => some ([], rest)
  | c :: rest => (cutArrow rest).map fun (before, after) => (c :: before, after)

/-- The names of the nodes an identifier stands between; there are none when it has no arrow. -/
def endpoints? (id : EdgeId) : Option (String × String) :=
  (cutArrow id.toList).map fun (before, after) => (String.ofList before, String.ofList after)

/-- Whether an identifier stands for a weight tensor. -/
def isSynthetic (id : EdgeId) : Bool :=
  id.endpoints?.isNone

end EdgeId

/-- An edge between two nodes. -/
structure Edge where
  src : String
  dst : String
  srcSlot : Int := 0
  dstSlot : Int := 0
  /-- The variable it carries. -/
  var : String := ""
  /-- The shape of the variable, if it is known. -/
  shape : List Int := []
  deriving Repr, DecidableEq, Inhabited

namespace Edge

/-- The identifier of an edge. -/
def id (e : Edge) : EdgeId :=
  .arc e.src e.dst

/-- Whether two edges join the same slots by the same variable. -/
def same (a b : Edge) : Bool :=
  a.src == b.src && a.dst == b.dst && a.srcSlot == b.srcSlot && a.dstSlot == b.dstSlot && a.var == b.var

end Edge

end OpGraph
