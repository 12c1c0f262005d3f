import OpGraph.Attribute.Store
import OpGraph.Text.Blank
import OpGraph.Text.Lowercase

/-!
# Nodes

An operator of a graph, with the variables it reads and writes by slot.
-/

namespace OpGraph

/-- The numeric precision an operator runs at. Four are known; a node may carry any text. -/
structure Precision where
  text : String
  deriving DecidableEq, Repr

namespace Precision

/-- Single precision, which is the usual one. -/
def fp32 : Precision := ⟨"fp32"⟩

/-- Half precision. -/
def fp16 : Precision := ⟨"fp16"⟩

/-- Signed integers of eight bits. -/
def int8 : Precision := ⟨"int8"⟩

/-- Unsigned integers of eight bits. -/
def uint8 : Precision := ⟨"uint8"⟩

instance : Inhabited Precision := ⟨fp32⟩

/-- The known precisions. -/
def known : List Precision := [fp32, fp16, int8, uint8]

/-- Reads a known precision, whatever its case and the blanks around it; nothing but blanks means `fp32`. -/
def parse (s : String) : Except Failure Precision :=
  let p : Precision := ⟨Text.lower (Text.trim s)⟩
  if known.contains p then .ok p
  else if p.text = "" then .ok fp32
  else .error (.plain s!"unknown precision {Text.quote s}")

end Precision

/-- An operator. -/
structure Node where
  name : String
  type : String
  precision : Precision := .fp32
  attrs : Attribute.Store := {}
  /-- The variables it reads, by slot. -/
  inputs : List String := []
  /-- The variables it writes, by slot. -/
  outputs : List String := []
  deriving Repr, Inhabited

namespace Node

/-- Whether two nodes describe the same operator. -/
def same (a b : Node) : Bool :=
  a.name == b.name && a.type == b.type && a.precision == b.precision && a.inputs == b.inputs &&
    a.outputs == b.outputs && Attribute.Store.same a.attrs b.attrs

/-- The text of a node. -/
def text (n : Node) : String :=
  s!"{n.name}({n.type})"

end Node

end OpGraph
