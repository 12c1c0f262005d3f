import OpGraph.Calibration.Store
import OpGraph.Sandbox.Commit

/-!
# Assigning layouts

Every edge gets the layout of the node that writes it: the one the node is pinned to by its attribute, or the usual
one for its type. The attribute is respelled in the usual way.
-/

namespace OpGraph.Sandbox

/-- The attribute that pins a node to a layout. -/
def layoutAttr : String := "layout"

/-- The text a node is pinned by. -/
def pin? (n : Node) : Option String :=
  match Attribute.Store.get n.attrs Attribute.Value.asString layoutAttr with
  | .ok text => some text
  | .error _ => none

/-- The node with another text in the attribute that pins it. -/
def repin (n : Node) (text : String) : Node :=
  { n with attrs := n.attrs.insert layoutAttr (.string text) }

/-- Reads the pins of nodes and respells them in the usual way. What was respelled before an unknown layout
stays. -/
def readPins : Sandbox → Dict Layout → List Node → Sandbox × Except Failure (Dict Layout)
  | s, pinned, [] => (s, .ok pinned)
  | s, pinned, n :: rest =>
    match pin? n with
    | none => readPins s pinned rest
    | some text =>
      match Layout.parse text with
      | .error f => (s, .error f)
      | .ok l =>
        let s := if text = l.text then s else
          match s.updateNode (repin n l.text) with
          | .ok s => s
          | .error _ => s
        readPins s (pinned.insert n.name l) rest

/-- The usual layout of what a type of operator writes. -/
def usualLayout (type : String) : Layout :=
  if type = "dense" ∨ type = "softmax" then .nc else .nchw

/-- The layout of an edge by its producer. -/
def producerLayout (s : Sandbox) (pinned : Dict Layout) (e : Edge) : Layout :=
  match pinned.get? e.src with
  | some l => l
  | none => usualLayout (((s.node? e.src).map (·.type)).getD "")

/-- Respells the pins and gives the layouts of the edges that have none in `known`. -/
def normalize (s : Sandbox) (known : Dict Layout) : Sandbox × Except Failure (Dict Layout) :=
  match s.readPins {} s.nodes with
  | (s, .error f) => (s, .error f)
  | (s, .ok pinned) =>
    (s, .ok <| (s.edges.filter fun e => !known.contains e.id).foldl
      (fun out e => out.insert e.id (s.producerLayout pinned e)) {})

end OpGraph.Sandbox
