import OpGraph.Graph.Verify
import OpGraph.Network.Basic

/-!
# Freezing a network

The declared variables become nodes, every operator is joined to the producers of the variables it reads, and what
was declared about edges is resolved. A network that can not be frozen stays as it was.
-/

namespace OpGraph.Network

/-- Where a variable is written. -/
structure Producer where
  node : String
  slot : Nat
  deriving DecidableEq, Repr

/-- Adds the variables that a node writes from a slot on. -/
def addProducers (node : String) : Nat → Dict Producer → List String → Except Cause (Dict Producer)
  | _, ps, [] => .ok ps
  | slot, ps, v :: vs =>
    match ps.get? v with
    | some p => .error (.writtenTwice v p.node node)
    | none => addProducers node (slot + 1) (ps.insert v ⟨node, slot⟩) vs

/-- Where each variable is written; none is written twice. -/
def producers (nodes : List Node) : Except Cause (Dict Producer) :=
  nodes.foldlM (fun ps n => addProducers n.name 0 ps n.outputs) {}

/-- Adds an edge unless its two nodes are joined already. -/
def joinOnce (g : Graph) (e : Edge) : Except Cause Graph :=
  match g.connect e with
  | .ok g => .ok g
  | .error (.edge _ (.arcExists _ _)) => .ok g
  | .error cause => .error (.graph cause)

/-- Joins a node to the producers of the variables it reads from a slot on. -/
def joinInputs (ps : Dict Producer) (node : String) : Nat → Graph → List String → Except Cause Graph
  | _, g, [] => .ok g
  | slot, g, v :: vs =>
    match ps.get? v with
    | none => .error (.undefinedVar node v)
    | some p =>
      if p.node = node then .error (.ownOutput node v)
      else do
        let g ← joinOnce g { src := p.node, dst := node, srcSlot := p.slot, dstSlot := slot, var := v }
        joinInputs ps node (slot + 1) g vs

/-- Joins every node to the producers of the variables it reads. -/
def join (g : Graph) : Except Cause Graph := do
  let ps ← producers g.nodes
  g.nodes.foldlM (fun g n => joinInputs ps n.name 0 g n.inputs) g

/-- Adds a node for a variable that comes from outside. -/
def addInput (g : Graph) (var : String) : Except Cause Graph :=
  match g.insertNode { name := var, type := "Input", outputs := [var] } with
  | .ok g => .ok g
  | .error cause => .error (.graph cause)

/-- The graph with the nodes that read nothing and those that nobody reads as its boundary. -/
def bound (g : Graph) : Graph :=
  { g with
    ins := g.names.filter fun name => g.dag.inDegree name == 0
    outs := g.names.filter fun name => (g.dag.succs name).isEmpty }

/-- Registers the edge between two nodes as an output. -/
def registerOut (g : Graph) (out : String × String) : Except Cause Graph :=
  match g.registerOutput out.1 out.2 with
  | .ok g => .ok g
  | .error cause => .error (.graph cause)

/-- The frozen graph of a network, its order and its calibration. -/
def resolve (n : Network) : Except Cause (Graph × List String × Calibration) := do
  let g ← n.build.vars.foldlM addInput n.graph
  let g ← join g
  let g ← n.build.outs.foldlM registerOut (bound g)
  let g := if n.build.registerAll then g.registerAllOutputs else g
  match g.order with
  | .error cause => throw (.unordered cause)
  | .ok order =>
    let g := { g with frozen := true }
    match g.verify with
    | .error cause => throw (.violation cause)
    | .ok () =>
      let c ← n.build.varScales.foldlM (fun c (var, scale) => scaleVar g c var scale) n.calibration
      return (g, order, c)

/-- Freezes a network. -/
def freeze (n : Network) : Except Error Network :=
  failing .freeze do
    if n.state ≠ .building then throw (.alreadyFrozen n.state)
    let (graph, order, calibration) ← n.resolve
    return { n with
      graph
      calibration
      order := some order
      state := .frozen
      build := {}
      epoch := n.epoch + 1 }

end OpGraph.Network
