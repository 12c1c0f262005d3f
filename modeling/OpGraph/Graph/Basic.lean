import OpGraph.Digraph.Basic
import OpGraph.Graph.Edge
import OpGraph.Graph.Node
import OpGraph.Schedule

/-!
# Operator graphs

The nodes and edges of a network, the edges that are registered as outputs, the nodes at its boundary, and a record
for each node that fusion put in the place of others.
-/

namespace OpGraph

/-- Which nodes a fused node stands for. -/
structure MergeRecord where
  fused : String
  pattern : String
  /-- The nodes it stands for, none of which is itself a fused one. -/
  members : List String
  /-- The members whose outputs stay visible from outside. -/
  keep : List String
  deriving Repr, DecidableEq, Inhabited

/-- A graph of operators. -/
structure Graph where
  name : String
  dag : Digraph Node Edge := {}
  /-- The nodes that read nothing. -/
  ins : List String := []
  /-- The nodes that nobody reads. -/
  outs : List String := []
  merges : List MergeRecord := []
  /-- The identifiers of the edges that are visible from outside. -/
  registered : NameSet := {}
  frozen : Bool := false
  optimized : Bool := false
  /-- The number of changes of the topology that were committed; a counter that wraps around is left out. -/
  version : Nat := 0
  deriving Repr, Inhabited

namespace Graph

/-- A structural rule that a graph breaks. -/
inductive Violation where
  | payload (id : EdgeId)
  | registered (id : EdgeId)
  | boundary (node : String)
  | fused (node : String)
  | cyclic (graph : String) (cause : Digraph.Error)
  deriving DecidableEq, Repr

/-- The failure a violation is reported as. -/
def Violation.toFailure : Violation → Failure
  | payload id => .of .invalidGraph s!"edge payload disagrees with arc {id}"
  | registered id => .of .invalidGraph s!"registered edge {id} does not exist"
  | boundary node => .of .invalidGraph s!"boundary node {Text.quote node} does not exist"
  | fused node => .of .invalidGraph s!"fused node {Text.quote node} does not exist"
  | cyclic graph cause => .wrap .invalidGraph s!"graph {Text.quote graph} is cyclic" cause.toFailure

instance : Reported Violation := ⟨fun e => .failure e.toFailure⟩

/-- Why a graph can not be changed as asked. -/
inductive Error where
  | frozenNode (node : String)
  | frozenEdge (id : EdgeId)
  | unnamedNode
  | nodeExists (node : String)
  | nodeMissing (node : String)
  | negativeSlot (id : EdgeId)
  | edge (id : EdgeId) (cause : Digraph.Error)
  | edgeMissing (id : EdgeId)
  | carriesRegistered (node : String) (id : EdgeId)
  /-- The patch was made for another version. -/
  | stale (base current : Nat)
  | removesRegistered (id : EdgeId)
  | removesSynthetic (id : EdgeId)
  | removesEdge (id : EdgeId) (cause : Digraph.Error)
  | removesNode (node : String)
  | leavesEdges (node : String)
  | addsNode (node : String) (cause : Digraph.Error)
  | replacesNode (node : String) (cause : Digraph.Error)
  /-- The patched graph breaks a structural rule. -/
  | broken (graph : String) (violation : Violation)
  deriving DecidableEq, Repr

/-- The kind under which the graph reports an error of its digraph about an edge. -/
def edgeKind : Digraph.Error → Kind
  | .vertexMissing _ | .sourceMissing _ | .targetMissing _ => .notFound
  | .arcExists _ _ => .alreadyExists
  | _ => .invalidGraph

/-- How a call ends that meets an error. A patch that passes its checks and still breaks the graph is not a failure
of the caller: it aborts. -/
def Error.toFault : Error → Fault
  | frozenNode node => .failure (.of .frozenViolation s!"can not add node {Text.quote node} to a frozen graph")
  | frozenEdge id => .failure (.of .frozenViolation s!"can not add edge {id} to a frozen graph")
  | unnamedNode => .failure (.of .invalidGraph "node name is empty")
  | nodeExists node => .failure (.of .alreadyExists s!"node {Text.quote node}")
  | nodeMissing node => .failure (.of .notFound s!"node {Text.quote node}")
  | negativeSlot id => .failure (.of .invalidGraph s!"edge {id} has a negative slot")
  | edge id cause => .failure (.wrap (edgeKind cause) s!"edge {id}" cause.toFailure)
  | edgeMissing id => .failure (.of .notFound s!"edge {id}")
  | carriesRegistered node id =>
    .failure (.of .fusionConflict s!"node {Text.quote node} carries registered edge {id}")
  | stale base current =>
    .failure (.of .fusionConflict s!"graph changed since snapshot (base {base}, current {current})")
  | removesRegistered id => .failure (.of .fusionConflict s!"patch removes registered edge {id}")
  | removesSynthetic id => .failure (.of .invalidGraph s!"patch removes synthetic edge {id}")
  | removesEdge id cause => .failure (.wrap .notFound s!"patch removes edge {id}" cause.toFailure)
  | removesNode node => .failure (.of .notFound s!"patch removes node {Text.quote node}")
  | leavesEdges node =>
    .failure (.of .invalidGraph s!"patch removes node {Text.quote node} but leaves its edges")
  | addsNode node cause => .failure (.wrap .alreadyExists s!"patch adds node {Text.quote node}" cause.toFailure)
  | replacesNode node cause =>
    .failure (.wrap .notFound s!"patch replaces node {Text.quote node}" cause.toFailure)
  | broken graph violation =>
    .abort s!"ir: committed graph {Text.quote graph} violates invariants: {violation.toFailure.text}"

instance : Reported Error := ⟨fun e => e.toFault⟩

/-! ### Views -/

/-- The names of the nodes in their order. -/
def names (g : Graph) : List String :=
  g.dag.keys

/-- The nodes in their order. -/
def nodes (g : Graph) : List Node :=
  g.dag.vertices.map (·.val)

/-- Whether a name has a node. -/
def hasNode (g : Graph) (name : String) : Bool :=
  g.dag.hasVertex name

/-- The node of a name. -/
def node? (g : Graph) (name : String) : Option Node :=
  g.dag.val? name

/-- The edge between two nodes. -/
def edge? (g : Graph) (src dst : String) : Option Edge :=
  (g.dag.arc? src dst).map (·.val)

/-- The edge of an identifier. -/
def edgeById? (g : Graph) (id : EdgeId) : Option Edge :=
  match id.endpoints? with
  | some (src, dst) => g.edge? src dst
  | none => none

/-- The edges, those of one producer together and the producers in their order. -/
def edges (g : Graph) : List Edge :=
  g.dag.arcsBySource.map (·.val)

/-- The edges that carry a variable. -/
def edgesCarrying (g : Graph) (var : String) : List Edge :=
  g.edges.filter (·.var == var)

/-- The edges that leave a node. -/
def outEdges (g : Graph) (name : String) : List Edge :=
  (g.dag.outArcs name).map (·.val)

/-- The edges that enter a node. -/
def inEdges (g : Graph) (name : String) : List Edge :=
  (g.dag.inArcs name).map (·.val)

/-- Whether a node is an output of the boundary. -/
def isBoundaryOutput (g : Graph) (name : String) : Bool :=
  g.outs.contains name

/-- Whether an edge is registered. -/
def isRegistered (g : Graph) (id : EdgeId) : Bool :=
  g.registered.contains id

/-- The record of a fused node. -/
def mergeRecord? (g : Graph) (fused : String) : Option MergeRecord :=
  g.merges.find? (·.fused == fused)

/-- The nodes in an order in which each comes after those it reads from. -/
def order (g : Graph) : Except Topology.Stuck (List String) :=
  g.dag.topology.order

/-! ### Changes -/

/-- Adds a node behind all others. -/
def insertNode (g : Graph) (n : Node) : Except Error Graph :=
  if g.frozen then .error (.frozenNode n.name)
  else if n.name = "" then .error .unnamedNode
  else match g.dag.addVertex n.name n with
    | .ok dag => .ok { g with dag }
    | .error _ => .error (.nodeExists n.name)

/-- Adds an edge between two nodes. -/
def connect (g : Graph) (e : Edge) : Except Error Graph :=
  if g.frozen then .error (.frozenEdge e.id)
  else if e.srcSlot < 0 || e.dstSlot < 0 then .error (.negativeSlot e.id)
  else match g.dag.addArc e.src e.dst e with
    | .ok dag => .ok { g with dag }
    | .error cause => .error (.edge e.id cause)

/-- The variable a node writes in a slot; a slot it does not have carries the variable without a name. -/
def variableAt (g : Graph) (name : String) (slot : Int) : String :=
  match g.node? name with
  | none => ""
  | some n => if slot < 0 then "" else (n.outputs[slot.toNat]?).getD ""

/-- Adds an edge that carries what the producer writes in its slot. -/
def addEdge (g : Graph) (src : String) (srcSlot : Int) (dst : String) (dstSlot : Int) : Except Error Graph :=
  g.connect { src, dst, srcSlot, dstSlot, var := g.variableAt src srcSlot }

/-- Removes a node and its edges, none of which may be registered. -/
def removeNode (g : Graph) (name : String) : Except Error Graph :=
  if !g.hasNode name then .error (.nodeMissing name)
  else
    match (g.inEdges name ++ g.outEdges name).find? fun e => g.isRegistered e.id with
    | some e => .error (.carriesRegistered name e.id)
    | none => .ok { g with dag := g.dag.dropVertex name }

/-- Replaces the payload of a node. -/
def updateNode (g : Graph) (name : String) (f : Node → Node) : Graph :=
  { g with dag := { g.dag with
      vertices := g.dag.vertices.map fun v => if v.key = name then { v with val := f v.val } else v } }

/-- Registers the edge between two nodes as an output. -/
def registerOutput (g : Graph) (src dst : String) : Except Error Graph :=
  if (g.edge? src dst).isSome then .ok { g with registered := g.registered.add (EdgeId.arc src dst) }
  else .error (.edgeMissing (.arc src dst))

/-- Registers every edge as an output. -/
def registerAllOutputs (g : Graph) : Graph :=
  { g with registered := g.edges.foldl (fun s e => s.add e.id) g.registered }

end Graph

end OpGraph
