import OpGraph.Graph.Verify

/-!
# Patches

A change of a graph that was worked out on a copy of it. It is applied as a whole or not at all.
-/

namespace OpGraph

/-- A node together with its place in the order of the nodes. -/
structure PlacedNode where
  node : Node
  seq : UInt64
  deriving Repr, Inhabited

/-- A change of a graph. -/
structure Patch where
  /-- The version of the graph the change was worked out for. -/
  baseVersion : Nat := 0
  removeEdges : List EdgeId := []
  removeNodes : List String := []
  addNodes : List PlacedNode := []
  addEdges : List Edge := []
  /-- The new payloads of nodes that stay. -/
  replaceNodes : List Node := []
  /-- The new identifiers of registered edges. -/
  renamed : Dict EdgeId := {}
  /-- The new names of boundary nodes. -/
  boundary : Dict String := {}
  /-- The fused nodes whose records are dropped. -/
  supersedes : List String := []
  merges : List MergeRecord := []
  deriving Repr, Inhabited

/-- Whether a patch changes nothing. -/
def Patch.isEmpty (p : Patch) : Bool :=
  p.removeEdges.isEmpty && p.removeNodes.isEmpty && p.addNodes.isEmpty && p.addEdges.isEmpty &&
    p.replaceNodes.isEmpty && p.merges.isEmpty

namespace Graph

/-- Takes an edge out for a patch. -/
def patchOutEdge (dag : Digraph Node Edge) (id : EdgeId) : Except Error (Digraph Node Edge) :=
  match id.endpoints? with
  | none => .error (.removesSynthetic id)
  | some (src, dst) =>
    match dag.removeArc src dst with
    | .ok (dag, _) => .ok dag
    | .error cause => .error (.removesEdge id cause)

/-- Takes a node out for a patch, which must have taken out its edges before. -/
def patchOutNode (dag : Digraph Node Edge) (name : String) : Except Error (Digraph Node Edge) :=
  if !dag.hasVertex name then .error (.removesNode name)
  else if dag.inDegree name + dag.outDegree name > 0 then .error (.leavesEdges name)
  else .ok (dag.dropVertex name)

/-- Puts a node in for a patch. -/
def patchInNode (dag : Digraph Node Edge) (p : PlacedNode) : Except Error (Digraph Node Edge) :=
  match dag.addVertexAt p.node.name p.node p.seq with
  | .ok dag => .ok dag
  | .error cause => .error (.addsNode p.node.name cause)

/-- Replaces the payload of a node for a patch. -/
def patchNode (dag : Digraph Node Edge) (n : Node) : Except Error (Digraph Node Edge) :=
  match dag.setVertex n.name n with
  | .ok dag => .ok dag
  | .error cause => .error (.replacesNode n.name cause)

/-- Puts an edge in for a patch. -/
def patchInEdge (dag : Digraph Node Edge) (e : Edge) : Except Error (Digraph Node Edge) :=
  match dag.addArc e.src e.dst e with
  | .ok dag => .ok dag
  | .error cause => .error (.edge e.id cause)

/-- Changes the nodes and edges as a patch says: edges out, nodes out, nodes in, payloads, edges in. -/
def patchTopology (dag : Digraph Node Edge) (p : Patch) : Except Error (Digraph Node Edge) := do
  let dag ← p.removeEdges.foldlM patchOutEdge dag
  let dag ← p.removeNodes.foldlM patchOutNode dag
  let dag ← p.addNodes.foldlM patchInNode dag
  let dag ← p.replaceNodes.foldlM patchNode dag
  p.addEdges.foldlM patchInEdge dag

/-- Moves a registration from one identifier to another. -/
def moveRegistration (registered : NameSet) (old new : EdgeId) : NameSet :=
  if registered.contains old then NameSet.add (registered.erase old) new else registered

/-- The registered edges under their new identifiers. The order in which these are taken up matters only if one is given
that is itself to be replaced. -/
def renameRegistered (registered : NameSet) (renamed : Dict EdgeId) : NameSet :=
  renamed.entries.foldl (fun s (old, new) => moveRegistration s old new) registered

/-- Adds a name behind a list unless it is there. -/
def addOnce (names : List String) (name : String) : List String :=
  if names.contains name then names else names ++ [name]

/-- A list of boundary nodes under their new names, each once. Without new names it is left as it is. -/
def renameBoundary (names : List String) (boundary : Dict String) : List String :=
  if boundary.isEmpty then names
  else names.foldl (fun out n => addOnce out (boundary.getD n n)) []

/-- Applies a patch. It must have been made for this version, and it may take out a registered edge only if it says
what becomes of it. -/
def apply (g : Graph) (p : Patch) : Except Error Graph :=
  if p.baseVersion ≠ g.version then .error (.stale p.baseVersion g.version)
  else match p.removeEdges.find? fun id => g.isRegistered id && !p.renamed.contains id with
    | some id => .error (.removesRegistered id)
    | none =>
      if p.isEmpty then .ok g
      else do
        let dag ← patchTopology g.dag p
        let next := { g with
          dag
          registered := renameRegistered g.registered p.renamed
          ins := renameBoundary g.ins p.boundary
          outs := renameBoundary g.outs p.boundary
          merges := g.merges.filter (fun r : MergeRecord => !p.supersedes.contains r.fused) ++ p.merges
          version := g.version + 1 }
        match next.verify with
        | .ok () => .ok next
        | .error violation => .error (.broken g.name violation)

end Graph

end OpGraph
