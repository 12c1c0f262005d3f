import OpGraph.Sandbox.Drop
import OpGraph.Sandbox.Merge

/-!
# Committing a sandbox

The differences of a sandbox as a patch, and its application to the graph the sandbox was taken from.
-/

namespace OpGraph.Sandbox

/-- The patch that makes the graph look like the sandbox. -/
def patch (s : Sandbox) : Patch where
  baseVersion := s.base
  removeEdges := s.removedEdges
  removeNodes := s.removedNodes
  addNodes := s.added.filterMap fun name => (s.dag.vertex? name).map fun v => ⟨v.val, v.seq⟩
  addEdges := s.edges.filter fun e => !s.baseEdges.contains e.id
  replaceNodes := (s.dag.vertices.filter fun v => s.modified.contains v.key).map (·.val)
  renamed := s.renamed
  boundary := s.boundary
  supersedes := s.supersedes
  merges := s.newMerges.filterMap s.mergeRecord?

/-- What a commit changed. -/
structure Changes where
  /-- The new identifiers of the edges that were moved. -/
  renamed : Dict EdgeId
  added : List String
  removed : List String
  merges : List MergeRecord
  deriving Repr

/-- What a patch changes. -/
def Changes.ofPatch (p : Patch) : Changes where
  renamed := p.renamed
  added := p.addNodes.map (·.node.name)
  removed := p.removeNodes
  merges := p.merges

/-- Applies a sandbox to a graph, once. Gives the graph, the sandbox and what changed. -/
def commit (s : Sandbox) (g : Graph) : Except Error (Graph × Sandbox × Changes) :=
  if s.committed then .error .committed
  else if g.name ≠ s.name then .error (.foreign s.name g.name)
  else match g.apply s.patch with
    | .ok g => .ok (g, { s with committed := true }, .ofPatch s.patch)
    | .error cause => .error (.rejected cause)

end OpGraph.Sandbox
