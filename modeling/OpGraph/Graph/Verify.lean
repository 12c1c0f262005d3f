import OpGraph.Graph.Basic

/-!
# The rules of a graph

Edges agree with the nodes they are filed under; registered edges, boundary nodes and fused nodes exist; and there
is no cycle.
-/

namespace OpGraph.Graph

/-- The first element without a property becomes a violation. -/
def checkAll {α : Type} (ok : α → Bool) (violation : α → Violation) (xs : List α) : Except Violation Unit :=
  match xs.find? fun x => !ok x with
  | some x => .error (violation x)
  | none => .ok ()

/-- Reports the first rule that a graph breaks. Any topological sort finds out whether there is a cycle; `checkAcyclic`
stands for the sort of a graph library, and the cause of a cycle is told in its words. -/
def verify (g : Graph) : Except Violation Unit := do
  checkAll (fun a => a.val.src == a.src && a.val.dst == a.dst) (fun a => .payload (.arc a.src a.dst))
    g.dag.arcsBySource
  checkAll (fun id => (g.edgeById? id).isSome) .registered g.registered.keys
  checkAll g.hasNode .boundary g.ins
  checkAll g.hasNode .boundary g.outs
  checkAll (fun r => g.hasNode r.fused) (fun r => .fused r.fused) g.merges
  match g.dag.checkAcyclic with
  | .ok () => .ok ()
  | .error cause => .error (.cyclic g.name cause)

end OpGraph.Graph
