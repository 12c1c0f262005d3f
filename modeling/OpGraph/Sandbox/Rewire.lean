import OpGraph.Sandbox.Basic

/-!
# Steps of a change

The small steps that changes of a sandbox are made of, each of which keeps the account of the differences.
-/

namespace OpGraph.Sandbox

/-- Replaces the payload of a node that is not an anchor. -/
def updateNode (s : Sandbox) (n : Node) : Except Error Sandbox :=
  match s.dag.setVertex n.name n with
  | .error _ => .error (.nodeMissing n.name)
  | .ok dag =>
    if s.isAnchor n.name then .error (.nodeOutside n.name)
    else .ok { s with
      dag
      modified := if s.added.contains n.name then s.modified else s.modified.add n.name }

/-- Notes that an edge is no longer there. -/
def forgetEdge (s : Sandbox) (id : EdgeId) : Sandbox :=
  if s.baseEdges.contains id then
    { s with removedEdges := s.removedEdges ++ [id], baseEdges := s.baseEdges.erase id }
  else s

/-- Takes out a node with its edges. -/
def removeNode (s : Sandbox) (name : String) : Sandbox :=
  match s.dag.removeVertex name with
  | .error _ => s
  | .ok (dag, arcs) =>
    let s := arcs.foldl (fun s a => s.forgetEdge (.arc a.src a.dst)) { s with dag }
    if s.added.contains name then { s with added := s.added.filter (· != name) }
    else { s with removedNodes := s.removedNodes ++ [name], modified := s.modified.erase name }

/-- Puts `new` in the place of an edge that was taken out. The registration moves with it, and so does what it was
called in the graph. When the two nodes are joined already, the edge that joins them takes the place. -/
def rewire (s : Sandbox) (old new : Edge) : Sandbox :=
  let base := s.origin.getD old.id old.id
  let origin := s.origin.erase old.id
  let moved : Sandbox := { s with
    renamed := s.renamed.insert base new.id
    registered := Graph.moveRegistration s.registered old.id new.id }
  match s.dag.addArc new.src new.dst new with
  | .ok dag => { moved with dag, origin := origin.insert new.id base }
  | .error (.arcExists _ _) => { moved with origin }
  | .error _ => s

/-- Whether an edge of an identifier is there. -/
def hasEdge (s : Sandbox) (id : EdgeId) : Bool :=
  match id.endpoints? with
  | some (src, dst) => s.dag.hasArc src dst
  | none => false

/-- Forgets moved edges that are no longer there. -/
def pruneRenames (s : Sandbox) : Sandbox :=
  let gone := s.origin.entries.filter fun (id, _) => !s.hasEdge id
  { s with
    origin := s.origin.filter fun id _ => s.hasEdge id
    renamed := gone.foldl
      (fun renamed (id, base) => if renamed.get? base = some id then renamed.erase base else renamed) s.renamed }

/-- Notes that `new` took the place of a boundary node. -/
def redirectBoundary (s : Sandbox) (old new : String) : Sandbox :=
  if s.boundary.entries.any fun (_, current) => current == old then
    { s with boundary := s.boundary.map fun _ current => if current = old then new else current }
  else { s with boundary := s.boundary.insert old new }

/-- Puts `new` in the place of `old` in a set of names. -/
def replaceName (names : NameSet) (old new : String) : NameSet :=
  if names.contains old then NameSet.add (names.erase old) new else names

/-- Moves the part of a node in the boundary to another one. -/
def moveBoundary (s : Sandbox) (old new : String) : Sandbox :=
  if s.ins.contains old || s.outs.contains old then
    redirectBoundary { s with ins := replaceName s.ins old new, outs := replaceName s.outs old new } old new
  else s

end OpGraph.Sandbox
