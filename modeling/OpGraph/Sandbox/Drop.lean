import OpGraph.Sandbox.Rewire

/-!
# Dropping a node

A node that only passes on what it reads is taken out: its producer feeds its consumers directly.
-/

namespace OpGraph.Sandbox

/-- Checks that the edge `e` out of `name` can be bypassed from `producer`. -/
def checkBypass (s : Sandbox) (name producer : String) (e : Edge) : Except Error Unit :=
  if s.isAnchor e.dst then .error (.consumerOutside e.dst name)
  else if s.isRegistered e.id then .error (.dropConsumes e.id)
  else if s.dag.hasArc producer e.dst then .error (.alreadyFeeds producer e.dst)
  else .ok ()

/-- The single edge into a node that can be dropped. -/
def dropSource (s : Sandbox) (name : String) : Except Error Edge := do
  if s.committed then throw .committed
  if !s.dag.hasVertex name then throw (.nodeMissing name)
  if s.isAnchor name then throw (.nodeOutside name)
  if s.isBoundaryOutput name then throw (.declaredOutput name)
  match s.inEdges name with
  | [src] =>
    if s.isRegistered src.id then throw (.dropConsumes src.id)
    (s.outEdges name).forM (s.checkBypass name src.src)
    return src
  | es => throw (.inputCount name es.length)

/-- The node that reads `new` wherever it read `old`. -/
def readInstead (old new : String) (n : Node) : Node :=
  { n with inputs := n.inputs.map fun v => if v = old then new else v }

/-- Feeds the consumer of an edge from `src` instead. -/
def bypass (src : Edge) (s : Sandbox) (e : Edge) : Sandbox :=
  let s := match s.node? e.dst with
    | none => s
    | some c => match s.updateNode (readInstead e.var src.var c) with
      | .ok s => s
      | .error _ => s
  s.rewire e { src with dst := e.dst, dstSlot := e.dstSlot, shape := [] }

/-- Drops a node that has one producer. -/
def drop (s : Sandbox) (name : String) : Except Error Sandbox := do
  let src ← s.dropSource name
  let outs := s.outEdges name
  return (outs.foldl (bypass src) (s.removeNode name)).pruneRenames

end OpGraph.Sandbox
