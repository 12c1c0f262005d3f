import OpGraph.Sandbox.Rewire

/-!
# Merging nodes

Several nodes are replaced by one that takes the place of the first. Its attributes are those of its members under
qualified names, its edges are those that crossed the border of the set, and its record names the members.
-/

namespace OpGraph.Sandbox

/-- Checks that the names are nodes of the region, each given once; `seen` are the names before. -/
def checkMembers (s : Sandbox) : List String → List String → Except Error Unit
  | _, [] => .ok ()
  | seen, name :: rest =>
    if !s.dag.hasVertex name then .error (.memberMissing name)
    else if s.isAnchor name then .error (.memberOutside name)
    else if seen.contains name then .error (.memberTwice name)
    else s.checkMembers (name :: seen) rest

/-- The edges between two of the given nodes. -/
def inner (s : Sandbox) (names : List String) : List Edge :=
  names.flatMap fun name => (s.inEdges name).filter fun e => names.contains e.src

/-- The edges into the given nodes from others. -/
def inbound (s : Sandbox) (names : List String) : List Edge :=
  names.flatMap fun name => (s.inEdges name).filter fun e => !names.contains e.src

/-- The edges from the given nodes to others. -/
def outbound (s : Sandbox) (names : List String) : List Edge :=
  names.flatMap fun name => (s.outEdges name).filter fun e => !names.contains e.dst

/-- The nodes of the given names. -/
def nodesOf (s : Sandbox) (names : List String) : List Node :=
  names.filterMap s.node?

/-- The variables read by a fused node: those its members read and do not write, then those its edges bring. -/
def fusedInputs (s : Sandbox) (names : List String) : List String :=
  let nodes := s.nodesOf names
  let produced := nodes.flatMap (·.outputs)
  let read := (nodes.flatMap (·.inputs)).filter fun v => !produced.contains v
  let brought := ((s.inbound names).map (·.var)).filter (· != "")
  (read ++ brought).foldl Graph.addOnce []

/-- The variables written by a fused node: those its edges take away, and those of its last member if there are none
or it is an output. -/
def fusedOutputs (s : Sandbox) (names : List String) : List String :=
  let taken := (((s.outbound names).map (·.var)).filter (· != "")).foldl Graph.addOnce []
  match names.getLast? with
  | none => taken
  | some last =>
    if taken.isEmpty || s.isBoundaryOutput last then
      (((s.node? last).map (·.outputs)).getD []).foldl Graph.addOnce taken
    else taken

/-- Adds attributes that are qualified already. -/
def adoptQualified : Attribute.Store → List (String × Attribute.Value) → Except Error Attribute.Store
  | attrs, [] => .ok attrs
  | attrs, (name, v) :: rest =>
    if attrs.contains name then .error (.attributeTwice name)
    else match Attribute.Store.set attrs name v with
      | .ok attrs => adoptQualified attrs rest
      | .error cause => .error (.badAttribute cause)

/-- Adds the attributes of a member: those of a fused one as they are, those of any other behind its name. -/
def adoptMember (s : Sandbox) (attrs : Attribute.Store) (n : Node) : Except Error Attribute.Store :=
  if s.merges.contains n.name then adoptQualified attrs n.attrs.entries
  else match Attribute.Store.merge attrs n.name n.attrs with
    | (attrs, none) => .ok attrs
    | (_, some cause) => .error (.badAttribute cause)

/-- The attributes of a fused node. -/
def fusedAttrs (s : Sandbox) (names : List String) : Except Error Attribute.Store :=
  (s.nodesOf names).foldlM s.adoptMember {}

/-- The payload of a fused node. -/
def fusedNode (s : Sandbox) (names : List String) (name type : String) : Except Error Node := do
  return {
    name
    type
    precision := ((s.nodesOf names).head?.map (·.precision)).getD .fp32
    attrs := ← s.fusedAttrs names
    inputs := s.fusedInputs names
    outputs := s.fusedOutputs names }

/-- Whether what a member writes is visible from outside. -/
def isExposed (s : Sandbox) (names : List String) (name : String) : Bool :=
  s.isBoundaryOutput name || (s.outbound names).any fun e => e.src == name && s.isRegistered e.id

/-- The members to keep after one more member. A fused one stands for its own last member. -/
def keepMember (s : Sandbox) (names : List String) (keep : List String) (name : String) : List String :=
  match s.mergeRecord? name with
  | none => if s.isExposed names name then keep ++ [name] else keep
  | some r =>
    let keep := r.keep.foldl Graph.addOnce keep
    if s.isExposed names name then r.members.getLast?.toList.foldl Graph.addOnce keep else keep

/-- The record of a fused node. Fused members are replaced by the members they stand for. -/
def provenance (s : Sandbox) (names : List String) (fused pattern : String) : MergeRecord where
  fused
  pattern
  members := names.flatMap fun name => match s.mergeRecord? name with
    | none => [name]
    | some r => r.members
  keep := names.foldl (s.keepMember names) []

/-- Drops the record of a member that was fused before. -/
def retire (s : Sandbox) (name : String) : Sandbox :=
  if !s.merges.contains name then s
  else
    let s := { s with merges := s.merges.erase name }
    if s.added.contains name then { s with newMerges := s.newMerges.filter (· != name) }
    else { s with supersedes := s.supersedes ++ [name] }

/-- The slot of a variable, or another one if it has none. -/
def slotOf (vars : List String) (var : String) (otherwise : Int) : Int :=
  match vars.findIdx? (· == var) with
  | some i => i
  | none => otherwise

/-- Moves an edge into a member to the fused node. -/
def rewireIn (fused : Node) (s : Sandbox) (e : Edge) : Sandbox :=
  s.rewire e { e with dst := fused.name, dstSlot := slotOf fused.inputs e.var e.dstSlot, shape := [] }

/-- Moves an edge out of a member to the fused node. -/
def rewireOut (fused : Node) (s : Sandbox) (e : Edge) : Sandbox :=
  s.rewire e { e with src := fused.name, srcSlot := slotOf fused.outputs e.var e.srcSlot, shape := [] }

/-- Adds a node made here. -/
def addNode (s : Sandbox) (n : Node) (seq : UInt64) : Sandbox :=
  { s with
    dag := match s.dag.addVertexAt n.name n seq with
      | .ok dag => dag
      | .error _ => s.dag
    taken := s.taken.add n.name
    added := s.added ++ [n.name] }

/-- Replaces nodes by a fused one. -/
def contract (s : Sandbox) (names : List String) (fused : Node) (record : MergeRecord) : Sandbox :=
  let seq := (names.head?.bind s.dag.seq?).getD 0
  let inbound := s.inbound names
  let outbound := s.outbound names
  let s := names.foldl retire s
  let s := names.foldl removeNode s
  let s := s.addNode fused seq
  let s := inbound.foldl (rewireIn fused) s
  let s := outbound.foldl (rewireOut fused) s
  let s := names.foldl (fun s name => s.moveBoundary name fused.name) s
  pruneRenames { s with
    merges := s.merges.insert fused.name record
    newMerges := s.newMerges ++ [fused.name] }

/-- Merges nodes into one. The set must be contractible: no edge inside it is registered, and no path leaves it and
comes back. -/
def merge (s : Sandbox) (names : List String) (fusedName fusedType pattern : String) :
    Except Error (Sandbox × Node) := do
  if s.committed then throw .committed
  if names.length < 2 then throw (.tooFew names.length)
  if s.taken.contains fusedName then throw (.fusedTaken fusedName)
  s.checkMembers [] names
  if let some e := (s.inner names).find? fun e => s.isRegistered e.id then throw (.mergeConsumes e.id)
  let inbound := s.inbound names
  if let some e := (s.outbound names).find? fun e => inbound.any fun i => s.dag.reachable e.dst i.src then
    throw (.mergeCycle names e.dst)
  let fused ← s.fusedNode names fusedName fusedType
  return (s.contract names fused (s.provenance names fusedName pattern), fused)

end OpGraph.Sandbox
