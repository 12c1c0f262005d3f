import OpGraph.Graph.Patch

/-!
# Sandboxes

A copy of a graph, or of a region of it, that can be changed without the graph being touched. The sandbox keeps
track of how it differs from the graph it was taken from. Neighbours of the region are copied as anchors: they are
there so that every edge of the region has both its ends, and they can not be changed.
-/

namespace OpGraph

/-- A copy of a graph that is being changed. -/
structure Sandbox where
  /-- The name of the graph. -/
  name : String
  /-- The version of the graph at the time of the copy. -/
  base : Nat
  dag : Digraph Node Edge := {}
  anchors : NameSet := {}
  /-- The names that are no longer free: those of the graph and those of fused nodes. -/
  taken : NameSet := {}
  registered : NameSet := {}
  ins : NameSet := {}
  outs : NameSet := {}
  /-- The records of fused nodes, of the graph and of the sandbox. -/
  merges : Dict MergeRecord := {}
  /-- The edges of the graph that are still there. -/
  baseEdges : NameSet := {}
  removedEdges : List EdgeId := []
  removedNodes : List String := []
  /-- The nodes made here, oldest first. -/
  added : List String := []
  /-- The nodes of the graph that have a new payload. -/
  modified : NameSet := {}
  /-- For the current identifier of a moved edge, the identifier it had in the graph. -/
  origin : Dict EdgeId := {}
  /-- For the identifier of an edge in the graph, that of the edge it was moved to. -/
  renamed : Dict EdgeId := {}
  /-- For the name of a boundary node in the graph, that of the node that took its place. -/
  boundary : Dict String := {}
  /-- The fused nodes of the graph whose records went into newer ones. -/
  supersedes : List String := []
  /-- The fused nodes made here that have a record, oldest first. -/
  newMerges : List String := []
  committed : Bool := false
  deriving Repr, Inhabited

namespace Sandbox

/-- Why a sandbox can not do what it was asked for. -/
inductive Error where
  | regionMissing (node : String)
  | committed
  | tooFew (count : Nat)
  | fusedTaken (name : String)
  | memberMissing (node : String)
  | memberOutside (node : String)
  | memberTwice (node : String)
  | mergeConsumes (id : EdgeId)
  | mergeCycle (members : List String) (via : String)
  | badAttribute (cause : Attribute.Error)
  /-- Two fused members have one attribute name. -/
  | attributeTwice (name : String)
  | nodeMissing (node : String)
  | nodeOutside (node : String)
  | declaredOutput (node : String)
  | inputCount (node : String) (count : Nat)
  | dropConsumes (id : EdgeId)
  | consumerOutside (consumer node : String)
  | alreadyFeeds (producer consumer : String)
  /-- The sandbox was taken from a graph of another name. -/
  | foreign (own other : String)
  | rejected (cause : Graph.Error)
  deriving DecidableEq, Repr

/-- A list of names as it stands in a message. -/
def namesText (names : List String) : String :=
  "[" ++ " ".intercalate names ++ "]"

/-- How a call ends that meets an error. -/
def Error.toFault : Error → Fault
  | regionMissing node => .failure (.of .notFound s!"snapshot region node {Text.quote node}")
  | committed => .failure (.of .invalidGraph "sandbox already committed")
  | tooFew count => .failure (.of .invalidGraph s!"merge needs at least two nodes, have {count}")
  | fusedTaken name => .failure (.of .alreadyExists s!"fused node {Text.quote name}")
  | memberMissing node => .failure (.of .notFound s!"merge member {Text.quote node}")
  | memberOutside node =>
    .failure (.of .fusionConflict s!"merge member {Text.quote node} is outside the snapshot region")
  | memberTwice node => .failure (.of .invalidGraph s!"merge member {Text.quote node} listed twice")
  | mergeConsumes id => .failure (.of .fusionConflict s!"merge would consume registered edge {id}")
  | mergeCycle members via =>
    .failure (.of .fusionConflict s!"merging {namesText members} would create a cycle through {via}")
  | badAttribute cause => .failure cause.toFailure
  | attributeTwice name => .failure (.of .alreadyExists s!"attribute {Text.quote name}")
  | nodeMissing node => .failure (.of .notFound s!"node {Text.quote node}")
  | nodeOutside node => .failure (.of .fusionConflict s!"node {Text.quote node} is outside the snapshot region")
  | declaredOutput node => .failure (.of .fusionConflict s!"node {Text.quote node} is a declared output")
  | inputCount node count => .failure (.of .invalidGraph s!"node {Text.quote node} has {count} inputs, want 1")
  | dropConsumes id => .failure (.of .fusionConflict s!"drop would consume registered edge {id}")
  | consumerOutside consumer node =>
    .failure (.of .fusionConflict
      s!"consumer {Text.quote consumer} of {Text.quote node} is outside the snapshot region")
  | alreadyFeeds producer consumer =>
    .failure (.of .fusionConflict s!"{Text.quote producer} already feeds {Text.quote consumer} directly")
  | foreign own other =>
    .failure (.of .fusionConflict s!"sandbox of {Text.quote own} committed to {Text.quote other}")
  | rejected cause =>
    match cause.toFault with
    | .abort message => .abort message
    | .failure f =>
      .failure (if f.kind = .fusionConflict then f else .wrap .fusionConflict "commit rejected" f)

instance : Reported Error := ⟨fun e => e.toFault⟩

/-! ### Taking a copy -/

/-- The neighbours of a region in a graph. -/
def anchorsOf (g : Graph) (region : List String) : NameSet :=
  NameSet.ofList <| region.flatMap fun name =>
    (g.dag.preds name ++ g.dag.succs name).filter fun n => !region.contains n

/-- Copies the part of a graph inside `region`, or all of it. -/
def copy (g : Graph) (region : Option (List String)) : Sandbox :=
  let anchors := match region with
    | none => {}
    | some names => anchorsOf g names
  let included := fun name => match region with
    | none => true
    | some names => names.contains name || anchors.contains name
  let vertices := g.dag.vertices.filter fun v => included v.key
  let arcs := g.dag.arcsBySource.filter fun a =>
    included a.src && included a.dst && !(anchors.contains a.src && anchors.contains a.dst)
  { name := g.name
    base := g.version
    dag := .ofArcs vertices arcs (vertices.foldl (fun n v => if v.seq ≥ n then v.seq + 1 else n) 0)
    anchors
    taken := NameSet.ofList g.names
    registered := g.registered
    ins := NameSet.ofList g.ins
    outs := NameSet.ofList g.outs
    merges := Dict.ofList (g.merges.map fun r => (r.fused, r))
    baseEdges := NameSet.ofList (arcs.map fun a => a.val.id) }

/-- Takes a sandbox of a region of a graph, each node of which must exist, or of the whole graph. -/
def snapshot (g : Graph) (region : Option (List String)) : Except Error Sandbox :=
  match (region.getD []).find? fun name => !g.hasNode name with
  | some name => .error (.regionMissing name)
  | none => .ok (copy g region)

/-! ### Views -/

/-- The names of the nodes in their order. -/
def names (s : Sandbox) : List String :=
  s.dag.keys

/-- The nodes in their order. -/
def nodes (s : Sandbox) : List Node :=
  s.dag.vertices.map (·.val)

/-- The node of a name. -/
def node? (s : Sandbox) (name : String) : Option Node :=
  s.dag.val? name

/-- The edge between two nodes. -/
def edge? (s : Sandbox) (src dst : String) : Option Edge :=
  (s.dag.arc? src dst).map (·.val)

/-- The edges, those of one producer together and the producers in their order. -/
def edges (s : Sandbox) : List Edge :=
  s.dag.arcsBySource.map (·.val)

/-- The edges that leave a node. -/
def outEdges (s : Sandbox) (name : String) : List Edge :=
  (s.dag.outArcs name).map (·.val)

/-- The edges that enter a node. -/
def inEdges (s : Sandbox) (name : String) : List Edge :=
  (s.dag.inArcs name).map (·.val)

/-- Whether a node is a neighbour of the region. -/
def isAnchor (s : Sandbox) (name : String) : Bool :=
  s.anchors.contains name

/-- Whether an edge is registered. -/
def isRegistered (s : Sandbox) (id : EdgeId) : Bool :=
  s.registered.contains id

/-- Whether a node is an output of the boundary. -/
def isBoundaryOutput (s : Sandbox) (name : String) : Bool :=
  s.outs.contains name

/-- The record of a fused node. -/
def mergeRecord? (s : Sandbox) (fused : String) : Option MergeRecord :=
  s.merges.get? fused

/-- Whether anything was changed. -/
def changed (s : Sandbox) : Bool :=
  !s.removedEdges.isEmpty || !s.removedNodes.isEmpty || !s.added.isEmpty || !s.modified.isEmpty

/-! ### Free names -/

/-- A name with a number behind it. -/
def numbered (base : String) (i : Nat) : String :=
  base ++ "_" ++ toString i

/-- A free name: `base` itself, or with the least number that makes it free. Of as many numbers as there are taken
names, one is free. -/
def uniqueName (s : Sandbox) (base : String) : String :=
  if s.taken.contains base then
    match (List.range s.taken.size).find? fun i => !s.taken.contains (numbered base (i + 1)) with
    | some i => numbered base (i + 1)
    | none => base
  else base

end Sandbox

end OpGraph
