import OpGraph.Data.Dict
import OpGraph.Failure

/-!
# Digraphs

A directed graph over named vertices with a payload on every vertex and every arc. Vertices are listed by
ascending sequence numbers, arcs in the order in which they were added. What an arc joins is written down three times:
beside its payload, in the list of successors of its source and in the list of predecessors of its target. The number of
arcs is counted apart from them. Every change has to keep all of these up to date.
-/

namespace OpGraph

/-- A vertex: its name, its payload and its place in the order of the vertices. -/
structure Vertex (α : Type) where
  key : String
  val : α
  seq : UInt64
  deriving Repr, DecidableEq

/-- An arc: its ends and its payload. -/
structure Arc (β : Type) where
  src : String
  dst : String
  val : β
  deriving Repr, DecidableEq

/-- A directed graph. -/
structure Digraph (α β : Type) where
  /-- The vertices by ascending sequence number. -/
  vertices : List (Vertex α)
  /-- The arcs with their payloads, in the order in which they were added. -/
  arcs : List (Arc β)
  /-- For every vertex, the ends of the arcs that leave it. -/
  out : Dict (List String)
  /-- For every vertex, the starts of the arcs that enter it. -/
  into : Dict (List String)
  /-- The number of arcs. -/
  arcCount : Int
  /-- The sequence number of the next vertex added at the end. -/
  nextSeq : UInt64
  deriving Repr, DecidableEq

namespace Digraph

variable {α β : Type}

instance : EmptyCollection (Digraph α β) := ⟨⟨[], [], {}, {}, 0, 0⟩⟩
instance : Inhabited (Digraph α β) := ⟨∅⟩

/-- Why a graph can not be changed as asked. -/
inductive Error where
  | vertexExists (key : String)
  | vertexMissing (key : String)
  | sourceMissing (key : String)
  | targetMissing (key : String)
  | arcExists (src dst : String)
  | arcMissing (src dst : String)
  | selfLoop (src dst : String)
  | closesCycle (src dst : String)
  | onCycle (key : String)
  deriving DecidableEq, Repr

/-- The text of an error. -/
def Error.text : Error → String
  | vertexExists k => s!"vertex already exists: {k}"
  | vertexMissing k => s!"vertex not found: {k}"
  | sourceMissing k => s!"vertex not found: source {k}"
  | targetMissing k => s!"vertex not found: destination {k}"
  | arcExists a b => s!"arc already exists: {a} -> {b}"
  | arcMissing a b => s!"arc not found: {a} -> {b}"
  | selfLoop a b => s!"self-referential arc not allowed: {a} -> {b}"
  | closesCycle a b => s!"arc would create a cycle: {a} -> {b}"
  | onCycle k => s!"arc would create a cycle: involving vertex {k}"

/-- The failure an error is reported as. -/
def Error.toFailure (e : Error) : Failure :=
  .plain e.text

instance : Reported Error := ⟨fun e => .failure e.toFailure⟩

/-! ### Views -/

/-- The names of the vertices in their order. -/
def keys (g : Digraph α β) : List String :=
  g.vertices.map (·.key)

/-- The vertex of a name. -/
def vertex? (g : Digraph α β) (k : String) : Option (Vertex α) :=
  g.vertices.find? (·.key == k)

/-- Whether a name has a vertex. -/
def hasVertex (g : Digraph α β) (k : String) : Bool :=
  (g.vertex? k).isSome

/-- The payload of a vertex. -/
def val? (g : Digraph α β) (k : String) : Option α :=
  (g.vertex? k).map (·.val)

/-- The sequence number of a vertex. -/
def seq? (g : Digraph α β) (k : String) : Option UInt64 :=
  (g.vertex? k).map (·.seq)

/-- The arc between two vertices. -/
def arc? (g : Digraph α β) (src dst : String) : Option (Arc β) :=
  g.arcs.find? fun a => a.src == src && a.dst == dst

/-- Whether two vertices are joined by an arc. -/
def hasArc (g : Digraph α β) (src dst : String) : Bool :=
  (g.arc? src dst).isSome

/-- The ends of the arcs that leave a vertex. -/
def succs (g : Digraph α β) (k : String) : List String :=
  g.out.getD k []

/-- The starts of the arcs that enter a vertex. -/
def preds (g : Digraph α β) (k : String) : List String :=
  g.into.getD k []

/-- The arcs that leave a vertex, in the order in which they were added. -/
def outArcs (g : Digraph α β) (k : String) : List (Arc β) :=
  (g.succs k).filterMap fun dst => g.arc? k dst

/-- The arcs that enter a vertex, in the order in which they were added. -/
def inArcs (g : Digraph α β) (k : String) : List (Arc β) :=
  (g.preds k).filterMap fun src => g.arc? src k

/-- The number of arcs that enter a vertex. -/
def inDegree (g : Digraph α β) (k : String) : Nat :=
  (g.preds k).length

/-- The number of arcs that leave a vertex. -/
def outDegree (g : Digraph α β) (k : String) : Nat :=
  (g.succs k).length

/-- All arcs, those of one source together and the sources in the order of the vertices. -/
def arcsBySource (g : Digraph α β) : List (Arc β) :=
  g.keys.flatMap g.outArcs

/-! ### Reachability -/

/-- The names of `remaining` that can be reached from `pending` through `remaining`. Each step takes the first
pending name that remains, so as many steps as there are remaining names are enough. -/
def gather (next : String → List String) : Nat → List String → List String → List String
  | 0, _, _ => []
  | n + 1, remaining, pending =>
    match pending.dropWhile fun k => !remaining.contains k with
    | [] => []
    | k :: rest => k :: gather next n (remaining.erase k) (next k ++ rest)

/-- The vertices that can be reached from a name by following arcs, itself included. -/
def reachableFrom (g : Digraph α β) (k : String) : List String :=
  gather g.succs g.keys.length g.keys [k]

/-- Whether one vertex can be reached from another by following arcs; every vertex reaches itself. -/
def reachable (g : Digraph α β) (src dst : String) : Bool :=
  (g.reachableFrom src).contains dst

/-- Visits a vertex depth first and adds it to the finished ones; a vertex met again on its own path lies on a
cycle. A path has no more vertices than the graph, which bounds the depth. -/
def visit (g : Digraph α β) : Nat → List String → List String → String → Except Error (List String)
  | 0, _, done, _ => .ok done
  | n + 1, path, done, k =>
    if done.contains k then .ok done
    else if path.contains k then .error (.onCycle k)
    else do
      let done ← (g.succs k).foldlM (fun done next => g.visit n (k :: path) done next) done
      return k :: done

/-- Reports a vertex on a cycle, if the graph has one. -/
def checkAcyclic (g : Digraph α β) : Except Error Unit := do
  let _ ← g.keys.foldlM (fun done k => g.visit (g.keys.length + 1) [] done k) []

/-! ### Changes -/

/-- Puts a vertex behind all that have no greater sequence number. -/
def place (v : Vertex α) : List (Vertex α) → List (Vertex α)
  | [] => [v]
  | w :: ws => if v.seq < w.seq then v :: w :: ws else w :: place v ws

/-- Adds a vertex with a given sequence number. -/
def addVertexAt (g : Digraph α β) (k : String) (val : α) (seq : UInt64) : Except Error (Digraph α β) :=
  if g.hasVertex k then .error (.vertexExists k)
  else .ok { g with
    vertices := place ⟨k, val, seq⟩ g.vertices
    out := g.out.insert k []
    into := g.into.insert k []
    nextSeq := if seq ≥ g.nextSeq then seq + 1 else g.nextSeq }

/-- Adds a vertex behind all others. -/
def addVertex (g : Digraph α β) (k : String) (val : α) : Except Error (Digraph α β) :=
  g.addVertexAt k val g.nextSeq

/-- Replaces the payload of a vertex. -/
def setVertex (g : Digraph α β) (k : String) (val : α) : Except Error (Digraph α β) :=
  if g.hasVertex k then
    .ok { g with vertices := g.vertices.map fun v => if v.key = k then { v with val := val } else v }
  else .error (.vertexMissing k)

/-- Adds an arc between two vertices that are not joined yet, unless it closes a cycle. -/
def addArc (g : Digraph α β) (src dst : String) (val : β) : Except Error (Digraph α β) :=
  if src = dst then .error (.selfLoop src dst)
  else if !g.hasVertex src then .error (.sourceMissing src)
  else if !g.hasVertex dst then .error (.targetMissing dst)
  else if g.hasArc src dst then .error (.arcExists src dst)
  else if g.reachable dst src then .error (.closesCycle src dst)
  else .ok { g with
    out := g.out.modify src (· ++ [dst])
    arcs := g.arcs ++ [⟨src, dst, val⟩]
    into := g.into.modify dst (· ++ [src])
    arcCount := g.arcCount + 1 }

/-- Replaces the payload of an arc. -/
def setArc (g : Digraph α β) (src dst : String) (val : β) : Except Error (Digraph α β) :=
  if g.hasArc src dst then
    .ok { g with
      arcs := g.arcs.map fun a => if a.src = src ∧ a.dst = dst then { a with val := val } else a }
  else .error (.arcMissing src dst)

/-- The graph without an arc; it stays as it is if the arc is not there. -/
def dropArc (g : Digraph α β) (src dst : String) : Digraph α β :=
  if g.hasArc src dst then
    { g with
      arcs := g.arcs.filter fun a => !(a.src == src && a.dst == dst)
      out := g.out.modify src (·.erase dst)
      into := g.into.modify dst (·.erase src)
      arcCount := g.arcCount - 1 }
  else g

/-- Removes an arc and gives its payload. -/
def removeArc (g : Digraph α β) (src dst : String) : Except Error (Digraph α β × β) :=
  match g.arc? src dst with
  | some a => .ok (g.dropArc src dst, a.val)
  | none => .error (.arcMissing src dst)

/-- The graph without the arcs that enter a vertex and without those that leave it. -/
def isolate (g : Digraph α β) (k : String) : Digraph α β :=
  let g := (g.preds k).foldl (fun g src => g.dropArc src k) g
  (g.succs k).foldl (fun g dst => g.dropArc k dst) g

/-- The graph without a vertex and without the arcs at it, which are taken out one by one. -/
def dropVertex (g : Digraph α β) (k : String) : Digraph α β :=
  let g := g.isolate k
  { g with
    vertices := g.vertices.filter (·.key != k)
    out := g.out.erase k
    into := g.into.erase k }

/-- Removes a vertex and gives the arcs that went with it, those that entered it first. -/
def removeVertex (g : Digraph α β) (k : String) : Except Error (Digraph α β × List (Arc β)) :=
  if g.hasVertex k then .ok (g.dropVertex k, g.inArcs k ++ g.outArcs k)
  else .error (.vertexMissing k)

/-- The graph of the same shape with other payloads. -/
def mapPayloads {γ δ : Type} (g : Digraph α β) (f : α → γ) (h : β → δ) : Digraph γ δ where
  vertices := g.vertices.map fun v => ⟨v.key, f v.val, v.seq⟩
  arcs := g.arcs.map fun a => ⟨a.src, a.dst, h a.val⟩
  out := g.out
  into := g.into
  arcCount := g.arcCount
  nextSeq := g.nextSeq

/-- The far ends of those arcs of a list that have a given near end. -/
def ends (near far : Arc β → String) (arcs : List (Arc β)) (k : String) : List String :=
  (arcs.filter (near · == k)).map far

/-- Where the arcs of a list lead to from a vertex. -/
def targets (arcs : List (Arc β)) : String → List String :=
  ends Arc.src Arc.dst arcs

/-- Where the arcs of a list come from to a vertex. -/
def sources (arcs : List (Arc β)) : String → List String :=
  ends Arc.dst Arc.src arcs

/-- The graph of a list of vertices and a list of arcs between them. -/
def ofArcs (vertices : List (Vertex α)) (arcs : List (Arc β)) (nextSeq : UInt64) : Digraph α β where
  vertices
  arcs
  out := Dict.ofList (vertices.map fun v => (v.key, targets arcs v.key))
  into := Dict.ofList (vertices.map fun v => (v.key, sources arcs v.key))
  arcCount := arcs.length
  nextSeq

end Digraph

end OpGraph
