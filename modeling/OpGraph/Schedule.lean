import OpGraph.Data.Dict
import OpGraph.Digraph.Basic

/-!
# Schedules

The order in which the vertices of a topology can be worked off, each after all that it depends on, and its levels
of vertices that can be worked off together. A vertex is ready when as many arcs into it have been followed as the
topology counts; ready vertices are taken first come, first served.
-/

namespace OpGraph

/-- What a schedule is made from. Nothing ties the three parts to each other. -/
structure Topology where
  vertices : List String
  successors : String → List String
  inDegree : String → Nat

namespace Topology

/-- The state of a schedule that is being made. -/
structure Progress where
  /-- How many arcs into a vertex are still to be followed; a name without an entry has none. -/
  pending : Dict Int
  /-- The length of the longest path followed to a vertex so far. -/
  depth : Dict Nat
  /-- The vertices that are ready, first come first. -/
  ready : List String

namespace Progress

/-- Follows an arc to `next` from a vertex of depth `d`. -/
def follow (d : Nat) (p : Progress) (next : String) : Progress :=
  let left := p.pending.getD next 0 - 1
  { pending := p.pending.insert next left
    depth := if d + 1 > p.depth.getD next 0 then p.depth.insert next (d + 1) else p.depth
    ready := if left = 0 then p.ready ++ [next] else p.ready }

/-- Works off ready vertices until none is left. Every vertex becomes ready once, so the number of vertices is
enough fuel. -/
def run (t : Topology) : Nat → Progress → List String × Progress
  | 0, p => ([], p)
  | n + 1, p =>
    match p.ready with
    | [] => ([], p)
    | v :: rest =>
      let p := (t.successors v).foldl (follow (p.depth.getD v 0)) { p with ready := rest }
      let (order, p) := run t n p
      (v :: order, p)

end Progress

/-- The state before the first vertex is taken. -/
def start (t : Topology) : Progress where
  pending := Dict.ofList (t.vertices.map fun v => (v, (t.inDegree v : Int)))
  depth := {}
  ready := t.vertices.filter fun v => t.inDegree v == 0

/-- Not every vertex could be ordered. -/
structure Stuck where
  /-- How many vertices are left over. -/
  left : Int
  /-- How many vertices there are. -/
  total : Nat
  deriving DecidableEq, Repr

/-- The failure of a topology that has no order. -/
def Stuck.toFailure (s : Stuck) : Failure :=
  .of .invalidGraph s!"graph has a cycle: {s.left} of {s.total} nodes can not be ordered"

instance : Reported Stuck := ⟨fun e => .failure e.toFailure⟩

/-- An order of the vertices together with their depths. -/
def schedule (t : Topology) : Except Stuck (List String × Dict Nat) :=
  let (order, p) := Progress.run t t.vertices.length t.start
  if order.length = t.vertices.length then .ok (order, p.depth)
  else .error ⟨t.vertices.length - order.length, t.vertices.length⟩

/-- The vertices in an order in which each comes after those it depends on. -/
def order (t : Topology) : Except Stuck (List String) :=
  return (← t.schedule).1

/-- The vertices of an order grouped by their depths. -/
def byDepth (depth : Dict Nat) (order : List String) : List (List String) :=
  let height := order.foldl (fun h v => max h (depth.getD v 0 + 1)) 0
  (List.range height).map fun d => order.filter fun v => depth.getD v 0 == d

/-- The order cut into levels: a vertex of a level depends only on vertices of lower levels. -/
def levels (t : Topology) : Except Stuck (List (List String)) := do
  let (order, depth) ← t.schedule
  return byDepth depth order

end Topology

/-- The topology of a digraph. -/
def Digraph.topology {α β : Type} (g : Digraph α β) : Topology where
  vertices := g.keys
  successors := g.succs
  inDegree := g.inDegree

/-- The topology of a list of vertices and a list of arcs, taken as they are given. -/
def Topology.ofArcs (vertices : List String) (arcs : List (String × String)) : Topology :=
  let successors := fun k => (arcs.filter (·.1 == k)).map (·.2)
  { vertices
    successors
    inDegree := fun k => vertices.foldl (fun d v => d + (successors v).count k) 0 }

end OpGraph
