import OpGraph.Fusion.Pattern
import OpGraph.Sandbox.Commit

/-!
# The fusion engine

Changes a sandbox in passes until a pass changes nothing. A pass drops operators that only pass on what they read
and merges chains that a pattern describes; what can not be dropped or merged safely is left as it is.
-/

namespace OpGraph

/-- What a run of the engine did. -/
structure Stats where
  iterations : Nat := 0
  fused : Nat := 0
  dropped : Nat := 0
  /-- The chains that had the right types and were left alone nevertheless. -/
  rejected : Nat := 0
  deriving DecidableEq, Repr, Inhabited

/-- The settings of a run. -/
structure Engine where
  /-- The patterns by priority. -/
  patterns : List Pattern
  /-- The greatest number of passes, the last one included; none is meant by a number that is not positive. -/
  cap : Int := 0
  /-- The types of the operators to drop; the usual ones if none are given. -/
  elide : Option (List String) := none
  deriving Repr

namespace Engine

/-- The cap that is used when none is set. -/
def standardCap : Nat := 8

/-- The types that are dropped when none are given. -/
def standardElide : List String := ["Identity", "Dropout"]

/-- The greatest number of passes. -/
def passes (e : Engine) : Nat :=
  if e.cap ≤ 0 then standardCap else e.cap.toNat

/-- The types of the operators that are dropped. -/
def elided (e : Engine) : List String :=
  e.elide.getD standardElide

/-- A run that did not end well. -/
inductive Error where
  | unordered (cause : Topology.Stuck)
  | capReached (passes : Nat)
  deriving DecidableEq, Repr

/-- The failure an error is reported as. -/
def Error.toFailure : Error → Failure
  | unordered cause => cause.toFailure
  | capReached passes => .of .iterationLimit s!"fusion did not converge in {passes} passes"

instance : Reported Error := ⟨fun e => .failure e.toFailure⟩

/-! ### Matching -/

/-- What a pattern finds at a node. -/
inductive Match where
  /-- The types do not fit. -/
  | none
  /-- The types fit, but the chain must not be merged. -/
  | refused
  | chain (members : List String)
  deriving DecidableEq, Repr

/-- Whether a node satisfies a constraint. -/
def fits (s : Sandbox) (c : Constraint) (name : String) : Bool :=
  match s.node? name with
  | some n => n.type == c.type && !(decide (c.arity > 0) && (s.dag.inDegree name : Int) != c.arity)
  | Option.none => false

/-- Follows the constraints along the only consumer of each node. A node with several consumers ends the chain; it is
refused if one of them has the type that comes next. -/
def follow (s : Sandbox) : List Constraint → String → Match
  | [], _ => .chain []
  | c :: cs, name =>
    if !fits s c name then .none
    else match cs, s.dag.succs name with
      | [], _ => .chain [name]
      | _ :: _, [next] =>
        match follow s cs next with
        | .chain members => .chain (name :: members)
        | m => m
      | c' :: _, nexts =>
        if nexts.any fun n => ((s.node? n).map (·.type)) == some c'.type then .refused else .none

/-- Whether the members of a chain can become one: they are inside the region, and what is between them is seen by
nobody else. -/
def isPrivate (s : Sandbox) : List String → Bool
  | [] => true
  | [last] => !s.isAnchor last
  | name :: next :: rest =>
    !s.isAnchor name && !s.isBoundaryOutput name && !s.isRegistered (.arc name next) &&
      isPrivate s (next :: rest)

/-- What a pattern finds at a node. -/
def find (s : Sandbox) (head : String) (p : Pattern) : Match :=
  match follow s p.ops head with
  | .chain members => if isPrivate s members then .chain members else .refused
  | m => m

/-! ### Passes -/

/-- Drops a node if that is possible. -/
def tryDrop (run : Sandbox × Stats) (name : String) : Sandbox × Stats :=
  match run.1.drop name with
  | .ok s => (s, { run.2 with dropped := run.2.dropped + 1 })
  | .error _ => run

/-- Drops the nodes of the given types. -/
def dropAll (elided : List String) (run : Sandbox × Stats) : Sandbox × Stats :=
  (run.1.nodes.filter fun n => elided.contains n.type && !run.1.isAnchor n.name).foldl
    (fun run n => tryDrop run n.name) run

/-- Merges the chain of the first pattern that fits at a node and can be merged. -/
def tryPatterns (head : String) : List Pattern → Sandbox × Stats → Sandbox × Stats
  | [], run => run
  | p :: ps, (s, stats) =>
    let rejected := { stats with rejected := stats.rejected + 1 }
    match find s head p with
    | .none => tryPatterns head ps (s, stats)
    | .refused => tryPatterns head ps (s, rejected)
    | .chain members =>
      match s.merge members (s.uniqueName p.name) p.name p.name with
      | .ok (s, _) => (s, { stats with fused := stats.fused + 1 })
      | .error _ => tryPatterns head ps (s, rejected)

/-- Merges chains that start at a node, if it is still there. -/
def tryHead (patterns : List Pattern) (run : Sandbox × Stats) (head : String) : Sandbox × Stats :=
  if run.1.isAnchor head || !run.1.dag.hasVertex head then run
  else tryPatterns head patterns run

/-- One pass over a sandbox. -/
def pass (e : Engine) (run : Sandbox × Stats) : (Sandbox × Stats) × Option Error :=
  let run := dropAll e.elided run
  match run.1.dag.topology.order with
  | .error cause => (run, some (.unordered cause))
  | .ok order => (order.foldl (tryHead e.patterns) run, none)

/-- Whether a pass changed anything, by what was counted before and after it. -/
def progressed (before after : Stats) : Bool :=
  before.fused != after.fused || before.dropped != after.dropped

/-- Up to `n` passes, until one changes nothing. -/
def loop (e : Engine) : Nat → Sandbox × Stats → (Sandbox × Stats) × Option Error
  | 0, run => (run, some (.capReached e.passes))
  | n + 1, run =>
    let started := (run.1, { run.2 with iterations := run.2.iterations + 1 })
    match e.pass started with
    | (run, some err) => (run, some err)
    | (after, none) => if progressed run.2 after.2 then e.loop n after else (after, none)

/-- Changes a sandbox until nothing more changes. What was done before an error stays. -/
def run (e : Engine) (s : Sandbox) : (Sandbox × Stats) × Option Error :=
  e.loop e.passes (s, {})

end Engine

end OpGraph
