import OpGraph.Fusion.Layouts
import OpGraph.Network.Basic

/-!
# Optimizing a network

An optimization is drafted on a sandbox and lands only if the network was not changed in between. Scales and layouts
follow the edges that fusion moved, and every edge gets a layout.
-/

namespace OpGraph.Network

/-- An optimization that has not landed yet. -/
structure Draft where
  sandbox : Sandbox
  /-- The layouts that were known when it was drafted. -/
  known : Dict Layout
  /-- The epoch it was drafted in. -/
  epoch : Nat
  stats : Stats
  deriving Repr

/-- How an attempt to optimize ends. -/
inductive Outcome where
  | done (stats : Stats)
  /-- The network was changed in between. -/
  | stale (stats : Stats)
  | failed (stats : Stats) (error : Error)
  deriving Repr

/-- Drafts an optimization, with the patterns of a library if chains are to be fused. -/
def draft (n : Network) (library : Library) (fusion : Bool) : Except (Stats × Error) Draft :=
  if n.state = .building then .error ({}, ⟨.optimize, .notFrozen⟩)
  else match Sandbox.snapshot n.graph none with
    | .error cause => .error ({}, ⟨.optimize, .sandbox cause⟩)
    | .ok sandbox =>
      let d : Draft := { sandbox, known := n.calibration.layouts, epoch := n.epoch, stats := {} }
      if !fusion then .ok d
      else
        let engine : Engine := { patterns := library.byPriority, cap := n.cap, elide := n.elide }
        match engine.run sandbox with
        | ((_, stats), some cause) => .error (stats, ⟨.optimize, .engine cause⟩)
        | ((sandbox, stats), none) => .ok { d with sandbox, stats }

/-- Records layouts for edges that have none. -/
def assignLayouts : Calibration → List (EdgeId × Layout) → Except Cause Calibration
  | c, [] => .ok c
  | c, (id, l) :: rest =>
    if c.layouts.contains id then assignLayouts c rest
    else match c.setLayout id l with
      | .ok c => assignLayouts c rest
      | .error cause => .error (.calibration cause)

/-- The calibration of a graph after edges were moved: entries follow their edges in some order, edges without a
layout get one, and what belongs to no edge any more is dropped. -/
def recalibrate (c : Calibration) (g : Graph) (ord : RenameOrder) (renamed : Dict EdgeId) (layouts : Dict Layout) :
    Except Cause Calibration := do
  let c ← assignLayouts (c.rename ord renamed) layouts.entries
  return c.retain fun id => id.isSynthetic || (g.edgeById? id).isSome

/-- The network after its graph was changed by a commit. -/
def settle (n : Network) (g : Graph) (ord : RenameOrder) (renamed : Dict EdgeId) (layouts : Dict Layout) (stats : Stats)
    (fusion : Bool) : Except Cause Network := do
  let calibration ← recalibrate n.calibration g ord renamed layouts
  match g.order with
  | .error cause => throw (.unordered cause)
  | .ok order =>
    return { n with
      graph := if fusion then { g with optimized := true } else g
      calibration
      order := some order
      state := if fusion then .optimized else n.state
      stats }

/-- Lands a draft; the entries of moved edges follow them in the order given. -/
def land (n : Network) (d : Draft) (fusion : Bool) (ord : RenameOrder) : Network × Outcome :=
  match d.sandbox.normalize d.known with
  | (_, .error failure) => (n, .failed d.stats ⟨.optimize, .layout failure⟩)
  | (sandbox, .ok layouts) =>
    if n.epoch ≠ d.epoch then (n, .stale d.stats)
    else match sandbox.commit n.graph with
      | .error cause => (n, .failed d.stats ⟨.optimize, .sandbox cause⟩)
      | .ok (g, _, changes) =>
        match n.settle g ord changes.renamed layouts d.stats fusion with
        | .ok n => (n, .done d.stats)
        | .error cause => ({ n with graph := g }, .failed d.stats ⟨.optimize, cause⟩)

/-- Optimizes a network that nobody else changes. -/
def optimize (n : Network) (library : Library) (fusion : Bool) (ord : RenameOrder) : Network × Outcome :=
  match n.draft library fusion with
  | .error (stats, error) => (n, .failed stats error)
  | .ok d => n.land d fusion ord

end OpGraph.Network
