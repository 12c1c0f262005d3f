import OpGraph.Report.Columns
import OpGraph.Workspace

/-!
# Reports

What is told about a compiled network: the order in which its operators run and what was recorded for its edges.
-/

namespace OpGraph

/-- What is told about a compiled network. -/
structure Report where
  graph : String
  state : State
  /-- Where it is to run. -/
  target : String
  /-- Names the compilation. -/
  run : String
  /-- Whether chains of operators were fused. -/
  fusion : Bool
  stats : Stats
  inputs : List String
  outputs : List String
  /-- The operators in the order in which they run. -/
  order : List Node
  merges : List MergeRecord
  scales : Dict Scale
  layouts : Dict Layout
  /-- The names of the weight blocks it refers to. -/
  blocks : List String
  deriving Repr

namespace Report

/-- The report on a network of a workspace, whose operators run in a given order. -/
def ofNetwork (w : Workspace) (n : Network) (order : List Node) (stats : Stats) (fusion : Bool)
    (target run : String) : Report where
  graph := n.graph.name
  state := n.state
  target
  run
  fusion
  stats
  inputs := n.graph.ins
  outputs := n.graph.outs
  order
  merges := n.graph.merges
  scales := n.calibration.scales
  layouts := n.calibration.layouts
  blocks := w.blockIds n

/-- Names one after the other. -/
def names (ns : List String) : String :=
  ", ".intercalate ns

/-- The text of the values of a scale. -/
def scaleText (s : Scale) : String :=
  "[" ++ " ".intercalate (s.values.map Decimal.float32Text) ++ "]"

/-- Lines below a heading, which is left out with them. -/
def below (heading : String) (lines : List String) : List String :=
  if lines.isEmpty then [] else heading :: lines

/-- The lines before the tables. -/
def headLines (r : Report) : List String :=
  [s!"graph {r.graph} ({r.state.text}, target {r.target}, run {r.run})",
    if r.fusion then
      s!"fusion: {r.stats.fused} fused, {r.stats.dropped} dropped, {r.stats.rejected} rejected in " ++
        s!"{r.stats.iterations} iterations"
    else "fusion: disabled",
    s!"inputs: {names r.inputs}",
    s!"outputs: {names r.outputs}"]

/-- The lines of the tables, with tabs between the columns. -/
def tableLines (r : Report) : List String :=
  "order:" :: (r.order.mapIdx fun i n => s!"  {i + 1}\t{n.name}\t{n.type}\t{n.precision.text}") ++
    below "merges:" (r.merges.map fun m => s!"  {m.fused}\t<- {names m.members}") ++
    below "scales:" (r.scales.entries.map fun (id, s) => s!"  {id}\t{scaleText s}") ++
    below "layouts:" (r.layouts.entries.map fun (id, l) => s!"  {id}\t{l.text}") ++
    (if r.blocks.isEmpty then [] else [s!"blocks: {names r.blocks}"])

/-- Lines as a text. -/
def unlines (lines : List String) : String :=
  String.join (lines.map (· ++ "\n"))

/-- The report as a text for people. -/
def text (r : Report) : String :=
  unlines r.headLines ++ Columns.align (unlines r.tableLines)

end Report

end OpGraph
