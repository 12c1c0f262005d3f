import OpGraph.Config.Value
import OpGraph.Fusion.Pattern

/-!
# Models

The description of a network: its variables, operators and outputs, patterns of its own, scales, layouts and weights.
-/

namespace OpGraph

namespace Model

/-- An operator of a model. -/
structure Op where
  name : String
  type : String
  inputs : List String := []
  outputs : List String := []
  precision : String := ""
  attrs : Dict Config.Value := {}
  deriving Repr, Inhabited

/-- A fusion pattern of a model. The arities fill the first positions, the others allow any number of edges. -/
structure PatternSpec where
  name : String
  chain : List String
  arity : List Int := []
  deriving Repr

/-- The scale of a variable. -/
structure VarScale where
  var : String
  scale : Float
  deriving Repr

/-- The scales of an operator's weights or bias. -/
structure WeightsScale where
  op : String
  scales : List Float
  isBias : Bool := false
  deriving Repr

/-- The layout of an edge. -/
structure EdgeLayout where
  src : String
  dst : String
  value : String
  deriving Repr

/-- A block of weights, whose values may be loaded later. -/
structure BlockSpec where
  id : String
  op : String
  shape : List Int64
  data : Option (List Float) := none
  deriving Repr

end Model

/-- The description of a network. -/
structure Model where
  name : String := ""
  registerAllOuts : Bool := false
  vars : List String := []
  ops : List Model.Op := []
  outs : List (String × String) := []
  patterns : List Model.PatternSpec := []
  varScales : List Model.VarScale := []
  weightsScales : List Model.WeightsScale := []
  layouts : List Model.EdgeLayout := []
  blocks : List Model.BlockSpec := []
  deriving Repr, Inhabited

/-- The pattern of a description. -/
def Model.PatternSpec.pattern (p : Model.PatternSpec) : Pattern where
  name := p.name
  ops := p.chain.mapIdx fun i type => { type, arity := (p.arity[i]?).getD 0 }

end OpGraph
