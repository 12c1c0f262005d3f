import OpGraph.Attribute.Literal
import OpGraph.Calibration.Store
import OpGraph.Fusion.Engine
import OpGraph.Graph.Basic
import OpGraph.Weights.Block

/-!
# Networks

A network is built operator by operator, then frozen, which joins operators by the variables they write and read,
and then optimized. Attributes, precisions and calibration can be set at any time; the topology only while it is
being built.
-/

namespace OpGraph

/-- How far a network is. -/
inductive State where
  | building
  | frozen
  | optimized
  deriving DecidableEq, Repr, Inhabited

/-- The text of a state. -/
def State.text : State → String
  | building => "open"
  | frozen => "frozen"
  | optimized => "optimized"

/-- What was declared and waits for the network to be frozen. -/
structure Build where
  /-- The variables that come from outside. -/
  vars : List String := []
  /-- The edges to be registered as outputs. -/
  outs : List (String × String) := []
  /-- Whether every edge is to be registered as an output. -/
  registerAll : Bool := false
  /-- The scales of variables. -/
  varScales : List (String × Float32) := []
  deriving Repr, Inhabited

/-- The place of a library in a workspace. -/
abbrev LibraryRef := Nat

/-- A network. -/
structure Network where
  graph : Graph
  state : State := .building
  calibration : Calibration := {}
  /-- The order in which the nodes run, once it is known. -/
  order : Option (List String) := none
  /-- Counts the changes that make an optimization under way stale; a counter that wraps around is left out. -/
  epoch : Nat := 0
  build : Build := {}
  /-- The weight blocks it refers to. -/
  blocks : List BlockRef := []
  /-- What the last optimization did. -/
  stats : Stats := {}
  /-- The greatest number of fusion passes. -/
  cap : Int := Engine.standardCap
  /-- The types of operators to drop, if they are not the usual ones. -/
  elide : Option (List String) := none
  /-- The library whose patterns are fused. -/
  library : LibraryRef := 0
  deriving Repr, Inhabited

namespace Network

/-! ### Errors -/

/-- The operations that can fail. -/
inductive Operation where
  | addOp
  | addOpAttr
  | setOpPrecision
  | setWeightsScale
  | setVarScale
  | setLayout
  | registVar
  | registOut
  | registAllOut
  | registBlock
  | registerPattern
  | freeze
  | optimize
  | copyFrom
  deriving DecidableEq, Repr

/-- The name of an operation in messages. -/
def Operation.text : Operation → String
  | addOp => "AddOp"
  | addOpAttr => "AddOpAttr"
  | setOpPrecision => "SetOpPrecision"
  | setWeightsScale => "SetWeightsScale"
  | setVarScale => "SetVarScale"
  | setLayout => "SetLayout"
  | registVar => "RegistVar"
  | registOut => "RegistOut"
  | registAllOut => "RegistAllOut"
  | registBlock => "RegistBlock"
  | registerPattern => "RegisterPattern"
  | freeze => "Freeze"
  | optimize => "Optimize"
  | copyFrom => "CopyFrom"

/-- Why an operation failed. -/
inductive Cause where
  | opAfterFreeze (op : String) (state : State)
  | varAfterFreeze (var : String) (state : State)
  | outAfterFreeze (id : EdgeId) (state : State)
  | outsAfterFreeze (state : State)
  | alreadyFrozen (state : State)
  | notFrozen
  | untypedOp (op : String)
  | opMissing (op : String)
  | edgeMissing (id : EdgeId)
  | unnamedVar
  | varExists (var : String)
  | varUncarried (var : String)
  /-- A variable is written twice. -/
  | writtenTwice (var first second : String)
  | undefinedVar (op var : String)
  | ownOutput (op var : String)
  | noBlock
  | blockOpMissing (op block : String)
  | blockExists (block : String)
  | noSource
  | literal (failure : Failure)
  | badAttribute (cause : Attribute.Error)
  | precision (op : String) (failure : Failure)
  | layout (failure : Failure)
  | calibration (cause : Calibration.Error)
  | graph (cause : Graph.Error)
  | unordered (cause : Topology.Stuck)
  | violation (cause : Graph.Violation)
  | pattern (cause : Pattern.Error)
  | engine (cause : Engine.Error)
  | sandbox (cause : Sandbox.Error)
  /-- The network changed during every attempt. -/
  | unsettled (attempts : Nat)
  deriving Repr

/-- How an operation ends that fails for a cause. -/
def Cause.toFault : Cause → Fault
  | opAfterFreeze op state =>
    .failure (.of .frozenViolation s!"can not add op {Text.quote op} to a {state.text} graph")
  | varAfterFreeze var state =>
    .failure (.of .frozenViolation s!"can not declare variable {Text.quote var} on a {state.text} graph")
  | outAfterFreeze id state =>
    .failure (.of .frozenViolation s!"can not register output {id} on a {state.text} graph")
  | outsAfterFreeze state => .failure (.of .frozenViolation s!"can not register outputs on a {state.text} graph")
  | alreadyFrozen state => .failure (.of .frozenViolation s!"graph is already {state.text}")
  | notFrozen => .failure (.of .invalidGraph "graph must be frozen before optimization")
  | untypedOp op => .failure (.of .invalidGraph s!"op {Text.quote op} has no type")
  | opMissing op => .failure (.of .notFound s!"op {Text.quote op}")
  | edgeMissing id => .failure (.of .notFound s!"edge {id}")
  | unnamedVar => .failure (.of .invalidGraph "variable name is empty")
  | varExists var => .failure (.of .alreadyExists s!"variable {Text.quote var}")
  | varUncarried var => .failure (.of .notFound s!"no edge carries variable {Text.quote var}")
  | writtenTwice var first second =>
    .failure (.of .invalidGraph
      s!"variable {Text.quote var} is written by both {Text.quote first} and {Text.quote second}")
  | undefinedVar op var =>
    .failure (.of .notFound s!"op {Text.quote op} reads undefined variable {Text.quote var}")
  | ownOutput op var => .failure (.of .invalidGraph s!"op {Text.quote op} reads its own output {Text.quote var}")
  | noBlock => .failure (.of .invalidGraph "nil weight block")
  | blockOpMissing op block =>
    .failure (.of .notFound s!"op {Text.quote op} of weight block {Text.quote block}")
  | blockExists block => .failure (.of .alreadyExists s!"weight block {Text.quote block}")
  | noSource => .failure (.of .invalidGraph "nil source graph")
  | literal failure => .failure failure
  | badAttribute cause => .failure cause.toFailure
  | precision op failure => .failure (.wrap .typeMismatch s!"op {Text.quote op}" failure)
  | layout failure => .failure failure
  | calibration cause => .failure cause.toFailure
  | graph cause => cause.toFault
  | unordered cause => .failure cause.toFailure
  | violation cause => .failure cause.toFailure
  | pattern cause => .failure cause.toFailure
  | engine cause => .failure cause.toFailure
  | sandbox cause => cause.toFault
  | unsettled attempts =>
    .failure (.of .fusionConflict s!"graph changed during each of {attempts} optimization attempts")

/-- A failed operation. -/
structure Error where
  operation : Operation
  cause : Cause
  deriving Repr

/-- How a failed operation ends: the failure names the operation. -/
def Error.toFault (e : Error) : Fault :=
  match e.cause.toFault with
  | .failure f => .failure (f.annotate e.operation.text)
  | .abort message => .abort message

instance : Reported Error := ⟨fun e => e.toFault⟩

/-- Names the operation that fails for a cause. -/
def failing {α : Type} (operation : Operation) : Except Cause α → Except Error α
  | .ok a => .ok a
  | .error cause => .error ⟨operation, cause⟩

/-! ### Views -/

/-- A network without operators. -/
def new (name : String) (library : LibraryRef) : Network :=
  { graph := { name }, library }

/-- The nodes in the order in which they run; before it is known, in the order in which they were added. -/
def nodesInOrder (n : Network) : List String :=
  n.order.getD n.graph.names

/-- Whether an operator was absorbed by a fused node. -/
def isAbsorbed (n : Network) (op : String) : Bool :=
  n.graph.merges.any fun r => r.members.contains op

/-! ### Building -/

/-- Declares an operator with the variables it reads and writes. -/
def addOp (n : Network) (name type : String) (inputs outputs : List String) : Except Error Network :=
  failing .addOp do
    if n.state ≠ .building then throw (.opAfterFreeze name n.state)
    if type = "" then throw (.untypedOp name)
    match n.graph.insertNode { name, type, inputs, outputs } with
    | .ok graph => return { n with graph }
    | .error cause => throw (.graph cause)

/-- Declares a variable that comes from outside. -/
def declareVar (n : Network) (var : String) : Except Error Network :=
  failing .registVar do
    if n.state ≠ .building then throw (.varAfterFreeze var n.state)
    if var = "" then throw .unnamedVar
    if n.build.vars.contains var then throw (.varExists var)
    return { n with build := { n.build with vars := n.build.vars ++ [var] } }

/-- Declares the edge between two operators an output. -/
def declareOut (n : Network) (src dst : String) : Except Error Network :=
  failing .registOut do
    if n.state ≠ .building then throw (.outAfterFreeze (.arc src dst) n.state)
    return { n with build := { n.build with outs := n.build.outs ++ [(src, dst)] } }

/-- Declares every edge an output. -/
def declareAllOuts (n : Network) : Except Error Network :=
  failing .registAllOut do
    if n.state ≠ .building then throw (.outsAfterFreeze n.state)
    return { n with build := { n.build with registerAll := true } }

/-! ### Settings -/

/-- Sets an attribute of an operator. -/
def setAttr (n : Network) (op name : String) (literal : Attribute.Literal) : Except Error Network :=
  failing .addOpAttr do
    match literal.toValue with
    | .error failure => throw (.literal failure)
    | .ok v =>
      match n.graph.node? op with
      | none => throw (.opMissing op)
      | some node =>
        match Attribute.Store.set node.attrs name v with
        | .error cause => throw (.badAttribute cause)
        | .ok attrs =>
          return { n with
            graph := n.graph.updateNode op fun node => { node with attrs }
            epoch := n.epoch + 1 }

/-- Sets the precision of an operator. -/
def setPrecision (n : Network) (op precision : String) : Except Error Network :=
  failing .setOpPrecision do
    match Precision.parse precision with
    | .error failure => throw (.precision op failure)
    | .ok precision =>
      if !n.graph.hasNode op then throw (.opMissing op)
      return { n with
        graph := n.graph.updateNode op fun node => { node with precision }
        epoch := n.epoch + 1 }

/-- Sets the scales of the weights or the bias of an operator. -/
def setWeightsScale (n : Network) (op : String) (scales : List Float32) (isBias : Bool) :
    Except Error Network :=
  failing .setWeightsScale do
    if !n.graph.hasNode op then throw (.opMissing op)
    match n.calibration.setScale (.weights op isBias) scales isBias with
    | .ok calibration => return { n with calibration }
    | .error cause => throw (.calibration cause)

/-- Sets the scale of each of the given edges. -/
def scaleEdges (c : Calibration) (scale : Float32) : List Edge → Except Cause Calibration
  | [] => .ok c
  | e :: es =>
    match c.setScale e.id [scale] false with
    | .ok c => scaleEdges c scale es
    | .error cause => .error (.calibration cause)

/-- Sets the scale of every edge that carries a variable. -/
def scaleVar (g : Graph) (c : Calibration) (var : String) (scale : Float32) : Except Cause Calibration :=
  if (g.edgesCarrying var).isEmpty then .error (.varUncarried var)
  else scaleEdges c scale (g.edgesCarrying var)

/-- Sets the scale of a variable: at once if the edges are known, otherwise when the network is frozen. -/
def setVarScale (n : Network) (var : String) (scale : Float32) : Except Error Network :=
  if n.state = .building then
    .ok { n with build := { n.build with varScales := n.build.varScales ++ [(var, scale)] } }
  else failing .setVarScale do
    return { n with calibration := ← scaleVar n.graph n.calibration var scale }

/-- Sets the layout of the edge between two operators. -/
def setLayout (n : Network) (src dst layout : String) : Except Error Network :=
  failing .setLayout do
    match Layout.parse layout with
    | .error failure => throw (.layout failure)
    | .ok l =>
      if (n.graph.edge? src dst).isNone then throw (.edgeMissing (.arc src dst))
      match n.calibration.setLayout (.arc src dst) l with
      | .ok calibration => return { n with calibration }
      | .error cause => throw (.calibration cause)

end Network

end OpGraph
