import OpGraph.Model.Basic
import OpGraph.Workspace

/-!
# Building networks from models
-/

namespace OpGraph

namespace Model

/-- The part of a model that could not be built. -/
inductive Part where
  | pattern (name : String)
  | var (name : String)
  | op (name : String)
  | attr (op name : String)
  | out (src dst : String)
  | allOuts
  | varScale (var : String)
  | weightsScale (op : String)
  | block (id : String)
  | freeze
  | layout (src dst : String)
  deriving Repr

/-- The text of a part, if it is named. -/
def Part.text? : Part → Option String
  | pattern name => some s!"pattern {Text.quote name}"
  | var name => some s!"var {Text.quote name}"
  | op name => some s!"op {Text.quote name}"
  | attr owner name => some s!"op {Text.quote owner}, attribute {Text.quote name}"
  | out src dst => some s!"out {src}->{dst}"
  | allOuts => none
  | varScale v => some s!"var_scale {Text.quote v}"
  | weightsScale owner => some s!"weights_scale {Text.quote owner}"
  | block id => some s!"block {Text.quote id}"
  | freeze => some "failed to freeze graph"
  | layout src dst => some s!"layout {src}->{dst}"

/-- How the attributes of a model are read. -/
abbrev Converter := Config.Value → Except Failure Attribute.Value

/-- Reads an attribute as what its own type says. -/
def Converter.standard : Converter := fun v =>
  match v.toAttr with
  | .ok v => .ok v
  | .error cause => .error cause.toFailure

/-- Why a part could not be built. -/
inductive Cause where
  | network (cause : Network.Error)
  | unfit (cause : Failure)
  | block (cause : Block.Error)
  deriving Repr

/-- How a build ends that fails for a cause. -/
def Cause.toFault : Cause → Fault
  | network cause => cause.toFault
  | unfit cause => .failure cause
  | block cause => .failure cause.toFailure

/-- Why a model could not be built. -/
inductive Error where
  | noModel
  | noPool (blocks : Nat)
  | part (part : Part) (cause : Cause)
  deriving Repr

/-- How a build ends that fails. -/
def Error.toFault : Error → Fault
  | noModel => .failure (.plain "model declares no graph")
  | noPool n => .failure (.plain s!"model declares {n} weight blocks but no weights registry was given")
  | part p cause =>
    match cause.toFault, p.text? with
    | .failure f, some text => .failure (.context text f)
    | fault, _ => fault

instance : Reported Error := ⟨fun e => e.toFault⟩

/-- The name of a network whose model has none. -/
def defaultName : String := "graph"

end Model

namespace Workspace

/-- A workspace while a model is built into it: what was done stays done when a later part fails. -/
abbrev Builder := ExceptT Model.Error (StateM Workspace)

/-- Builds one part of a model. -/
def part (p : Model.Part) (f : Workspace → Except Network.Error Workspace) : Builder Unit := do
  match f (← get) with
  | .ok w => set w
  | .error cause => throw (.part p (.network cause))

/-- Builds one part of a model that concerns the network alone. -/
def networkPart (r : NetworkRef) (p : Model.Part) (f : Network → Except Network.Error Network) : Builder Unit :=
  part p fun w => w.onNetwork r f

/-- Sets an attribute of an operator. -/
def buildAttr (r : NetworkRef) (convert : Model.Converter) (op : String) (attr : String × Config.Value) :
    Builder Unit :=
  match convert attr.2 with
  | .error cause => throw (.part (.attr op attr.1) (.unfit cause))
  | .ok v => networkPart r (.attr op attr.1) fun n => n.setAttr op attr.1 (.value v)

/-- Adds an operator with its precision and attributes. -/
def buildOp (r : NetworkRef) (convert : Model.Converter) (op : Model.Op) : Builder Unit := do
  networkPart r (.op op.name) fun n => n.addOp op.name op.type op.inputs op.outputs
  if op.precision ≠ "" then
    networkPart r (.op op.name) fun n => n.setPrecision op.name op.precision
  op.attrs.entries.forM (buildAttr r convert op.name)

/-- Declares the outputs of a model. -/
def buildOuts (r : NetworkRef) (m : Model) : Builder Unit := do
  m.outs.forM fun out => networkPart r (.out out.1 out.2) fun n => n.declareOut out.1 out.2
  if m.registerAllOuts then networkPart r .allOuts Network.declareAllOuts

/-- Adds a block of weights to a network and a pool. The reference of the network makes the block leave the pool
again if a later part fails. -/
def buildBlock (r : NetworkRef) (pool : String) (b : Model.BlockSpec) : Builder Unit := do
  match Block.make b.id b.op b.shape (b.data.map fun xs => xs.map Float.toFloat32) with
  | .error cause => throw (.part (.block b.id) (.block cause))
  | .ok block =>
    let w ← get
    let (depot, place) := w.depot.add block
    set { w with depot }
    part (.block b.id) fun w => w.registerBlock r (some place)
    let w ← get
    match w.depot.register place pool with
    | .ok depot => set { w with depot }
    | .error cause => throw (.part (.block b.id) (.block cause))

/-- Adds blocks of weights, which need a pool. -/
def buildBlocks (r : NetworkRef) (blocks : List Model.BlockSpec) : Option String → Builder Unit
  | some pool => blocks.forM (buildBlock r pool)
  | none => if blocks.isEmpty then pure () else throw (.noPool blocks.length)

/-- Builds the parts of a model in turn. -/
def buildParts (r : NetworkRef) (m : Model) (pool : Option String) (convert : Model.Converter) : Builder Unit := do
  m.patterns.forM fun p => part (.pattern p.name) fun w => w.registerNetworkPattern r p.pattern
  m.vars.forM fun v => networkPart r (.var v) fun n => n.declareVar v
  m.ops.forM (buildOp r convert)
  buildOuts r m
  m.varScales.forM fun s => networkPart r (.varScale s.var) fun n => n.setVarScale s.var s.scale.toFloat32
  m.weightsScales.forM fun s =>
    networkPart r (.weightsScale s.op) fun n => n.setWeightsScale s.op (s.scales.map Float.toFloat32) s.isBias
  buildBlocks r m.blocks pool
  networkPart r .freeze Network.freeze
  m.layouts.forM fun l => networkPart r (.layout l.src l.dst) fun n => n.setLayout l.src l.dst l.value

/-- What may be chosen for the network of a model; what is left open is as for any new network. -/
structure BuildOptions where
  library : Option LibraryRef := none
  cap : Option Int := none
  elide : Option (List String) := none
  deriving Repr

/-- Adds a network without operators for a model. -/
def startBuild (w : Workspace) (m : Model) (options : BuildOptions) : Workspace × NetworkRef :=
  let (w, r) := w.newNetwork (if m.name = "" then Model.defaultName else m.name) options.library
  match w.network? r with
  | some n => (w.setNetwork r { n with cap := options.cap.getD n.cap, elide := options.elide <|> n.elide }, r)
  | none => (w, r)

/-- Ends the build of a network. One that could not be built is left empty. -/
def endBuild (w : Workspace) (r : NetworkRef) : Except Model.Error Unit → Workspace × Except Fault NetworkRef
  | .ok () => (w, .ok r)
  | .error e =>
    match e.toFault with
    | .abort message => (w, .error (.abort message))
    | fault =>
      match w.clean r with
      | (w, some abort) => (w, .error abort)
      | (w, none) => (w, .error fault)

/-- Builds a model and freezes it. The blocks go to a pool, which a model without blocks does not need. -/
def build (w : Workspace) (m : Option Model) (pool : Option String) (options : BuildOptions)
    (convert : Model.Converter := .standard) : Workspace × Except Fault NetworkRef :=
  match m with
  | none => (w, .error (Model.Error.toFault .noModel))
  | some m =>
    let (w, r) := w.startBuild m options
    let (result, w) := (buildParts r m pool convert).run.run w
    w.endBuild r result

end Workspace

end OpGraph
