import OpGraph.Config.TypeExpr
import OpGraph.Files
import OpGraph.Kernel.Manifest
import OpGraph.Model.Basic

/-!
# Loading models

Models and kernel manifests are written in files of blocks. All files are read before any is understood; then each adds
its manifests and its part of the model, in the order in which the files were found.
-/

namespace OpGraph

open Config (Body Expr Ty)

/-- What was loaded: at most one model, and manifests. -/
structure Loaded where
  model : Option Model := none
  manifests : List Manifest := []
  deriving Inhabited

namespace Loaded

/-! ### Blocks -/

/-- The blocks a file may hold, with the numbers of their labels. -/
def fileShape : Body.Shape where
  blocks := [("graph", 1), ("var", 1), ("op", 1), ("out", 2), ("pattern", 1), ("var_scale", 1), ("weights_scale", 1),
    ("layout", 2), ("block", 1), ("kernel", 2)]

/-- The first label of a block. -/
def label (labels : List String) : String :=
  labels.head?.getD ""

/-- The second label of a block. -/
def label₂ (labels : List String) : String :=
  (labels[1]?).getD ""

/-- An operator block: the operator without attributes, and the body that holds them. -/
def op? (labels : List String) (b : Body) : Option (Model.Op × Option Body) := do
  if !b.hasShape { required := ["type"], optional := ["inputs", "outputs", "precision"], blocks := [("attrs", 0)] } then
    none
  let attrs ← match b.blocksOf "attrs" with
    | [] => some none
    | [(_, attrs)] => some (some attrs)
    | _ => none
  let op : Model.Op := {
    name := label labels
    type := ← b.text? "type"
    inputs := ← b.texts? "inputs"
    outputs := ← b.texts? "outputs"
    precision := ← b.text? "precision" }
  return (op, attrs)

/-- A graph block: its name, and whether it registers all outputs. -/
def graph? (labels : List String) (b : Body) : Option (String × Bool) := do
  if !b.hasShape { optional := ["register_all_outs"] } then none
  return (label labels, (← b.optionalFlag? "register_all_outs").getD false)

/-- A variable block. -/
def var? (labels : List String) (b : Body) : Option String :=
  if b.hasShape {} then some (label labels) else none

/-- An output block. -/
def out? (labels : List String) (b : Body) : Option (String × String) :=
  if b.hasShape {} then some (label labels, label₂ labels) else none

/-- A pattern block. -/
def pattern? (labels : List String) (b : Body) : Option Model.PatternSpec := do
  if !b.hasShape { required := ["chain"], optional := ["arity"] } then none
  let arity ← b.list? "arity" .number Body.readInt
  return { name := label labels, chain := ← b.texts? "chain", arity := (arity.getD []).map (·.toInt) }

/-- A block with the scale of a variable. -/
def varScale? (labels : List String) (b : Body) : Option Model.VarScale := do
  if !b.hasShape { required := ["scale"] } then none
  return { var := label labels, scale := ← b.float? "scale" }

/-- A block with the scales of weights. -/
def weightsScale? (labels : List String) (b : Body) : Option Model.WeightsScale := do
  if !b.hasShape { required := ["scales"], optional := ["bias"] } then none
  let scales ← b.list? "scales" .number Body.readFloat
  return { op := label labels, scales := scales.getD [], isBias := ← b.flag? "bias" }

/-- A layout block. -/
def layout? (labels : List String) (b : Body) : Option Model.EdgeLayout := do
  if !b.hasShape { required := ["value"] } then none
  return { src := label labels, dst := label₂ labels, value := ← b.text? "value" }

/-- A block of weights. -/
def block? (labels : List String) (b : Body) : Option Model.BlockSpec := do
  if !b.hasShape { required := ["op", "shape"], optional := ["data"] } then none
  let shape ← b.list? "shape" .number Body.readInt
  return {
    id := label labels
    op := ← b.text? "op"
    shape := shape.getD []
    data := ← b.list? "data" .number Body.readFloat }

/-- A parameter of a kernel block, whose type and default are still expressions. -/
structure ParamBlock where
  name : String
  type : Option Expr
  description : String
  default : Option Expr
  isOptional : Bool

/-- A parameter block. -/
def param? (labels : List String) (b : Body) : Option ParamBlock := do
  if !b.hasShape { optional := ["type", "description", "default", "optional"] } then none
  return {
    name := label labels
    type := b.attr? "type"
    description := ← b.text? "description"
    default := b.attr? "default"
    isOptional := ← b.flag? "optional" }

/-- A kernel block: the manifest without parameters, and the parameters. -/
def kernel? (labels : List String) (b : Body) : Option (Manifest × List ParamBlock) := do
  if !b.hasShape { optional := ["description", "precisions"], blocks := [("param", 1)] } then none
  let manifest : Manifest := {
    op := label labels
    target := label₂ labels
    description := ← b.text? "description"
    precisions := ← b.texts? "precisions" }
  return (manifest, ← (b.blocksOf "param").mapM fun (ls, b) => param? ls b)

/-- The blocks of a file. -/
structure Document where
  graphs : List (String × Bool)
  vars : List String
  ops : List (Model.Op × Option Body)
  outs : List (String × String)
  patterns : List Model.PatternSpec
  varScales : List Model.VarScale
  weightsScales : List Model.WeightsScale
  layouts : List Model.EdgeLayout
  blocks : List Model.BlockSpec
  kernels : List (Manifest × List ParamBlock)

/-- The blocks of a body, if each is as it should be. -/
def document? (b : Body) : Option Document := do
  if !b.hasShape fileShape then none
  let each {α : Type} (type : String) (read : List String → Body → Option α) : Option (List α) :=
    (b.blocksOf type).mapM fun (labels, b) => read labels b
  return {
    graphs := ← each "graph" graph?
    vars := ← each "var" var?
    ops := ← each "op" op?
    outs := ← each "out" out?
    patterns := ← each "pattern" pattern?
    varScales := ← each "var_scale" varScale?
    weightsScales := ← each "weights_scale" weightsScale?
    layouts := ← each "layout" layout?
    blocks := ← each "block" block?
    kernels := ← each "kernel" kernel? }

/-- Whether a file has a part of the model. -/
def Document.hasModel (d : Document) : Bool :=
  !(d.graphs.isEmpty && d.vars.isEmpty && d.ops.isEmpty && d.outs.isEmpty && d.patterns.isEmpty &&
    d.varScales.isEmpty && d.weightsScales.isEmpty && d.layouts.isEmpty && d.blocks.isEmpty)

/-! ### Errors -/

/-- Stands for what is wrong inside a file at some place. -/
def diagnostics : Failure :=
  .plain "<hcl diagnostics>"

/-- Why a file's blocks can not be used. -/
inductive BlockError where
  | renamed (first second : String)
  | attrs (op : String)
  | attr (op name : String)
  | arity (pattern : String) (entries chain : Nat)
  | repeated (key : Kernel.Key) (param : String)
  | typeExpr (key : Kernel.Key) (param : String)
  | type (key : Kernel.Key) (param : String) (cause : Ty.Unsupported)
  | badDefault (key : Kernel.Key) (param : String)
  | defaultType (key : Kernel.Key) (param : String) (type : Ty) (cause : Config.Value.Unconvertible)
  deriving Repr

/-- The failure of blocks that can not be used. -/
def BlockError.toFailure : BlockError → Failure
  | renamed first second => .plain s!"graph is named both {Text.quote first} and {Text.quote second}"
  | attrs op => .context s!"op {Text.quote op}" diagnostics
  | attr op name => .context s!"op {Text.quote op}, attribute {Text.quote name}" diagnostics
  | arity pattern entries chain =>
    .plain s!"pattern {Text.quote pattern}: arity has {entries} entries for a chain of {chain}"
  | repeated key param => .plain s!"kernel {key.text} declares param {Text.quote param} twice"
  | typeExpr key param =>
    .context s!"in kernel {key.text}, param {Text.quote param}" (.context "invalid type expression" diagnostics)
  | type key param cause => .context s!"in kernel {key.text}, param {Text.quote param}" (.plain cause.text)
  | badDefault key param =>
    .context s!"invalid default value for param {Text.quote param} in kernel {key.text}" diagnostics
  | defaultType key param t cause =>
    .context
      s!"default value for param {Text.quote param} in kernel {key.text} does not match type {t.friendlyName}"
      (.plain cause.text)

/-- Why files could not be loaded. -/
inductive Error where
  | files (cause : Files.Error)
  | noFiles (paths : List String)
  | unreadable (file : String)
  | undecodable (file : String)
  | blocks (file : String) (cause : BlockError)
  deriving Repr

/-- How loading ends that fails. -/
def Error.toFault : Error → Fault
  | files cause => cause.toFault
  | noFiles paths => .failure (.plain ("no .hcl files found in [" ++ " ".intercalate paths ++ "]"))
  | unreadable file => .failure (.context s!"failed to parse HCL file {file}" diagnostics)
  | undecodable file => .failure (.context s!"failed to decode HCL file {file}" diagnostics)
  | blocks file cause => .failure (.context s!"in {file}" cause.toFailure)

instance : Reported Error := ⟨fun e => e.toFault⟩

/-! ### Putting the parts together -/

/-- The default of a parameter, converted to its type. A missing value is no default. -/
def paramDefault (key : Kernel.Key) (p : ParamBlock) (type : Ty) : Except BlockError (Option Config.Value) :=
  match p.default with
  | none => .ok none
  | some e =>
    match e.eval.value? with
    | none => .error (.badDefault key p.name)
    | some v =>
      if v.isNull then .ok none
      else match v.convert type with
        | .ok v => .ok (some v)
        | .error cause => .error (.defaultType key p.name type cause)

/-- The parameter of a block. A default makes it optional. -/
def manifestParam (key : Kernel.Key) (p : ParamBlock) : Except BlockError Manifest.Param :=
  match p.type.bind Expr.type? with
  | none => .error (.typeExpr key p.name)
  | some type =>
    match type.checkParam with
    | .error cause => .error (.type key p.name cause)
    | .ok type => do
      let default ← paramDefault key p type
      return { name := p.name, type, description := p.description, default,
               isOptional := p.isOptional || default.isSome }

/-- Adds parameters to a manifest. -/
def addParams : Manifest → List ParamBlock → Except BlockError Manifest
  | m, [] => .ok m
  | m, p :: ps =>
    if m.params.contains p.name then .error (.repeated m.key p.name)
    else do
      let param ← manifestParam m.key p
      addParams { m with params := m.params.insert p.name param } ps

/-- The attributes of an operator; missing values are left out. -/
def opAttrs (op : String) : Dict Expr → Except BlockError (Dict Config.Value)
  | d => d.entries.foldlM (fun attrs (name, e) =>
      match e.eval.value? with
      | none => .error (.attr op name)
      | some v => .ok (if v.isNull then attrs else attrs.insert name v)) {}

/-- An operator with its attributes. -/
def modelOp (op : Model.Op) (body : Option Body) : Except BlockError Model.Op :=
  match body with
  | none => .ok op
  | some b =>
    if !b.blocks.isEmpty then .error (.attrs op.name)
    else do return { op with attrs := ← opAttrs op.name (Dict.ofList b.attrs) }

/-- Takes over the name of a model and whether all outputs are registered. -/
def addGraph (m : Model) (name : String) (all : Bool) : Except BlockError Model :=
  if m.name ≠ "" ∧ m.name ≠ name then .error (.renamed m.name name)
  else .ok { m with name, registerAllOuts := m.registerAllOuts || all }

/-- Checks that the arities of a pattern, if there are any, are as many as its types. -/
def checkPattern (p : Model.PatternSpec) : Except BlockError Model.PatternSpec :=
  if p.arity.length > 0 ∧ p.arity.length ≠ p.chain.length then
    .error (.arity p.name p.arity.length p.chain.length)
  else .ok p

/-- Adds the blocks of a file to a model. -/
def addDocument (m : Model) (d : Document) : Except BlockError Model := do
  let m ← d.graphs.foldlM (fun m (name, all) => addGraph m name all) m
  let ops ← d.ops.mapM fun (op, body) => modelOp op body
  let patterns ← d.patterns.mapM checkPattern
  return { m with
    vars := m.vars ++ d.vars
    ops := m.ops ++ ops
    outs := m.outs ++ d.outs
    patterns := m.patterns ++ patterns
    varScales := m.varScales ++ d.varScales
    weightsScales := m.weightsScales ++ d.weightsScales
    layouts := m.layouts ++ d.layouts
    blocks := m.blocks ++ d.blocks }

/-- Adds the blocks of a file to what was loaded. -/
def add (l : Loaded) (d : Document) : Except BlockError Loaded := do
  let manifests ← d.kernels.mapM fun (m, params) => addParams m params
  let l := { l with manifests := l.manifests ++ manifests }
  if d.hasModel then return { l with model := some (← addDocument (l.model.getD {}) d) }
  else return l

/-- Reads the files at some paths. -/
def readAll (f : Files) (paths : List String) : Except Error (List (String × Body)) := do
  match f.find ".hcl" paths with
  | .error cause => throw (.files cause)
  | .ok [] => throw (.noFiles paths)
  | .ok found =>
    found.mapM fun path =>
      match (f.content? path).bind Body.ofString? with
      | some b => .ok (path, b)
      | none => .error (.unreadable path)

/-- Loads the files at some paths. -/
def load (f : Files) (paths : List String) : Except Error Loaded := do
  let bodies ← readAll f paths
  bodies.foldlM (fun l (path, b) =>
    match document? b with
    | none => .error (.undecodable path)
    | some d =>
      match l.add d with
      | .ok l => .ok l
      | .error cause => .error (.blocks path cause)) {}

end Loaded

end OpGraph
