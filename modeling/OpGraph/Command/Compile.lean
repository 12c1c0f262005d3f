import OpGraph.Command.Flag
import OpGraph.Kernel.Standard
import OpGraph.Model.Build
import OpGraph.Model.Load
import OpGraph.Report.Json

/-!
# Compiling

From the files of a model to the report on its network: the model is loaded, completed, built and optimized, and its
operators are checked against the kernels of the target.
-/

namespace OpGraph

namespace Compile

/-- Why a model could not be compiled. -/
inductive Error where
  | load (cause : Loaded.Error)
  | register (cause : Kernel.RegistrationError)
  | manifests (failure : Failure)
  | build (fault : Fault)
  | optimize (cause : Network.Error)
  | missingNode (name : String)
  | target (name : String) (failure : Failure)
  | report (cause : Report.Error)
  deriving Repr

/-- The text of an error that no call expects. -/
def unexpected (message : String) : String :=
  s!"application startup panicked: {message}"

/-- The text of a fault; a failure is put behind what was being done. -/
def faultText (doing : String) : Fault → String
  | .failure f => s!"{doing}: {f.text}"
  | .abort message => unexpected message

/-- The text of an error. Until the kernels are known to fit their manifests nothing is expected to fail. -/
def Error.text : Error → String
  | load cause =>
    match cause.toFault with
    | .failure f => unexpected s!"failed to load model: {f.text}"
    | .abort message => unexpected message
  | register cause => unexpected cause.text
  | manifests failure => unexpected failure.text
  | build fault => faultText "failed to build graph" fault
  | optimize cause => faultText "optimization failed" cause.toFault
  | missingNode name => s!"node {Text.quote name} of the execution order is missing"
  | target name failure => s!"graph can not run on target {Text.quote name}: {failure.text}"
  | report cause => s!"failed to print report: {cause.toFailure.text}"

/-- The pool for the weight blocks of a compilation. -/
def pool : String := "weights"

/-- Turns the error of a step into that of a compilation. -/
def step {ε α : Type} (f : ε → Error) : Except ε α → Except Error α
  | .ok a => .ok a
  | .error e => .error (f e)

/-- The standard kernels with manifests that describe them. -/
def registry (manifests : List Manifest) : Except Error Kernel.Registry := do
  let (r, error) := Kernel.Registry.registerStandard {}
  if let some e := error then throw (.register e)
  let r := r.describe manifests
  step .manifests r.check
  return r

/-- Optimizes a network of a workspace that nobody else uses. -/
def optimized (w : Workspace) (r : NetworkRef) (fusion : Bool) (ord : RenameOrder) : Except Error (Workspace × Stats) :=
  match w.optimize r fusion ord fun _ w => (w, ([] : List Unit)) with
  | (w, .done stats, _) => .ok (w, stats)
  | (_, .failed _ cause, _) => .error (.optimize cause)
  | (_, .stale _, _) => .error (.optimize ⟨.optimize, .unsettled Workspace.attempts⟩)

/-- The nodes of a network in the order in which they run. -/
def orderedNodes (n : Network) : Except Error (List Node) :=
  n.nodesInOrder.mapM fun name => (n.graph.node? name).elim (.error (.missingNode name)) .ok

/-- Compiles the model that settings name; `run` names the compilation, and the entries of moved edges follow them in
the order given. -/
def report (s : Settings) (files : Files) (run : String) (ord : RenameOrder) : Except Error Report := do
  let loaded ← step .load (Loaded.load files (s.model :: if s.kernels = "" then [] else [s.kernels]))
  let kernels ← registry loaded.manifests
  let model := loaded.model.map fun m => (kernels.complete m s.target).1
  let cap := if s.maxIterations = 0 then none else some (s.maxIterations : Int)
  let (w, built) := Workspace.build {} model (some pool) { cap }
  let r ← step .build built
  let (w, stats) ← optimized w r (!s.noFusion) ord
  let n := (w.network? r).getD default
  let nodes ← orderedNodes n
  step (.target s.target) (kernels.checkNodes nodes s.target)
  return .ofNetwork w n nodes stats (!s.noFusion) s.target run

/-- The text of the report on the model that settings name. -/
def output (s : Settings) (files : Files) (run : String) (ord : RenameOrder) : Except Error String := do
  let r ← report s files run ord
  match s.printFormat with
  | .text => return r.text
  | .json => step .report r.json

end Compile

/-- What a command comes to. -/
structure Result where
  code : Nat
  output : String
  message : Option String := none
  deriving DecidableEq, Repr

/-- Follows a command line. -/
def Request.run (env : Environment) (files : Files) (run : String) (ord : RenameOrder) (r : Request) : Result :=
  match r with
  | usage => { code := 0, output := r.output env }
  | failed e => { code := 2, output := r.output env, message := some e.text }
  | compile s =>
    match Compile.output s files run ord with
    | .ok output => { code := 0, output }
    | .error e => { code := 1, output := "", message := some e.text }

end OpGraph
