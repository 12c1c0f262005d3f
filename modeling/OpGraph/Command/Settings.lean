import OpGraph.Text.Lowercase
import OpGraph.Text.Quoted

/-!
# Settings

What a compilation is asked to do. The options are texts as they were given; settings are options that were checked,
with the defaults filled in.
-/

namespace OpGraph

/-- The forms in which reports and records are written. -/
inductive Format where
  | text
  | json
  deriving DecidableEq, Repr, Inhabited

/-- The name of a form. -/
def Format.name : Format → String
  | text => "text"
  | json => "json"

/-- The form with a name; the empty name means text. -/
def Format.ofName? (s : String) : Option Format :=
  if s = "" then some .text else [Format.text, .json].find? fun f => f.name == s

/-- The weights of log records. -/
inductive Level where
  | debug
  | info
  | warn
  | error
  deriving DecidableEq, Repr, Inhabited

/-- The name of a level. -/
def Level.name : Level → String
  | debug => "debug"
  | info => "info"
  | warn => "warn"
  | error => "error"

/-- The level with a name; the empty name means `info`. -/
def Level.ofName? (s : String) : Option Level :=
  if s = "" then some .info else [Level.debug, .info, .warn, .error].find? fun l => l.name == s

/-- What was asked for, unchecked. -/
structure Options where
  /-- Where the model is. -/
  model : String := ""
  /-- Where manifests of kernels are, if anywhere else. -/
  kernels : String := ""
  /-- Where the network is to run. -/
  target : String := ""
  noFusion : Bool := false
  /-- The greatest number of fusion passes; none is set by 0. -/
  maxIterations : Int := 0
  printFormat : String := ""
  logFormat : String := ""
  logLevel : String := ""
  deriving DecidableEq, Repr, Inhabited

/-- What is to be done. -/
structure Settings where
  model : String
  kernels : String
  target : String
  noFusion : Bool
  maxIterations : Nat
  printFormat : Format
  logFormat : Format
  logLevel : Level
  deriving DecidableEq, Repr

namespace Settings

/-- The target of a network when none is named. -/
def defaultTarget : String := "cpu"

/-- Why options can not be followed. Names are kept in lower case. -/
inductive Error where
  | noModel
  | negativeCap (n : Int)
  | printFormat (name : String)
  | logFormat (name : String)
  | logLevel (name : String)
  deriving DecidableEq, Repr

/-- The text of an error. -/
def Error.text : Error → String
  | noModel => "ModelPath is a required configuration field and cannot be empty"
  | negativeCap n => s!"MaxIterations must not be negative, got {n}"
  | printFormat name => s!"invalid PrintFormat {Text.quote name}: must be 'text' or 'json'"
  | logFormat name => s!"invalid LogFormat {Text.quote name}: must be 'text' or 'json'"
  | logLevel name => s!"invalid log level {Text.quote name}: must be 'debug', 'info', 'warn', or 'error'"

/-- What a look-up finds for a name in lower case. -/
def named {α : Type} (find : String → Option α) (error : String → Error) (name : String) : Except Error α :=
  match find (Text.lower name) with
  | some a => .ok a
  | none => .error (error (Text.lower name))

/-- Checks options and fills in the defaults. -/
def ofOptions (o : Options) : Except Error Settings := do
  if o.model = "" then throw .noModel
  if o.maxIterations < 0 then throw (.negativeCap o.maxIterations)
  return {
    model := o.model
    kernels := o.kernels
    target := if o.target = "" then defaultTarget else o.target
    noFusion := o.noFusion
    maxIterations := o.maxIterations.toNat
    printFormat := ← named Format.ofName? .printFormat o.printFormat
    logFormat := ← named Format.ofName? .logFormat o.logFormat
    logLevel := ← named Level.ofName? .logLevel o.logLevel }

end Settings

end OpGraph
