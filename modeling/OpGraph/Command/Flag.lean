import OpGraph.Command.Settings
import OpGraph.Data.Dict
import OpGraph.Text.Blank
import OpGraph.Text.Integer

/-!
# Flags

The arguments of the command line. Flags come first, each with one dash or two; their values stand behind an equals sign
or are the next argument. What is left names the model. Some defaults come from the environment.
-/

namespace OpGraph

/-- The flags of the command line, by name. -/
inductive Flag where
  | kernels
  | logFormat
  | logLevel
  | shortModel
  | maxIterations
  | model
  | noFusion
  | printFormat
  | target
  deriving DecidableEq, Repr

/-- The values of variables of the environment. -/
abbrev Environment := Dict String

/-- What is read from the command line. -/
structure Arguments where
  options : Options
  /-- The model under its short name. -/
  shortModel : String := ""
  deriving Repr

namespace Flag

/-- All flags, by name. -/
def all : List Flag :=
  [kernels, logFormat, logLevel, shortModel, maxIterations, model, noFusion, printFormat, target]

/-- The name of a flag. -/
def name : Flag → String
  | kernels => "kernels"
  | logFormat => "log-format"
  | logLevel => "log-level"
  | shortModel => "m"
  | maxIterations => "max-iterations"
  | model => "model"
  | noFusion => "no-fusion"
  | printFormat => "print-format"
  | target => "target"

/-- The flag with a name. -/
def ofName? (s : String) : Option Flag :=
  all.find? fun f => f.name == s

/-- The variable of the environment that gives the default of a flag. -/
def envName? : Flag → Option String
  | kernels => some "INFERGRAPH_KERNELS"
  | logFormat => some "INFERGRAPH_LOG_FORMAT"
  | logLevel => some "INFERGRAPH_LOG_LEVEL"
  | target => some "INFERGRAPH_TARGET"
  | _ => none

/-- The variables of the environment that matter. -/
def envNames : List String :=
  all.filterMap envName?

/-- What a flag is for. -/
def help : Flag → String
  | kernels => "Path to the kernel manifests. Env: INFERGRAPH_KERNELS."
  | logFormat => "Log output format. Options: 'text' or 'json'. Env: INFERGRAPH_LOG_FORMAT."
  | logLevel => "Set the logging level. Options: 'debug', 'info', 'warn', 'error'. Env: INFERGRAPH_LOG_LEVEL."
  | shortModel => "Path to the model file or directory (shorthand)."
  | maxIterations => "Cap on fusion passes. 0 uses the built-in default."
  | model => "Path to the model file or directory."
  | noFusion => "Only normalize the graph, do not fuse operators."
  | printFormat => "Report format. Options: 'text' or 'json'."
  | target => "Kernel target the graph must run on. Env: INFERGRAPH_TARGET."

/-- The word for the values of a flag in the usage; a switch takes none. -/
def valueWord : Flag → String
  | noFusion => ""
  | maxIterations => " int"
  | _ => " string"

/-- The default text of a flag, from the environment or else its own. -/
def default (env : Environment) (f : Flag) : String :=
  match f.envName?.bind env.get? with
  | some v => if v = "" then own f else v
  | none => own f
where
  /-- The default text without the environment. -/
  own : Flag → String
    | logFormat => "text"
    | logLevel => "info"
    | printFormat => "text"
    | target => Settings.defaultTarget
    | _ => ""

/-- The lines of a flag in the usage. -/
def usage (env : Environment) (f : Flag) : String :=
  let suffix := if f.default env = "" then "" else s!" (default {Text.quote (f.default env)})"
  s!"  -{f.name}{f.valueWord}\n    \t{f.help}{suffix}\n"

/-- The value of a switch. -/
def switch? (s : String) : Option Bool :=
  if ["1", "t", "T", "TRUE", "true", "True"].contains s then some true
  else if ["0", "f", "F", "FALSE", "false", "False"].contains s then some false
  else none

end Flag

namespace Arguments

/-- The text that explains the command line. -/
def usage (env : Environment) : String :=
  "\ninfergraph - An inference graph compiler.\n\n" ++
  "Loads a model description, fuses operator chains, and prints the\n" ++
  "execution order with its calibration data.\n\n" ++
  "Usage:\n  infergraph [options] [MODEL_PATH]\n\n" ++
  "Arguments:\n  MODEL_PATH\n    Path to a single .hcl file or a directory containing .hcl files.\n\n" ++
  "Options:\n" ++ String.join (Flag.all.map (Flag.usage env))

/-- Why arguments can not be read. -/
inductive Error where
  | malformed (argument : String)
  | unknown (name : String)
  | noValue (flag : Flag)
  | notSwitch (flag : Flag) (value : String)
  | notInteger (flag : Flag) (value : String) (cause : Text.IntegerError)
  deriving DecidableEq, Repr

/-- The text of an error. -/
def Error.text : Error → String
  | malformed argument => s!"bad flag syntax: {argument}"
  | unknown name => s!"flag provided but not defined: -{name}"
  | noValue flag => s!"flag needs an argument: -{flag.name}"
  | notSwitch flag value => s!"invalid boolean value {Text.quote value} for -{flag.name}: parse error"
  | notInteger flag value .malformed => s!"invalid value {Text.quote value} for flag -{flag.name}: parse error"
  | notInteger flag value .outOfRange =>
    s!"invalid value {Text.quote value} for flag -{flag.name}: value out of range"

/-- What is assumed without arguments. -/
def defaults (env : Environment) : Arguments where
  options :=
    { kernels := Flag.kernels.default env
      target := Flag.target.default env
      printFormat := Flag.printFormat.default env
      logFormat := Flag.logFormat.default env
      logLevel := Flag.logLevel.default env }

/-- Sets the value of a flag. -/
def set (a : Arguments) (flag : Flag) (value : String) : Except Error Arguments :=
  let o := a.options
  match flag with
  | .kernels => .ok { a with options := { o with kernels := value } }
  | .logFormat => .ok { a with options := { o with logFormat := value } }
  | .logLevel => .ok { a with options := { o with logLevel := value } }
  | .shortModel => .ok { a with shortModel := value }
  | .model => .ok { a with options := { o with model := value } }
  | .printFormat => .ok { a with options := { o with printFormat := value } }
  | .target => .ok { a with options := { o with target := value } }
  | .noFusion =>
    match Flag.switch? value with
    | some noFusion => .ok { a with options := { o with noFusion } }
    | none => .error (.notSwitch flag value)
  | .maxIterations =>
    match Text.readInteger value with
    | .ok maxIterations => .ok { a with options := { o with maxIterations } }
    | .error cause => .error (.notInteger flag value cause)

/-- What an argument is by its form. -/
inductive Form where
  /-- No flag; neither is anything behind it. -/
  | plain
  /-- The end of the flags. -/
  | end_
  | malformed
  | flag (name : String) (value : Option String)
  deriving DecidableEq, Repr

/-- A name with the value behind the first equals sign. -/
def nameValue (cs : List Char) : Form :=
  let name := cs.takeWhile (· ≠ '=')
  if name.isEmpty ∨ name.head? = some '-' then .malformed
  else .flag (String.ofList name) <|
    match cs.dropWhile (· ≠ '=') with
    | [] => none
    | _ :: value => some (String.ofList value)

/-- The form of an argument. -/
def form (argument : String) : Form :=
  match argument.toList with
  | ['-', '-'] => .end_
  | '-' :: '-' :: cs => nameValue cs
  | '-' :: c :: cs => nameValue (c :: cs)
  | _ => .plain

/-- What reading the arguments comes to. -/
inductive Reading where
  /-- The arguments and what is left behind the flags. -/
  | done (a : Arguments) (rest : List String)
  /-- The usage is asked for. -/
  | help
  | failed (e : Error)
  deriving Repr

/-- Goes on with arguments that could be read. -/
def Reading.continue (r : Except Error Arguments) (next : Arguments → Reading) : Reading :=
  match r with
  | .ok a => next a
  | .error e => .failed e

/-- Reads arguments, given what was read before. -/
def read : Arguments → List String → Reading
  | a, [] => .done a []
  | a, argument :: rest =>
    match form argument with
    | .plain => .done a (argument :: rest)
    | .end_ => .done a rest
    | .malformed => .failed (.malformed argument)
    | .flag name value =>
      match Flag.ofName? name with
      | none => if name = "h" ∨ name = "help" then .help else .failed (.unknown name)
      | some flag =>
        match value with
        | some value => .continue (a.set flag value) fun a => read a rest
        | none =>
          if flag = .noFusion then .continue (a.set flag "true") fun a => read a rest
          else match rest with
            | [] => .failed (.noValue flag)
            | value :: rest => .continue (a.set flag value) fun a => read a rest

/-- The options of arguments: the model is that of the long flag, or of the short one, or what is left. -/
def toOptions (a : Arguments) (rest : List String) : Options :=
  let model :=
    if a.options.model ≠ "" then a.options.model
    else if a.shortModel ≠ "" then a.shortModel
    else rest.headD ""
  { a.options with model, target := Text.trim a.options.target }

end Arguments

/-- Why a command line can not be followed. -/
inductive CommandError where
  | arguments (e : Arguments.Error)
  | settings (e : Settings.Error)
  deriving DecidableEq, Repr

/-- The text of an error. -/
def CommandError.text : CommandError → String
  | arguments e => e.text
  | settings e => e.text

/-- What a command line asks for. -/
inductive Request where
  | compile (s : Settings)
  /-- Nothing but the usage. -/
  | usage
  | failed (e : CommandError)
  deriving Repr

/-- What the arguments of a command line ask for. -/
def Request.ofArguments (env : Environment) (args : List String) : Request :=
  match Arguments.read (.defaults env) args with
  | .help => .usage
  | .failed e => .failed (.arguments e)
  | .done a rest =>
    let options := a.toOptions rest
    if options.model = "" then .usage
    else match Settings.ofOptions options with
      | .ok s => .compile s
      | .error e => .failed (.settings e)

/-- What is written in reply to a request before anything is done: the usage, behind the fault in the arguments. -/
def Request.output (env : Environment) : Request → String
  | usage => Arguments.usage env
  | failed (.arguments e) => e.text ++ "\n" ++ Arguments.usage env
  | _ => ""

end OpGraph
