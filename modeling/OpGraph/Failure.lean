/-!
# Failures

What an operation reports when it can not be done: a tree of texts, some of which carry a `Kind`. The text of
a failure is a function of the tree (`Failure.text`), and so is its kind, that of the first tagged failure met
when the tree is read from the top (`Failure.kind`).
-/

namespace OpGraph

/-- The class of a tagged failure. -/
inductive Kind where
  | unknown
  /-- A node, variable or edge that is referred to is absent. -/
  | notFound
  /-- A node or edge of the same identity exists. -/
  | alreadyExists
  /-- A cycle, a dangling reference or a call in the wrong state. -/
  | invalidGraph
  /-- The topology was to be changed after it was frozen. -/
  | frozenViolation
  /-- A fusion step would consume a registered output. -/
  | fusionConflict
  /-- A value was read with the wrong type. -/
  | typeMismatch
  /-- The length of a vector does not fit. -/
  | sizeMismatch
  /-- Fusion reached its cap before it reached a fixpoint. -/
  | iterationLimit
  /-- A class without a name of its own. -/
  | other (code : Int)
  deriving DecidableEq, Repr, Inhabited

namespace Kind

/-- The text of a kind. -/
def text : Kind → String
  | unknown => "unknown"
  | notFound => "not found"
  | alreadyExists => "already exists"
  | invalidGraph => "invalid graph"
  | frozenViolation => "frozen violation"
  | fusionConflict => "fusion conflict"
  | typeMismatch => "type mismatch"
  | sizeMismatch => "size mismatch"
  | iterationLimit => "iteration limit"
  | other code => "kind(" ++ toString code ++ ")"

/-- The named kinds in the order of their codes, `unknown` apart. -/
def named : List Kind :=
  [notFound, alreadyExists, invalidGraph, frozenViolation, fusionConflict, typeMismatch, sizeMismatch,
    iterationLimit]

/-- The kind with a code: 0 is `unknown`, 1 to 8 are the named kinds. -/
def ofCode (code : Int) : Kind :=
  if code < 0 then other code
  else match (unknown :: named)[code.toNat]? with
    | some kind => kind
    | none => other code

end Kind

/-- Why an operation could not be done. -/
inductive Failure where
  /-- A text without a kind. -/
  | plain (text : String)
  /-- A failure of a kind; `op` names the operation that failed and may be empty, as may `message`. -/
  | tagged (kind : Kind) (op message : String)
  /-- A failure of a kind with another one as its cause. -/
  | caused (kind : Kind) (op message : String) (cause : Failure)
  /-- A text put in front of another failure. -/
  | context (text : String) (cause : Failure)
  /-- Several failures at once. -/
  | joined (members : List Failure)
  deriving Repr, Inhabited

namespace Failure

/-- The text of a tag: operation, kind and message, the empty ones left out. -/
def tagText (kind : Kind) (op message : String) : String :=
  (if op = "" then "" else op ++ ": ") ++ kind.text ++ (if message = "" then "" else ": " ++ message)

mutual

/-- The text of a failure; the members of a joined one stand on lines of their own. -/
def text : Failure → String
  | plain text => text
  | tagged kind op message => tagText kind op message
  | caused kind op message cause => tagText kind op message ++ ": " ++ cause.text
  | context text cause => text ++ ": " ++ cause.text
  | joined members => "\n".intercalate (texts members)

/-- The texts of a list of failures. -/
def texts : List Failure → List String
  | [] => []
  | f :: fs => f.text :: texts fs

end

mutual

/-- The kinds of the tagged failures of a tree, read from the top. -/
def kinds : Failure → List Kind
  | plain _ => []
  | tagged kind _ _ => [kind]
  | caused kind _ _ cause => kind :: cause.kinds
  | context _ cause => cause.kinds
  | joined members => kindsOf members

/-- The kinds of the tagged failures of a list of trees. -/
def kindsOf : List Failure → List Kind
  | [] => []
  | f :: fs => f.kinds ++ kindsOf fs

end

/-- The kind of a failure: that of its first tagged part, `unknown` without one. -/
def kind (f : Failure) : Kind :=
  f.kinds.head?.getD .unknown

/-- Whether a failure has a part of a kind. -/
def isKind (f : Failure) (kind : Kind) : Bool :=
  f.kinds.contains kind

/-- The failure a failure was made from, if it was made from exactly one. -/
def cause? : Failure → Option Failure
  | caused _ _ _ cause => some cause
  | context _ cause => some cause
  | _ => none

/-- A failure of a kind with a message. -/
def of (kind : Kind) (message : String) : Failure :=
  tagged kind "" message

/-- A failure of a kind with a message and the failure that caused it. -/
def wrap (kind : Kind) (message : String) (cause : Failure) : Failure :=
  caused kind "" message cause

/-- Names the operation that failed on a tag, whatever was named before. -/
def withOp (op : String) : Failure → Failure
  | tagged kind _ message => tagged kind op message
  | caused kind _ message cause => caused kind op message cause
  | f => f

/-- Names the operation that failed, unless the failure already says more: a tag keeps the operation it names,
and a text around a tagged failure stays as it is. A failure without any kind becomes an invalid graph. -/
def annotate (op : String) : Failure → Failure
  | tagged kind own message => tagged kind (if own = "" then op else own) message
  | caused kind own message cause => caused kind (if own = "" then op else own) message cause
  | f => if f.kind = .unknown then caused .invalidGraph op "" f else f

/-- Several failures as one; nothing is to be reported when there is none. -/
def join : List Failure → Option Failure
  | [] => none
  | fs => some (joined fs)

end Failure

/-- The end of a call that does not return: the failure it reports, or the message it is aborted with when it
finds its own state broken. -/
inductive Fault where
  | failure (failure : Failure)
  | abort (message : String)
  deriving Repr, Inhabited

/-- Errors that end a call in a known way. -/
class Reported (ε : Type) where
  /-- How a call ends that fails with an error. -/
  fault : ε → Fault

instance : Reported Failure := ⟨.failure⟩

instance : Reported Fault := ⟨id⟩

/-- Passes on a result, with the failure of a call as its fault. -/
def Fault.ofExcept {α : Type} : Except Failure α → Except Fault α
  | .ok a => .ok a
  | .error f => .error (.failure f)

end OpGraph
