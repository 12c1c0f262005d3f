import OpGraph.Failure
import OpGraph.Text.Quoted

/-!
# Fusion patterns

A pattern is a chain of operator types that can run as one operator. A library keeps patterns under their names;
longer chains have priority, and of equally long ones those that were registered first.
-/

namespace OpGraph

/-- What an operator at one position of a pattern must be like. -/
structure Constraint where
  type : String
  /-- The number of edges into it; zero allows any number. -/
  arity : Int := 0
  deriving DecidableEq, Repr

/-- A chain of operators that can be fused. -/
structure Pattern where
  name : String
  ops : List Constraint
  deriving DecidableEq, Repr

namespace Pattern

/-- The pattern of a chain of types, with any number of edges at each. -/
def chain (name : String) (types : List String) : Pattern :=
  ⟨name, types.map fun t => { type := t }⟩

/-- The types of a pattern. -/
def types (p : Pattern) : List String :=
  p.ops.map (·.type)

/-- The text of a pattern. -/
def text (p : Pattern) : String :=
  p.name ++ "\x7b" ++ ", ".intercalate p.types ++ "\x7d"

/-- Why a pattern can not be used. -/
inductive Error where
  | unnamed
  | tooShort (name : String) (count : Nat)
  | untyped (name : String) (position : Nat)
  | negativeArity (name : String) (position : Nat)
  | taken (name : String)
  deriving DecidableEq, Repr

/-- The failure an error is reported as. -/
def Error.toFailure : Error → Failure
  | unnamed => .of .invalidGraph "pattern has no name"
  | tooShort name count =>
    .of .invalidGraph s!"pattern {Text.quote name} needs at least two ops, has {count}"
  | untyped name position => .of .invalidGraph s!"pattern {Text.quote name} position {position} has no type"
  | negativeArity name position =>
    .of .invalidGraph s!"pattern {Text.quote name} position {position} has negative arity"
  | taken name => .of .alreadyExists s!"pattern {Text.quote name}"

instance : Reported Error := ⟨fun e => .failure e.toFailure⟩

/-- Checks the constraints from a position on. -/
def checkOps (name : String) : Nat → List Constraint → Except Error Unit
  | _, [] => .ok ()
  | i, c :: cs =>
    if c.type = "" then .error (.untyped name i)
    else if c.arity < 0 then .error (.negativeArity name i)
    else checkOps name (i + 1) cs

/-- Checks that a pattern can be used. -/
def validate (p : Pattern) : Except Error Unit :=
  if p.name = "" then .error .unnamed
  else if p.ops.length < 2 then .error (.tooShort p.name p.ops.length)
  else checkOps p.name 0 p.ops

end Pattern

/-- Patterns in the order in which they were registered. -/
structure Library where
  patterns : List Pattern := []
  deriving DecidableEq, Repr, Inhabited

namespace Library

/-- Adds a pattern. -/
def register (l : Library) (p : Pattern) : Except Pattern.Error Library := do
  p.validate
  if l.patterns.any (·.name == p.name) then throw (.taken p.name)
  return ⟨l.patterns ++ [p]⟩

/-- The library of a list of patterns. -/
def ofList (ps : List Pattern) : Except Pattern.Error Library :=
  ps.foldlM register {}

/-- Puts a pattern behind those that are at least as long. -/
def rank (p : Pattern) : List Pattern → List Pattern
  | [] => [p]
  | q :: qs => if q.ops.length < p.ops.length then p :: q :: qs else q :: rank p qs

/-- The patterns by priority. -/
def byPriority (l : Library) : List Pattern :=
  l.patterns.foldl (fun ranked p => rank p ranked) []

/-- The library that networks use unless they are given another. -/
def standard : Library where
  patterns := [
    .chain "fused_cbsr" ["conv", "batchnorm", "scale", "relu"],
    .chain "fused_cbr" ["conv", "batchnorm", "relu"],
    .chain "fused_cbs" ["conv", "batchnorm", "scale"],
    .chain "fused_crp" ["conv", "relu", "pool"],
    .chain "fused_cb" ["conv", "batchnorm"],
    .chain "fused_cr" ["conv", "relu"],
    .chain "fused_dr" ["deconv", "relu"],
    .chain "fused_er" ["eltwise", "relu"]]

end Library

end OpGraph
