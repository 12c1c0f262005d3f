import OpGraph.Fusion.Pattern
import OpGraph.Graph.Node
import OpGraph.Kernel.Field

/-!
# Kernels

A kernel runs operators of one type on one target, at some precisions and with the attributes that its record of
fields takes.
-/

namespace OpGraph

/-- A kernel. -/
structure Kernel where
  /-- The precisions it runs at; none means `fp32` only. -/
  precisions : List Precision := []
  /-- The record its attributes are read into, if it reads any. -/
  fields : Option (List Kernel.Field) := none
  deriving Repr, Inhabited

namespace Kernel

/-- What a kernel runs, and where. -/
structure Key where
  op : String
  target : String
  deriving DecidableEq, Repr

/-- The text of a key. -/
def Key.text (k : Key) : String :=
  k.op ++ "/" ++ k.target

/-- Whether a kernel runs at a precision. -/
def supports (k : Kernel) (p : Precision) : Bool :=
  if k.precisions.isEmpty then p == .fp32 else k.precisions.contains p

/-- The parameters of a kernel in the order of its fields. -/
def parameters (k : Kernel) : List Parameter :=
  (k.fields.getD []).filterMap Field.parameter?

/-! ### Reading attributes -/

/-- Why an attribute can not be read. -/
inductive BindError where
  | missing (attr : String)
  | unassignable (attr : String) (cause : Unassignable)
  deriving Repr

/-- The failure an error is reported as. -/
def BindError.toFailure : BindError → Failure
  | missing attr => .of .notFound s!"required attribute {Text.quote attr} is not set"
  | unassignable attr cause => .wrap .typeMismatch s!"attribute {Text.quote attr}" cause.toFailure

/-- What a field holds after the attributes were read. -/
def Field.bind (attrs : Attribute.Store) (f : Field) : Except BindError FieldValue :=
  match f.parameter? with
  | none => .ok f.type.zero
  | some p =>
    match attrs.get? p.attr with
    | none => if p.isOptional then .ok f.type.zero else .error (.missing p.attr)
    | some v => (f.type.assign v).mapError (.unassignable p.attr)

/-- The errors among some results. -/
def errorsOf {ε α : Type} (rs : List (Except ε α)) : List ε :=
  rs.filterMap fun
    | .error e => some e
    | .ok _ => none

/-- The values among some results. -/
def valuesOf {ε α : Type} (rs : List (Except ε α)) : List α :=
  rs.filterMap fun
    | .error _ => none
    | .ok a => some a

/-- Reads attributes into the fields of a kernel; every attribute that can not be read is reported. There is no
record to be filled if the kernel reads nothing. -/
def bind (k : Kernel) (attrs : Attribute.Store) : Except (List BindError) (Option (List (String × FieldValue))) :=
  match k.fields with
  | none => .ok none
  | some fields =>
    let results := fields.map fun f => (f.bind attrs).map fun v => (f.name, v)
    match errorsOf results with
    | [] => .ok (some (valuesOf results))
    | errors => .error errors

/-- The failure of a record that can not be filled. -/
def bindFailure (errors : List BindError) : Failure :=
  .joined (errors.map BindError.toFailure)

end Kernel

end OpGraph
