import OpGraph.Attribute.Value
import OpGraph.Data.Dict

/-!
# Attribute stores

The attributes of an operator: valid values under names that are not empty.
-/

namespace OpGraph.Attribute

/-- Why a store can not do what it was asked for. -/
inductive Error where
  | emptyName
  | untyped (name : String)
  | missing (name : String)
  | mismatch (name : String) (reason : Mismatch)
  | taken (name : String)
  deriving DecidableEq, Repr

/-- The failure an error is reported as. -/
def Error.toFailure : Error → Failure
  | emptyName => .of .invalidGraph "attribute name must not be empty"
  | untyped name => .of .typeMismatch s!"attribute {Text.quote name}: value has no type"
  | missing name => .of .notFound s!"attribute {Text.quote name} is not set"
  | mismatch name reason => .wrap .typeMismatch s!"attribute {Text.quote name}" reason.toFailure
  | taken name => .of .alreadyExists s!"attribute {Text.quote name} already set"

instance : Reported Error := ⟨fun e => .failure e.toFailure⟩

/-- The values of an operator's attributes by name. -/
abbrev Store := Dict Value

namespace Store

/-- Puts a value under a name, replacing the one before. -/
def set (s : Store) (name : String) (v : Value) : Except Error Store :=
  if name = "" then .error .emptyName
  else if !v.isValid then .error (.untyped name)
  else .ok (s.insert name v)

/-- Whether two stores have the same names with the same values. -/
def same (a b : Store) : Bool :=
  a.size == b.size && a.entries.all fun (k, v) =>
    match b.get? k with
    | some w => v.same w
    | none => false

/-- An attribute's name behind a qualifier; an empty qualifier leaves it as it is. -/
def qualified (qualifier name : String) : String :=
  if qualifier = "" then name else qualifier ++ "." ++ name

/-- Adds one attribute under its qualified name, which must be free. -/
def adopt (qualifier : String) (s : Store) (name : String) (v : Value) : Except Error Store :=
  let own := qualified qualifier name
  if s.contains own then .error (.taken own) else s.set own v

/-- Adds attributes in turn up to the first that can not be added; gives the store so far and what stopped it. -/
def adoptAll (qualifier : String) : Store → List (String × Value) → Store × Option Error
  | s, [] => (s, none)
  | s, (name, v) :: rest =>
    match adopt qualifier s name v with
    | .ok s => adoptAll qualifier s rest
    | .error e => (s, some e)

/-- Adds every attribute of another store under its qualified name, ascending. -/
def merge (s : Store) (qualifier : String) (other : Store) : Store × Option Error :=
  adoptAll qualifier s other.entries

/-- Reads an attribute as what `read` makes of its value. -/
def get {α : Type} (s : Store) (read : Value → Except Mismatch α) (name : String) : Except Error α :=
  match s.get? name with
  | none => .error (.missing name)
  | some v =>
    match read v with
    | .ok a => .ok a
    | .error reason => .error (.mismatch name reason)

/-- Reads an attribute, or gives the default when it is not set. -/
def getOr {α : Type} (s : Store) (read : Value → Except Mismatch α) (name : String) (default : α) :
    Except Error α :=
  if s.contains name then s.get read name else .ok default

end Store

/-- A place for a store that may still be vacant. It reads as an empty store. -/
abbrev Slot := Option Store

namespace Slot

/-- The store a slot reads as. -/
def store (slot : Slot) : Store :=
  slot.getD {}

/-- What a write into a vacant slot is aborted with. -/
def vacant : Fault :=
  .abort "runtime error: invalid memory address or nil pointer dereference"

/-- Writes into the store of a slot; a vacant slot has none to write to. -/
def set (slot : Slot) (name : String) (v : Value) : Except Fault Slot :=
  match slot.store.set name v with
  | .error e => .error (.failure e.toFailure)
  | .ok s => if slot.isNone then .error vacant else .ok (some s)

/-- Merges another store into that of a slot. What was merged before a failure stays. -/
def merge (slot : Slot) (qualifier : String) (other : Store) : Slot × Option Fault :=
  match slot.store.merge qualifier other with
  | (s, e) =>
    if slot.isNone && !s.isEmpty then (slot, some vacant)
    else (slot.map fun _ => s, e.map fun e => .failure e.toFailure)

end Slot

end OpGraph.Attribute
