import OpGraph.Attribute.Value
import OpGraph.Config.Ty

/-!
# Parameter fields

A kernel reads its attributes into a record of typed fields. A field that is tied to an attribute by a label is a
parameter; the label may also say that the attribute need not be set.
-/

namespace OpGraph.Kernel

/-- The type of a field. -/
inductive FieldType where
  | int
  | int8
  | int32
  | int64
  | uint
  | float32
  | float64
  | string
  | bool
  | list (element : FieldType)
  /-- A table of texts. -/
  | table
  | complex
  deriving DecidableEq, Repr, Inhabited

/-- What a field holds; `absent` stands in fields that can not be set. -/
inductive FieldValue where
  | int (value : Int64)
  | single (value : Float32)
  | double (value : Float)
  | string (value : String)
  | bool (value : Bool)
  | list (elements : List FieldValue)
  | absent
  deriving Repr, Inhabited

/-- Why a field can not take a value. -/
inductive Unassignable where
  | mismatch (cause : Attribute.Mismatch)
  | element (index : Nat) (cause : Unassignable)
  | unsupported (type : FieldType)
  deriving Repr

namespace FieldType

/-- The text of a type. -/
def text : FieldType → String
  | int => "int"
  | int8 => "int8"
  | int32 => "int32"
  | int64 => "int64"
  | uint => "uint"
  | float32 => "float32"
  | float64 => "float64"
  | string => "string"
  | bool => "bool"
  | list t => "[]" ++ t.text
  | table => "map[string]string"
  | complex => "complex128"

/-- The types that are no lists. -/
def plain : List FieldType :=
  [int, int8, int32, int64, uint, float32, float64, string, bool, table, complex]

/-- Reads a type without brackets in front, or one inside as many pairs of brackets as are written in front. -/
def ofChars? : List Char → Option FieldType
  | '[' :: ']' :: cs => (ofChars? cs).map list
  | cs => plain.find? fun t => t.text.toList = cs

/-- The type with a text. -/
def ofText? (s : String) : Option FieldType :=
  ofChars? s.toList

/-- The type of configuration values a field can be described by, if there is one. -/
def described? : FieldType → Option Config.Ty
  | int | int8 | int32 | int64 | uint | float32 | float64 => some .number
  | string => some .string
  | bool => some .bool
  | list t => t.described?.map .list
  | table => some (.map .string)
  | complex => none

/-- What a field holds before it is set. -/
def zero : FieldType → FieldValue
  | int | int8 | int32 | int64 | uint => .int 0
  | float32 => .single 0
  | float64 => .double 0
  | string => .string ""
  | bool => .bool false
  | list _ => .list []
  | table | complex => .absent

/-- The number a value holds, integers included. -/
def number : Attribute.Value → Except Unassignable Float
  | .int v => .ok v.toFloat
  | v => v.asFloat.mapError .mismatch

/-- Takes the elements from a position on. -/
def assignEach (assign : Attribute.Value → Except Unassignable FieldValue) :
    Nat → List Attribute.Value → Except Unassignable (List FieldValue)
  | _, [] => .ok []
  | i, v :: vs =>
    match assign v with
    | .error cause => .error (.element i cause)
    | .ok a => return a :: (← assignEach assign (i + 1) vs)

/-- What a field of a type holds once it has taken a value. A narrow integer keeps the low bits, a narrow float is
rounded, truth is a number that is not zero. -/
def assign : FieldType → Attribute.Value → Except Unassignable FieldValue
  | int, v | int64, v => return .int (← v.asInt.mapError .mismatch)
  | int32, v => return .int (← v.asInt.mapError .mismatch).toInt32.toInt64
  | float32, v => return .single (← number v).toFloat32
  | float64, v => return .double (← number v)
  | string, v => return .string (← v.asString.mapError .mismatch)
  | bool, v => return .bool ((← v.asInt.mapError .mismatch) != 0)
  | list t, v => do
    let vs ← v.asList.mapError .mismatch
    return .list (← assignEach t.assign 0 vs)
  | t, _ => .error (.unsupported t)

end FieldType

/-- The failure of a field that can not take a value. -/
def Unassignable.toFailure : Unassignable → Failure
  | mismatch cause => cause.toFailure
  | element i cause => .context s!"element {i}" cause.toFailure
  | unsupported t => .plain s!"unsupported params field type {t.text}"

/-- A field of a kernel's record. -/
structure Field where
  name : String
  type : FieldType
  /-- The name of an attribute, and after commas what else is to be said about it. -/
  label : String := ""
  deriving DecidableEq, Repr

/-- A field that is tied to an attribute. -/
structure Parameter where
  attr : String
  field : Field
  isOptional : Bool
  deriving DecidableEq, Repr

/-- The parameter of a field, if it is one. The label `-` ties it to nothing. -/
def Field.parameter? (f : Field) : Option Parameter :=
  match (f.label.toList.splitOn ',').map String.ofList with
  | [] => none
  | attr :: rest => if attr = "" ∨ attr = "-" then none else some ⟨attr, f, rest.contains "optional"⟩

end OpGraph.Kernel
