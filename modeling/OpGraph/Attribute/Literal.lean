import OpGraph.Attribute.Store

/-!
# Attribute literals

The values a caller may write for an attribute, with the machine type they come in, and how they become
attribute values.
-/

namespace OpGraph.Attribute

/-- The types of signed integers. -/
inductive SignedType where
  | int
  | int8
  | int32
  | int64
  deriving DecidableEq, Repr

/-- The text of a type of signed integers. -/
def SignedType.text : SignedType → String
  | int => "int"
  | int8 => "int8"
  | int32 => "int32"
  | int64 => "int64"

/-- The types of unsigned integers. -/
inductive UnsignedType where
  | uint8
  | uint32
  | uint64
  deriving DecidableEq, Repr

/-- The text of a type of unsigned integers. -/
def UnsignedType.text : UnsignedType → String
  | uint8 => "uint8"
  | uint32 => "uint32"
  | uint64 => "uint64"

/-- A value as a caller writes it. A list may be missing, which is not the same as an empty one to every reader. -/
inductive Literal where
  | absent
  | value (v : Value)
  | values (vs : Option (List Value))
  | signed (type : SignedType) (v : Int64)
  | unsigned (type : UnsignedType) (v : UInt64)
  | single (v : Float32)
  | double (v : Float)
  | string (v : String)
  | bool (v : Bool)
  | ints (type : SignedType) (vs : Option (List Int64))
  | singles (vs : Option (List Float32))
  | doubles (vs : Option (List Float))
  | strings (vs : Option (List String))
  | bools (vs : Option (List Bool))
  | table (rows : Option (List (Option (List Int64))))
  | counts (entries : Option (Dict Int64))
  | complex

namespace Literal

/-- The text of a literal's type. -/
def typeText : Literal → String
  | absent => "<nil>"
  | value _ => "attr.Value"
  | values _ => "[]attr.Value"
  | signed type _ => type.text
  | unsigned type _ => type.text
  | single _ => "float32"
  | double _ => "float64"
  | string _ => "string"
  | bool _ => "bool"
  | ints type _ => "[]" ++ type.text
  | singles _ => "[]float32"
  | doubles _ => "[]float64"
  | strings _ => "[]string"
  | bools _ => "[]bool"
  | table _ => "[][]int64"
  | counts _ => "map[string]int"
  | complex => "complex128"

/-- The attribute value of a literal, if its type is one that attributes can have. Truth is stored as 0 or 1. -/
def value? : Literal → Option Value
  | value v => some v
  | values vs => some (.list (vs.getD []))
  | signed .int8 _ => none
  | signed _ v => some (.int v)
  | unsigned .uint32 v => some (.int v.toInt64)
  | unsigned _ _ => none
  | single v => some (.float v.toFloat)
  | double v => some (.float v)
  | string v => some (.string v)
  | bool v => some (.int (if v then 1 else 0))
  | ints .int vs => some (.ints (vs.getD []))
  | ints .int64 vs => some (.ints (vs.getD []))
  | ints _ _ => none
  | singles vs => some (.floats ((vs.getD []).map Float32.toFloat))
  | doubles vs => some (.floats (vs.getD []))
  | strings vs => some (.strings (vs.getD []))
  | absent | bools _ | table _ | counts _ | complex => none

/-- The attribute value of a literal. -/
def toValue (l : Literal) : Except Failure Value :=
  match l.value? with
  | some v => .ok v
  | none => .error (.of .typeMismatch s!"unsupported attribute type {l.typeText}")

/-- The attribute value of a literal that is known to have one; any other aborts. -/
def toValue! (l : Literal) : Except Fault Value :=
  match l.toValue with
  | .ok v => .ok v
  | .error f => .error (.abort s!"attr.MustOf: {f.text}")

end Literal

end OpGraph.Attribute
