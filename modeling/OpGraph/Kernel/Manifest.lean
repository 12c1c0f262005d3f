import OpGraph.Config.Value
import OpGraph.Data.Dict
import OpGraph.Kernel.Basic

/-!
# Kernel manifests

A manifest says which attributes a kernel reads, with their types and defaults.
-/

namespace OpGraph

/-- One attribute of a manifest. -/
structure Manifest.Param where
  name : String
  type : Config.Ty
  description : String := ""
  default : Option Config.Value := none
  isOptional : Bool := false
  deriving Repr, Inhabited

/-- The contract of one operator type on one target. -/
structure Manifest where
  op : String
  target : String
  description : String := ""
  /-- The precisions it promises. -/
  precisions : List String := []
  params : Dict Manifest.Param := {}
  deriving Repr, Inhabited

/-- What a manifest is about. -/
def Manifest.key (m : Manifest) : Kernel.Key :=
  ⟨m.op, m.target⟩

namespace Kernel

mutual

/-- The type of an attribute value. A list whose elements differ in type has none, nor has an empty list's element. -/
def attrType : Attribute.Value → Config.Ty
  | .invalid => .any
  | .int _ => .number
  | .float _ => .number
  | .string _ => .string
  | .list [] => .list .any
  | .list (v :: vs) => if allOfType (attrType v) vs then .list (attrType v) else .any

/-- Whether all values have a type. -/
def allOfType (type : Config.Ty) : List Attribute.Value → Bool
  | [] => true
  | v :: vs => attrType v == type && allOfType type vs

end

/-- Whether a value of a type fits a parameter. Truth is stored as a number, and an empty list fits any list. -/
def compatible (want actual : Config.Ty) : Bool :=
  want == .any || want == actual || (want == .bool && actual == .number) ||
    (want.isList && actual == .list .any)

end Kernel

end OpGraph
