/-!
# Types of configuration values
-/

namespace OpGraph.Config

/-- The type of a value. A value of type `any` is one whose type is not known yet. -/
inductive Ty where
  | any
  | string
  | number
  | bool
  | list (element : Ty)
  | set (element : Ty)
  | map (element : Ty)
  | tuple (elements : List Ty)
  /-- An object: the names of its fields, ascending, and their types. -/
  | object (names : List String) (types : List Ty)
  deriving Repr, Inhabited

namespace Ty

/-- The name of a type in messages. -/
def friendlyName : Ty → String
  | any => "dynamic"
  | string => "string"
  | number => "number"
  | bool => "bool"
  | list t => "list of " ++ t.friendlyName
  | set t => "set of " ++ t.friendlyName
  | map t => "map of " ++ t.friendlyName
  | tuple _ => "tuple"
  | object _ _ => "object"

mutual

/-- Whether two types are the same. -/
def same : Ty → Ty → Bool
  | any, any | string, string | number, number | bool, bool => true
  | list a, list b => same a b
  | set a, set b => same a b
  | map a, map b => same a b
  | tuple as, tuple bs => sameAll as bs
  | object ns as, object ms bs => ns == ms && sameAll as bs
  | _, _ => false

/-- Whether two lists of types are the same. -/
def sameAll : List Ty → List Ty → Bool
  | [], [] => true
  | a :: as, b :: bs => same a b && sameAll as bs
  | _, _ => false

end

instance : BEq Ty := ⟨same⟩

/-! ### Kinds and parts -/

/-- Whether a type is that of lists. -/
def isList : Ty → Bool
  | list _ => true
  | _ => false

/-- Whether a type is that of sets. -/
def isSet : Ty → Bool
  | set _ => true
  | _ => false

/-- Whether a type is that of maps. -/
def isMap : Ty → Bool
  | map _ => true
  | _ => false

/-- Whether a type is that of tuples. -/
def isTuple : Ty → Bool
  | tuple _ => true
  | _ => false

/-- Whether a type is that of objects. -/
def isObject : Ty → Bool
  | object _ _ => true
  | _ => false

/-- The types of the elements or fields of a type. -/
def parts : Ty → List Ty
  | list t | set t | map t => [t]
  | tuple ts | object _ ts => ts
  | _ => []

/-- The names of the fields of objects. -/
def names : Ty → List String
  | object ns _ => ns
  | _ => []

/-- The type of a field of objects. -/
def field? (name : String) (t : Ty) : Option Ty :=
  ((t.names.zip t.parts).find? fun p => p.1 == name).map (·.2)

/-- How many types are nested in a type. -/
def depth : Ty → Nat
  | list t | set t | map t => t.depth + 1
  | tuple ts => depths ts + 1
  | object _ ts => depths ts + 1
  | _ => 1
where
  /-- How many types are nested in one of some types. -/
  depths : List Ty → Nat
    | [] => 0
    | t :: ts => max t.depth (depths ts)

/-- The type that some types have in common if those that are not known are left out. -/
def common? (ts : List Ty) : Option Ty :=
  match ts.filter fun t => !(t == any) with
  | [] => some any
  | t :: rest => if rest.all (· == t) then some t else none

end Ty

end OpGraph.Config
