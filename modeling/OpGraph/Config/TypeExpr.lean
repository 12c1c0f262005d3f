import OpGraph.Config.Body

/-!
# Type expressions

Types are written as expressions: a bare name for a plain type, a call for a type made of others.
-/

namespace OpGraph.Config

namespace Expr

mutual

/-- The type an expression is written for. The fields of an object have different names. -/
def type? : Expr → Option Ty
  | ref "string" => some .string
  | ref "number" => some .number
  | ref "bool" => some .bool
  | ref "any" => some .any
  | call "list" [t] => t.type?.map .list
  | call "set" [t] => t.type?.map .set
  | call "map" [t] => t.type?.map .map
  | call "tuple" [tuple ts] => (types? ts).map .tuple
  | call "object" [object keys ts] => do
    let names ← keys.mapM keyName?
    let types ← fieldTypes? ts
    if names.eraseDups.length < names.length then none
    let d := Dict.ofList (names.zip types)
    return .object d.keys d.values
  | _ => none

/-- The types expressions are written for. -/
def types? : List Expr → Option (List Ty)
  | [] => some []
  | e :: es => do return (← e.type?) :: (← types? es)

/-- The types of the fields of an object, which may be marked optional. -/
def fieldTypes? : List Expr → Option (List Ty)
  | [] => some []
  | call "optional" [t] :: es => do return (← t.type?) :: (← fieldTypes? es)
  | e :: es => do return (← e.type?) :: (← fieldTypes? es)

end

end Expr

namespace Ty

/-- The type with a text. -/
def ofString? (s : String) : Option Ty := do
  let ts ← Token.ofString? s
  let (e, rest) ← Expr.read (Expr.fuel ts) false ts
  if rest.isEmpty then e.type? else none

/-- Why a type can not be that of a parameter. -/
inductive Unsupported where
  | anyElement
  | element (type : Ty)
  | type (type : Ty)
  deriving Repr

/-- The text of the failure of a type. -/
def Unsupported.text : Unsupported → String
  | anyElement => "collection types cannot contain type 'any'"
  | element t => s!"unsupported list element type {t.friendlyName}"
  | type t => s!"unsupported param type {t.friendlyName}"

/-- Checks that a type can be that of a parameter: plain, or a list of numbers or texts. -/
def checkParam : Ty → Except Unsupported Ty
  | string => .ok string
  | number => .ok number
  | bool => .ok bool
  | any => .ok any
  | list any => .error .anyElement
  | list number => .ok (list number)
  | list string => .ok (list string)
  | list t => .error (.element t)
  | t => .error (.type t)

end Ty

end OpGraph.Config
