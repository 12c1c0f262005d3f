import OpGraph.Attribute.Literal
import OpGraph.Config.Number
import OpGraph.Config.Ty
import OpGraph.Text.Normal

/-!
# Configuration values

The values that expressions of a configuration stand for, how they become attribute values, and how literals become
values.
-/

namespace OpGraph.Config

/-- A value of a configuration. -/
inductive Value where
  | null (type : Ty)
  | unknown (type : Ty)
  | string (value : String)
  | number (value : Number)
  | bool (value : Bool)
  | list (element : Ty) (elements : List Value)
  | set (element : Ty) (elements : List Value)
  | map (element : Ty) (keys : List String) (values : List Value)
  | tuple (elements : List Value)
  /-- An object: the names of its fields, ascending, and their values. -/
  | object (names : List String) (values : List Value)
  deriving Repr, Inhabited

namespace Value

mutual

/-- The type of a value. -/
def type : Value → Ty
  | null t => t
  | unknown t => t
  | string _ => .string
  | number _ => .number
  | bool _ => .bool
  | list t _ => .list t
  | set t _ => .set t
  | map t _ _ => .map t
  | tuple vs => .tuple (types vs)
  | object ns vs => .object ns (types vs)

/-- The types of a list of values. -/
def types : List Value → List Ty
  | [] => []
  | v :: vs => v.type :: types vs

end

/-- The value of a text, in its composed form. -/
def ofString (s : String) : Value :=
  string (Text.normal s)

/-- Whether a value is missing. -/
def isNull : Value → Bool
  | null _ => true
  | _ => false

/-! ### Lists and maps -/

/-- A missing or unknown value whose type is not known becomes one of the given type. -/
def typed (type : Ty) : Value → Value
  | null .any => null type
  | unknown .any => unknown type
  | v => v

/-- The list of some values, if they have one type. -/
def listOf? (vs : List Value) : Option Value :=
  (Ty.common? (types vs)).map fun t => list t (vs.map (typed t))

/-- The map of some keys and values, if the values have one type. -/
def mapOf? (keys : List String) (vs : List Value) : Option Value :=
  (Ty.common? (types vs)).map fun t => map t keys (vs.map (typed t))

/-! ### Attribute values -/

/-- Why a value has no attribute value. -/
inductive Unfit where
  | absent
  | range
  | type (type : Ty)
  | element (index : Nat) (cause : Unfit)
  deriving Repr

/-- The greatest 64-bit float, as a decimal with six places. -/
def greatestFloat : String :=
  toString (Nat.pow 2 1024 - Nat.pow 2 971 : Nat) ++ ".000000"

/-- The failure of a value that has no attribute value. -/
def Unfit.toFailure : Unfit → Failure
  | absent => .plain "value is null or unknown"
  | range =>
    .context "could not convert cty.Number to float64"
      (.plain s!"value must be between -{greatestFloat} and {greatestFloat} inclusive")
  | type t => .plain s!"unsupported cty type for an attribute: {t.friendlyName}"
  | element i cause => .context s!"in element {i}" cause.toFailure

instance : Reported Unfit := ⟨fun e => .failure e.toFailure⟩

/-- The float of a number among others. -/
def widened : Attribute.Value → Attribute.Value
  | .int v => .float v.toFloat
  | v => v

/-- A list of attribute values. If all are numbers and one is a float, all become floats. -/
def widen (vs : List Attribute.Value) : Attribute.Value :=
  let tags := vs.map (·.tag)
  if tags.all (fun t => t == .int || t == .float) && tags.contains .float then .list (vs.map widened)
  else .list vs

mutual

/-- The attribute value of a value. Whole numbers become integers, truth becomes 0 or 1. -/
def toAttr : Value → Except Unfit Attribute.Value
  | null _ => .error .absent
  | unknown _ => .error .absent
  | string s => .ok (.string s)
  | number n =>
    match n.toInt64? with
    | some i => .ok (.int i)
    | none =>
      match n.toFloat? with
      | some x => .ok (.float x)
      | none => .error .range
  | bool b => .ok (.int (if b then 1 else 0))
  | list _ vs => return widen (← toAttrs 0 vs)
  | set _ vs => return widen (← toAttrs 0 vs)
  | tuple vs => return widen (← toAttrs 0 vs)
  | map t _ _ => .error (.type (.map t))
  | object ns vs => .error (.type (.object ns (types vs)))

/-- The attribute values of elements from a position on. -/
def toAttrs : Nat → List Value → Except Unfit (List Attribute.Value)
  | _, [] => .ok []
  | i, v :: vs =>
    match v.toAttr with
    | .error cause => .error (.element i cause)
    | .ok a => return a :: (← toAttrs (i + 1) vs)

end

/-! ### Literals -/

/-- The value of a float; what is not a number aborts. -/
def ofFloat (x : Float) : Except Fault Value :=
  match Number.ofFloat? x with
  | some n => .ok (number n)
  | none => .error (.abort "Float.SetFloat64(NaN)")

/-- The value of a list, which may be missing. -/
def ofList {α : Type} (element : Ty) (f : α → Except Fault Value) : Option (List α) → Except Fault Value
  | none => .ok (null (.list element))
  | some xs => return list element (← xs.mapM f)

/-- The value of an integer. -/
def ofInt64 (i : Int64) : Value :=
  number (.ofInt i.toInt)

/-- The failure of a literal whose type values do not have. -/
def noType (text : String) : Fault :=
  .failure (.context "unable to infer cty.Type" (.plain s!"no cty.Type for {text}"))

/-- The value of a literal; there is none for the one that stands for nothing. -/
def ofLiteral : Attribute.Literal → Except Fault (Option Value)
  | .absent => .ok none
  | .value _ | .values _ => .error (noType "attr.Value (no cty field tags)")
  | .signed _ v => .ok (some (ofInt64 v))
  | .unsigned _ v => .ok (some (number (.ofInt v.toNat)))
  | .single v => some <$> ofFloat v.toFloat
  | .double v => some <$> ofFloat v
  | .string v => .ok (some (ofString v))
  | .bool v => .ok (some (bool v))
  | .ints _ vs => some <$> ofList .number (fun v => .ok (ofInt64 v)) vs
  | .singles vs => some <$> ofList .number (fun v => ofFloat v.toFloat) vs
  | .doubles vs => some <$> ofList .number ofFloat vs
  | .strings vs => some <$> ofList .string (fun v => .ok (ofString v)) vs
  | .bools vs => some <$> ofList .bool (fun v => .ok (bool v)) vs
  | .table rows => some <$> ofList (.list .number) (ofList .number fun v => .ok (ofInt64 v)) rows
  | .counts none => .ok (some (null (.map .number)))
  | .counts (some d) => .ok (some (map .number d.keys (d.values.map ofInt64)))
  | .complex => .error (noType "complex128")

end Value

end OpGraph.Config
