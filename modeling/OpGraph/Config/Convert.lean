import OpGraph.Config.Set
import OpGraph.Config.Unify
import OpGraph.Text.Lowercase

/-!
# Conversion of configuration values

A number or a truth value can be written as a text, and a text that is written like one is one. Tuples become lists if
each element can be converted, and objects become maps.
-/

namespace OpGraph.Config

namespace Value

/-- Why a value can not be converted. -/
inductive Unconvertible where
  | number
  | bool
  /-- A truth value that is not written in lower case. -/
  | boolCase (written : String)
  | type (want actual : Ty)
  /-- A collection is wanted and the value is one of another kind. -/
  | kind (want : Ty)
  /-- A list is wanted and the value is one of other elements. -/
  | elementType (cause : Unconvertible)
  | element (index : Nat) (cause : Unconvertible)
  /-- Elements of different types remain. -/
  | unlike (want : Ty)
  /-- A field is wanted that a map does not have. -/
  | field (name : String)
  deriving Repr

/-- The text of the failure of a conversion. -/
def Unconvertible.text : Unconvertible → String
  | number => "a number is required"
  | bool => "a bool is required"
  | boolCase written => s!"a bool is required; to convert from string, use lowercase \"{written}\""
  | type want actual => s!"{want.friendlyName} required, but have {actual.friendlyName}"
  | kind want => s!"{want.friendlyName} required"
  | elementType cause => s!"incorrect list element type: {cause.text}"
  | element i cause => s!"element {i}: {cause.text}"
  | unlike want =>
    if want.isMap then "attribute types must all match for conversion to map"
    else "element types must all match for conversion to list"
  | field name => s!"map has no element for required attribute {Text.quote name}"

/-- Why types do not convert: the first element that can not be converted, or the types themselves. -/
def mismatch : (want actual : Ty) → Unconvertible
  | .list w, .tuple as => go w (.tuple as) 0 as
  | .list w, .list a => .elementType (.type w a)
  | .list w, .map _ | .list w, .object _ _ => .kind (.list w)
  | want, actual => .type want actual
where
  /-- Looks for an element that does not convert. -/
  go (w actual : Ty) : Nat → List Ty → Unconvertible
    | _, [] => .type (.list w) actual
    | i, a :: as => if w.accepts a then go w actual (i + 1) as else .element i (.type w a)

/-- The truth value a text is written like. -/
def readBool (s : String) : Except Unconvertible Bool :=
  if s = "true" ∨ s = "1" then .ok true
  else if s = "false" ∨ s = "0" then .ok false
  else if Text.lower s = "true" then .error (.boolCase "true")
  else if Text.lower s = "false" then .error (.boolCase "false")
  else .error .bool

/-- The text of a truth value. -/
def boolText (b : Bool) : String :=
  if b then "true" else "false"

/-- The value of a field of an object. -/
def fieldOf (names : List String) (values : List Value) (name : String) : Option Value :=
  ((names.zip values).find? fun p => p.1 == name).map (·.2)

mutual

/-- Converts a value whose type is accepted, looking `fuel` levels deep. -/
def convertIn : (fuel : Nat) → (want : Ty) → Value → Except Unconvertible Value
  | 0, want, v => .error (.type want v.type)
  | fuel + 1, want, v =>
    if v.type == want || want == .any then .ok v
    else match want, v with
      | want, .null t => .ok (.null (want.refine t))
      | want, .unknown t => .ok (.unknown (want.refine t))
      | .string, .number n => .ok (ofString n.text)
      | .string, .bool b => .ok (ofString (boolText b))
      | .number, .string s => (Number.parse? s).elim (.error .number) fun n => .ok (.number n)
      | .bool, .string s => (readBool s).map .bool
      | .list w, .list t [] | .list w, .set t [] => .ok (.list (if w == .any then t else w) [])
      | .list w, .tuple [] => .ok (.list w [])
      | .list w, .list _ vs | .list w, .set _ vs => do
        let vs ← vs.mapM (convertIn fuel w)
        (listOf? vs).elim (.error (.unlike (.list w))) .ok
      | .list w, .tuple vs => do
        let vs ← convertAlike fuel (Ty.elementIn fuel w (types vs)) (.list w) vs
        (listOf? vs).elim (.error (.unlike (.list w))) .ok
      | .set w, .list _ vs | .set w, .set _ vs | .set w, .tuple vs => return setOf w (← vs.mapM (convertIn fuel w))
      | .map w, .map t _ [] => .ok (.map (if w == .any then t else w) [] [])
      | .map w, .object _ [] => .ok (.map w [] [])
      | .map w, .map _ ks vs => do
        let vs ← vs.mapM (convertIn fuel w)
        (mapOf? ks vs).elim (.error (.unlike (.map w))) .ok
      | .map w, .object ks vs => do
        let vs ← convertAlike fuel (Ty.fieldIn fuel w (types vs)) (.map w) vs
        (mapOf? ks vs).elim (.error (.unlike (.map w))) .ok
      | .tuple ws, .tuple vs => return .tuple (← convertEach fuel ws vs)
      | .object ns ws, .object ms vs | .object ns ws, .map _ ms vs => do
        let vs ← ns.mapM fun n => (fieldOf ms vs n).elim (.error (.field n)) .ok
        return .object ns (← convertEach fuel ws vs)
      | want, v => .error (mismatch want v.type)

/-- Converts elements to a type, and then, where it leaves some of theirs open, to the one they have in common. -/
def convertAlike : (fuel : Nat) → (element : Option Ty) → (want : Ty) → List Value → Except Unconvertible (List Value)
  | _, none, want, _ => .error (.unlike want)
  | 0, some _, want, _ => .error (.unlike want)
  | fuel + 1, some w, want, vs => do
    let vs ← vs.mapM (convertIn fuel w)
    match Ty.unify (types vs) with
    | none => .error (.unlike want)
    | some t => vs.mapM (convertIn fuel t)

/-- Converts values position by position. -/
def convertEach : (fuel : Nat) → List Ty → List Value → Except Unconvertible (List Value)
  | fuel + 1, w :: ws, v :: vs => return (← convertIn fuel w v) :: (← convertEach (fuel + 1) ws vs)
  | _, _, _ => .ok []

end

/-- Converts a value to a type. -/
def convert (want : Ty) (v : Value) : Except Unconvertible Value :=
  if v.type == want then .ok v
  else if want.accepts v.type then convertIn (Ty.levels [want, v.type]) want v
  else .error (mismatch want v.type)

end Value

end OpGraph.Config
