import OpGraph.Decimal.Nearest
import OpGraph.Failure
import OpGraph.Text.Quoted

/-!
# Attribute values

A value of an operator's attribute is an integer, a float, a string or an ordered list of values. Reading a
value names the wanted tag, and nothing is converted from one tag to another.
-/

namespace OpGraph.Attribute

/-- The tag of a value. -/
inductive Tag where
  | invalid
  | int
  | float
  | string
  | list
  deriving DecidableEq, Repr, Inhabited

/-- The text of a tag. -/
def Tag.text : Tag → String
  | invalid => "invalid"
  | int => "int"
  | float => "float"
  | string => "string"
  | list => "list"

/-- The value of an attribute; `invalid` is the value of a variable that was never set. -/
inductive Value where
  | invalid
  | int (value : Int64)
  | float (value : Float)
  | string (value : String)
  | list (elements : List Value)
  deriving Repr, Inhabited

/-- Why a value can not be read as it was asked for. -/
inductive Mismatch where
  | value (want actual : Tag)
  | list (want actual : Tag)
  | element (want : Tag) (index : Nat) (actual : Tag)
  deriving DecidableEq, Repr

/-- The text of a mismatch. -/
def Mismatch.text : Mismatch → String
  | value want actual => s!"want {want.text}, have {actual.text}"
  | list want actual => s!"want list({want.text}), have {actual.text}"
  | element want index actual => s!"want list({want.text}), element {index} is {actual.text}"

/-- The failure a mismatch is reported as. -/
def Mismatch.toFailure (m : Mismatch) : Failure :=
  .of .typeMismatch m.text

namespace Value

/-- The tag of a value. -/
def tag : Value → Tag
  | invalid => .invalid
  | int _ => .int
  | float _ => .float
  | string _ => .string
  | list _ => .list

/-- Whether a value was set. -/
def isValid : Value → Bool
  | invalid => false
  | _ => true

/-- The list of integers. -/
def ints (vs : List Int64) : Value := list (vs.map int)

/-- The list of floats. -/
def floats (vs : List Float) : Value := list (vs.map float)

/-- The list of strings. -/
def strings (vs : List String) : Value := list (vs.map string)

mutual

/-- Whether two values have one tag and the same content; floats are compared as numbers. -/
def same : Value → Value → Bool
  | invalid, invalid => true
  | int a, int b => a == b
  | float a, float b => a == b
  | string a, string b => a == b
  | list as, list bs => sameAll as bs
  | _, _ => false

/-- Whether two lists of values agree position by position. -/
def sameAll : List Value → List Value → Bool
  | [], [] => true
  | a :: as, b :: bs => same a b && sameAll as bs
  | _, _ => false

end

mutual

/-- The text of a value. -/
def text : Value → String
  | invalid => "<invalid>"
  | int v => toString v
  | float v => Decimal.floatText v
  | string v => Text.quote v
  | list vs => "[" ++ ", ".intercalate (texts vs) ++ "]"

/-- The texts of a list of values. -/
def texts : List Value → List String
  | [] => []
  | v :: vs => v.text :: texts vs

end

/-! ### Reading -/

/-- The integer held by a value. -/
def asInt : Value → Except Mismatch Int64
  | int v => .ok v
  | v => .error (.value .int v.tag)

/-- The float held by a value. -/
def asFloat : Value → Except Mismatch Float
  | float v => .ok v
  | v => .error (.value .float v.tag)

/-- The string held by a value. -/
def asString : Value → Except Mismatch String
  | string v => .ok v
  | v => .error (.value .string v.tag)

/-- The list held by a value. -/
def asList : Value → Except Mismatch (List Value)
  | list vs => .ok vs
  | v => .error (.value .list v.tag)

/-- Reads the elements from position `i` on; the first one that does not have the wanted tag is reported. -/
def elements {α : Type} (want : Tag) (read : Value → Option α) : Nat → List Value → Except Mismatch (List α)
  | _, [] => .ok []
  | i, v :: vs =>
    match read v with
    | none => .error (.element want i v.tag)
    | some a => return a :: (← elements want read (i + 1) vs)

/-- The list held by a value when each element has the wanted tag. -/
def listOf {α : Type} (want : Tag) (read : Value → Option α) : Value → Except Mismatch (List α)
  | list vs => elements want read 0 vs
  | v => .error (.list want v.tag)

/-- The integers of a list. -/
def asInts : Value → Except Mismatch (List Int64) :=
  listOf .int fun v => v.asInt.toOption

/-- The floats of a list. -/
def asFloats : Value → Except Mismatch (List Float) :=
  listOf .float fun v => v.asFloat.toOption

/-- The strings of a list. -/
def asStrings : Value → Except Mismatch (List String) :=
  listOf .string fun v => v.asString.toOption

end Value

end OpGraph.Attribute
