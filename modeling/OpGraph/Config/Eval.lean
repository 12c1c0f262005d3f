import OpGraph.Config.Convert
import OpGraph.Config.Expr

/-!
# Values of expressions

An expression is evaluated to a value and a note whether that failed. What failed still has a value, of which only the
type is known, because of the two sides of a choice only the chosen one may not fail.
-/

namespace OpGraph.Config

/-- What an expression was evaluated to. -/
structure Outcome where
  value : Value
  failed : Bool := false
  deriving Inhabited

namespace Outcome

/-- A failure of which the type of the value is known. -/
def failure (type : Ty) : Outcome :=
  { value := .unknown type, failed := true }

/-- The value, unless something failed. -/
def value? (o : Outcome) : Option Value :=
  if o.failed then none else some o.value

/-- The value of an operation that may not have one. -/
def ofOption (type : Ty) : Option Value → Outcome
  | some value => { value }
  | none => failure type

end Outcome

namespace Value

/-- The number a value can be converted to. -/
def number? (v : Value) : Option Number :=
  match convert .number v with
  | .ok (.number n) => some n
  | _ => none

/-- The truth value a value can be converted to. -/
def bool? (v : Value) : Option Bool :=
  match convert .bool v with
  | .ok (.bool b) => some b
  | _ => none

/-- The text a value can be converted to. -/
def string? (v : Value) : Option String :=
  match convert .string v with
  | .ok (.string s) => some s
  | _ => none

/-- The element of a value at a key. -/
def element? (v key : Value) : Option Value :=
  match v with
  | .tuple vs | .list _ vs =>
    match key.number?.bind Number.toInt64? with
    | some i => if i < 0 then none else vs[i.toInt.toNat]?
    | none => none
  | .object ns vs | .map _ ns vs => key.string?.bind (fieldOf ns vs)
  | _ => none

end Value

namespace BinaryOp

/-- The type of the values of an operator. -/
def type : BinaryOp → Ty
  | add | sub | mul | div | mod => .number
  | _ => .bool

/-- The value of an operator on numbers. -/
def onNumbers (op : BinaryOp) (a b : Number) : Option Value :=
  match op with
  | add => (a.add? b).map .number
  | sub => (a.sub? b).map .number
  | mul => (a.mul? b).map .number
  | div => (a.div? b).map .number
  | mod => (a.mod? b).map .number
  | less => some (.bool (a.compare b == .lt))
  | lessEqual => some (.bool (a.compare b != .gt))
  | greater => some (.bool (a.compare b == .gt))
  | greaterEqual => some (.bool (a.compare b != .lt))
  | _ => none

/-- Whether a value is known to be true or not; a missing one is not true. -/
def truth? : Value → Option Bool
  | .bool b => some b
  | .null _ => some false
  | _ => none

/-- The value of a logical operator. Both sides must be truth values as far as is known. The first that decides does so
even if the other one fails. A missing value is not true, which decides where that is enough. -/
def onBools (decisive : Bool) (a b : Outcome) : Outcome :=
  match Value.convert .bool a.value, Value.convert .bool b.value with
  | .ok v, .ok w =>
    if truth? v = some decisive then { value := .bool decisive, failed := a.failed }
    else if truth? w = some decisive then { value := .bool decisive, failed := b.failed }
    else if a.failed || b.failed || v.isNull || w.isNull then .failure .bool
    else { value := .bool !decisive }
  | _, _ => .failure .bool

/-- The value of an operator. -/
def apply (op : BinaryOp) (a b : Outcome) : Outcome :=
  match op with
  | or => onBools true a b
  | and => onBools false a b
  | same => .ofOption .bool do return .bool ((← a.value?).equal (← b.value?))
  | differs => .ofOption .bool do return .bool !((← a.value?).equal (← b.value?))
  | op => .ofOption op.type do op.onNumbers (← a.value?.bind Value.number?) (← b.value?.bind Value.number?)

end BinaryOp

namespace UnaryOp

/-- The value of an operator. -/
def apply (op : UnaryOp) (a : Outcome) : Outcome :=
  match op with
  | negate => .ofOption .number ((a.value?.bind Value.number?).map fun n => .number n.neg)
  | not => .ofOption .bool ((a.value?.bind Value.bool?).map fun b => .bool !b)

end UnaryOp

namespace Outcome

/-- Whether nothing is known of a value, not even its type. -/
def isOpen : Value → Bool
  | .unknown .any => true
  | _ => false

/-- The type of a choice between two values. A missing value takes the type of the other, and beside a value of which
nothing is known the other stays as it is. -/
def choiceType? (yes no : Value) : Option Ty :=
  match yes, no with
  | .null .any, no => some no.type
  | yes, .null .any => some yes.type
  | yes, no => if isOpen yes || isOpen no then some .any else Ty.unify [yes.type, no.type]

/-- The value of a choice. Only the side that is chosen may not fail. -/
def choose (condition yes no : Outcome) : Outcome :=
  match choiceType? yes.value no.value with
  | none => failure .any
  | some type =>
    match condition.value?.bind Value.bool? with
    | none => failure type
    | some b =>
      let chosen := if b then yes else no
      match Value.convert type chosen.value with
      | .ok value => { value, failed := chosen.failed }
      | .error _ => failure type

/-- The text of some parts, if none failed. -/
def concat : List (Option String) → Outcome
  | parts =>
    match parts.mapM id with
    | some texts => { value := .ofString (String.join texts) }
    | none => failure .string

/-- The value of an object. Of several values for one key the last counts. -/
def object (keys : List (Option String)) (values : List Outcome) : Outcome :=
  match keys.mapM id with
  | some keys =>
    let d := Dict.ofList (keys.zip (values.map (·.value)))
    { value := .object d.keys d.values, failed := values.any (·.failed) }
  | none => failure .any

end Outcome

namespace Expr

/-- The text of a key that is a bare name. -/
def keyName? : Expr → Option String
  | ref name => some name
  | literal (.bool b) => some (Value.boolText b)
  | literal (.null _) => some "null"
  | _ => none

mutual

/-- The value of an expression. Names and calls have none. -/
def eval : Expr → Outcome
  | literal value => { value }
  | ref _ => .failure .any
  | call _ _ => .failure .any
  | template parts => .concat (evalParts parts)
  | wrapped e => e.eval
  | paren e => e.eval
  | tuple es =>
    let os := evalAll es
    { value := .tuple (os.map (·.value)), failed := os.any (·.failed) }
  | object keys values => .object (evalKeys keys) (evalAll values)
  | unary op e => op.apply e.eval
  | binary op a b => op.apply a.eval b.eval
  | choice c yes no => .choose c.eval yes.eval no.eval
  | attr e name => .ofOption .any (e.eval.value?.bind fun v => v.element? (.string name))
  | index e key => .ofOption .any (do (← e.eval.value?).element? (← key.eval.value?))
  | splat _ => .failure .any

/-- The values of expressions. -/
def evalAll : List Expr → List Outcome
  | [] => []
  | e :: es => e.eval :: evalAll es

/-- The texts of the keys of an object. A bare name stands for itself. -/
def evalKeys : List Expr → List (Option String)
  | [] => []
  | e :: es => (((keyName? e).map Text.normal) <|> (e.eval.value?.bind Value.string?)) :: evalKeys es

/-- The texts of the parts of a template. -/
def evalParts : List Part → List (Option String)
  | [] => []
  | .text cs :: ps => some (String.ofList cs) :: evalParts ps
  | .insertion e :: ps => e.eval.value?.bind Value.string? :: evalParts ps

end

end Expr

end OpGraph.Config
