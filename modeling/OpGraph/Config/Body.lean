import OpGraph.Config.Eval

/-!
# Bodies of a configuration

A body is a list of attributes, each a name with an expression, and of blocks, each with a type, labels and a body of
its own. Attributes and blocks end with their line; a block may hold one attribute on the line it stands on. What a
block may hold is said by a shape.
-/

namespace OpGraph.Config

/-- The attributes and blocks of a file or block, as they were written. -/
inductive Body where
  | mk (attrs : List (String × Expr)) (blocks : List (String × List String × Body))

instance : Inhabited Body := ⟨.mk [] []⟩

namespace Body

/-- A block: its type, labels and body. -/
abbrev Block := String × List String × Body

/-- The attributes of a body. -/
def attrs : Body → List (String × Expr)
  | mk attrs _ => attrs

/-- The blocks of a body. -/
def blocks : Body → List Block
  | mk _ blocks => blocks

/-- The attribute of a name. -/
def attr? (b : Body) (name : String) : Option Expr :=
  (b.attrs.find? fun a => a.1 == name).map (·.2)

/-- Puts an attribute in front; a body has one attribute of a name. -/
def addAttr (name : String) (e : Expr) : Body → Option Body
  | mk attrs blocks => if attrs.any (·.1 == name) then none else some (mk ((name, e) :: attrs) blocks)

/-- Puts a block in front. -/
def addBlock (block : Block) : Body → Body
  | mk attrs blocks => mk attrs (block :: blocks)

/-! ### Reading -/

/-- The text of a quoted label, in which nothing can be inserted. -/
def labelText? : List Piece → Option String
  | [] => some ""
  | .text cs :: ps => (labelText? ps).map fun s => String.ofList cs ++ s
  | .insertion .. :: _ => none

/-- The labels of a block and the tokens after the brace that follows them. -/
def labels? : List Token → Option (List String × List Token)
  | .symbol .openBrace :: ts => some ([], ts)
  | .name label :: ts => (labels? ts).map fun (ls, ts) => (label :: ls, ts)
  | .quoted pieces :: ts => do
    let label ← labelText? pieces
    let (ls, ts) ← labels? ts
    return (label :: ls, ts)
  | _ => none

/-- The tokens after the end of a line or file. -/
def afterLine? : List Token → Option (List Token)
  | [] => some []
  | .newline :: ts => some ts
  | _ => none

mutual

/-- Reads a body, at most `fuel` steps deep: up to its closing brace if it is `inner`, otherwise up to the end. Every
step takes a token, so that what is left for an expression is enough for the tokens that are left. -/
def read : (fuel : Nat) → (inner : Bool) → List Token → Option (Body × List Token)
  | 0, _, _ => none
  | fuel + 1, inner, ts =>
    match ts with
    | [] => if inner then none else some (mk [] [], [])
    | .newline :: ts => read fuel inner ts
    | .symbol .closeBrace :: ts => if inner then some (mk [] [], ts) else none
    | .name name :: .symbol .equals :: ts =>
      match Expr.read fuel false ts with
      | none => none
      | some (e, ts) =>
        match afterLine? ts with
        | none => none
        | some ts =>
          match read fuel inner ts with
          | none => none
          | some (b, ts) => (b.addAttr name e).map fun b => (b, ts)
    | .name type :: ts =>
      match labels? ts with
      | none => none
      | some (labels, ts) =>
        match readBlock fuel ts with
        | none => none
        | some (b, ts) =>
          match afterLine? ts with
          | none => none
          | some ts => (read fuel inner ts).map fun (rest, ts) => (rest.addBlock (type, labels, b), ts)
    | _ => none

/-- Reads the body of a block after its opening brace. An attribute on the same line is the only one. -/
def readBlock : (fuel : Nat) → List Token → Option (Body × List Token)
  | 0, _ => none
  | fuel + 1, ts =>
    match ts with
    | .name name :: .symbol .equals :: ts =>
      match Expr.read fuel false ts with
      | some (e, .symbol .closeBrace :: ts) => some (mk [(name, e)] [], ts)
      | _ => none
    | .newline :: ts => read fuel true ts
    | .symbol .closeBrace :: ts => some (mk [] [], ts)
    | _ => none

end

/-- The body of a file. -/
def ofString? (s : String) : Option Body := do
  let ts ← Token.ofString? s
  let (b, _) ← read (Expr.fuel ts) false ts
  return b

/-! ### Shapes -/

/-- What a body may hold. -/
structure Shape where
  required : List String := []
  optional : List String := []
  /-- The blocks it may hold, with the numbers of their labels. -/
  blocks : List (String × Nat) := []

/-- Whether a body has a shape. -/
def hasShape (b : Body) (s : Shape) : Bool :=
  (b.attrs.all fun a => s.required.contains a.1 || s.optional.contains a.1) &&
    (s.required.all fun name => (b.attr? name).isSome) &&
    (b.blocks.all fun block => s.blocks.any fun known => known.1 == block.1 && known.2 == block.2.1.length)

/-- The blocks of a type. -/
def blocksOf (b : Body) (type : String) : List (List String × Body) :=
  b.blocks.filterMap fun block => if block.1 = type then some block.2 else none

/-! ### Attributes of a known type -/

/-- The value of an attribute, if it is written and can be evaluated and converted; `none` if that fails. -/
def value? (b : Body) (name : String) (type : Ty) : Option (Option Value) :=
  match b.attr? name with
  | none => some none
  | some e => do
    let v ← e.eval.value?
    let v ← (v.convert type).toOption
    return some v

/-- A text attribute; if it is not written, it is empty. -/
def text? (b : Body) (name : String) : Option String :=
  match b.value? name .string with
  | some none => some ""
  | some (some (.string s)) => some s
  | _ => none

/-- A truth attribute; if it is not written, it is false. -/
def flag? (b : Body) (name : String) : Option Bool :=
  match b.value? name .bool with
  | some none => some false
  | some (some (.bool v)) => some v
  | _ => none

/-- A truth attribute that may be missing. -/
def optionalFlag? (b : Body) (name : String) : Option (Option Bool) :=
  match b.value? name .bool with
  | some none | some (some (.null _)) => some none
  | some (some (.bool v)) => some (some v)
  | _ => none

/-- A list attribute that may be missing; each element is read. -/
def list? {α : Type} (b : Body) (name : String) (type : Ty) (read : Value → Option α) : Option (Option (List α)) :=
  match b.value? name (.list type) with
  | some none | some (some (.null _)) => some none
  | some (some (.list _ vs)) => (vs.mapM read).map some
  | _ => none

/-- A text. -/
def readText : Value → Option String
  | .string s => some s
  | _ => none

/-- A whole number that fits a machine word. -/
def readInt : Value → Option Int64
  | .number n => n.toInt64?
  | _ => none

/-- A float. -/
def readFloat : Value → Option Float
  | .number n => n.toFloat?
  | _ => none

/-- A list of texts; if it is not written, it is empty. -/
def texts? (b : Body) (name : String) : Option (List String) :=
  (b.list? name .string readText).map (·.getD [])

/-- A number attribute. -/
def float? (b : Body) (name : String) : Option Float :=
  match b.value? name .number with
  | some (some v) => readFloat v
  | _ => none

end Body

end OpGraph.Config
