import OpGraph.Config.Token
import OpGraph.Config.Value

/-!
# Expressions of a configuration

Expressions are literals, templates, tuples, objects, operators, choices, and names, calls and steps into values,
which can be read although there is nothing they could refer to. Operators of one level group to the left.
-/

namespace OpGraph.Config

/-- An operator with two operands. -/
inductive BinaryOp where
  | or
  | and
  | same
  | differs
  | less
  | lessEqual
  | greater
  | greaterEqual
  | add
  | sub
  | mul
  | div
  | mod
  deriving DecidableEq, Repr

/-- An operator with one operand. -/
inductive UnaryOp where
  | negate
  | not
  deriving DecidableEq, Repr

mutual

/-- An expression. -/
inductive Expr where
  | literal (value : Value)
  | ref (name : String)
  | call (name : String) (args : List Expr)
  | template (parts : List Part)
  /-- A template that holds nothing but an expression stands for its value as it is. -/
  | wrapped (inner : Expr)
  | paren (inner : Expr)
  | tuple (elements : List Expr)
  | object (keys values : List Expr)
  | unary (op : UnaryOp) (operand : Expr)
  | binary (op : BinaryOp) (left right : Expr)
  | choice (condition yes no : Expr)
  | attr (inner : Expr) (name : String)
  | index (inner key : Expr)
  | splat (inner : Expr)

/-- A part of a template. -/
inductive Part where
  | text (cs : List Char)
  | insertion (inner : Expr)

end

instance : Inhabited Expr := ⟨.literal (.null .any)⟩

namespace BinaryOp

/-- The operator of a symbol. -/
def ofSymbol? : Symbol → Option BinaryOp
  | .or => some or
  | .and => some and
  | .same => some same
  | .differs => some differs
  | .less => some less
  | .lessEqual => some lessEqual
  | .greater => some greater
  | .greaterEqual => some greaterEqual
  | .plus => some add
  | .minus => some sub
  | .star => some mul
  | .slash => some div
  | .percent => some mod
  | _ => none

/-- How tightly an operator binds. -/
def level : BinaryOp → Nat
  | or => 0
  | and => 1
  | same | differs => 2
  | less | lessEqual | greater | greaterEqual => 3
  | add | sub => 4
  | mul | div | mod => 5

end BinaryOp

namespace Expr

/-! ### Templates -/

/-- A piece of a template whose expression has been read. -/
inductive Read where
  | text (cs : List Char)
  | insertion (trimBefore trimAfter : Bool) (inner : Expr)

/-- Cuts the blanks that insertions ask to be cut, only in the piece directly before or after. -/
def trimPieces : (trimStart : Bool) → List Read → List Part
  | _, [] => []
  | trimStart, .text cs :: rest =>
    let cs := if trimStart then Text.trimStart cs else cs
    let cs := match rest with
      | .insertion true _ _ :: _ => Text.trimEnd cs
      | _ => cs
    .text cs :: trimPieces false rest
  | _, .insertion _ trimAfter inner :: rest => .insertion inner :: trimPieces trimAfter rest

/-- Whether a line ends with a piece. -/
def endsLine (cs : List Char) : Bool :=
  cs.getLast? == some '\n'

/-- The numbers of blanks that lines begin with. A blank line does not count, a line that begins with an expression
has none. -/
def indents : (atStart : Bool) → List Part → List Nat
  | _, [] => []
  | atStart, .text cs :: rest =>
    let own := if atStart ∧ !(cs.all Text.isBlank ∧ endsLine cs) then [(cs.takeWhile Text.isBlank).length] else []
    own ++ indents (endsLine cs) rest
  | atStart, .insertion _ :: rest => (if atStart then [0] else []) ++ indents false rest

/-- Drops characters at the start of lines that are not blank. -/
def dropIndent (n : Nat) : (atStart : Bool) → List Part → List Part
  | _, [] => []
  | atStart, .text cs :: rest =>
    let cs' := if atStart ∧ !(cs.all Text.isBlank ∧ endsLine cs) then cs.drop n else cs
    .text cs' :: dropIndent n (endsLine cs) rest
  | _, .insertion inner :: rest => .insertion inner :: dropIndent n false rest

/-- Moves lines to the left as far as the least indented one allows. -/
def unindented (parts : List Part) : List Part :=
  match (indents true parts).min? with
  | some n => dropIndent n true parts
  | none => parts

/-- The expression of a template. -/
def ofParts (parts : List Part) : Expr :=
  match parts with
  | [.insertion inner] => wrapped inner
  | parts => template parts

/-! ### Reading -/

/-- Tokens without the ends of lines in front, where they do not matter. -/
def skip (free : Bool) : List Token → List Token
  | .newline :: ts => if free then skip free ts else .newline :: ts
  | ts => ts

/-- Whether a collection would be computed from another one, of which there are none in this language. -/
def isComputed (ts : List Token) : Bool :=
  match skip true ts with
  | .name "for" :: _ => true
  | _ => false

/-- The literal or variable of a name. -/
def ofName (name : String) : Expr :=
  match name with
  | "true" => literal (.bool true)
  | "false" => literal (.bool false)
  | "null" => literal (.null .any)
  | name => ref name

mutual

/-- Reads an expression, at most `fuel` steps deep. Where `free` holds, the ends of lines do not matter. -/
def read : (fuel : Nat) → (free : Bool) → List Token → Option (Expr × List Token)
  | 0, _, _ => none
  | fuel + 1, free, ts =>
    match readBinary fuel free 0 ts with
    | none => none
    | some (condition, ts) =>
      match skip free ts with
      | .symbol .question :: ts =>
        match read fuel free ts with
        | none => none
        | some (yes, ts) =>
          match skip free ts with
          | .symbol .colon :: ts => (read fuel free ts).map fun (no, ts) => (choice condition yes no, ts)
          | _ => none
      | ts => some (condition, ts)

/-- Reads operands and operators of at least a level. -/
def readBinary : (fuel : Nat) → (free : Bool) → (level : Nat) → List Token → Option (Expr × List Token)
  | 0, _, _, _ => none
  | fuel + 1, free, level, ts =>
    match readTerm fuel free ts with
    | none => none
    | some (left, ts) => readMore fuel free level left ts

/-- Reads the operators that follow an operand. -/
def readMore : (fuel : Nat) → (free : Bool) → (level : Nat) → (left : Expr) → List Token →
    Option (Expr × List Token)
  | 0, _, _, _, _ => none
  | fuel + 1, free, level, left, ts =>
    match skip free ts with
    | .symbol s :: ts' =>
      match BinaryOp.ofSymbol? s with
      | none => some (left, .symbol s :: ts')
      | some op =>
        if op.level < level then some (left, .symbol s :: ts')
        else match readBinary fuel free (op.level + 1) ts' with
          | none => none
          | some (right, ts) => readMore fuel free level (binary op left right) ts
    | ts => some (left, ts)

/-- Reads an operand with the steps into it. -/
def readTerm : (fuel : Nat) → (free : Bool) → List Token → Option (Expr × List Token)
  | 0, _, _ => none
  | fuel + 1, free, ts =>
    match skip free ts with
    | .symbol .minus :: ts => (readTerm fuel free ts).map fun (e, ts) => (unary .negate e, ts)
    | .symbol .bang :: ts => (readTerm fuel free ts).map fun (e, ts) => (unary .not e, ts)
    | ts =>
      match readPrimary fuel free ts with
      | none => none
      | some (e, ts) => readSteps fuel free e ts

/-- Reads steps into a value. -/
def readSteps : (fuel : Nat) → (free : Bool) → (inner : Expr) → List Token → Option (Expr × List Token)
  | 0, _, _, _ => none
  | fuel + 1, free, inner, ts =>
    match skip free ts with
    | .symbol .dot :: ts =>
      match skip free ts with
      | .name name :: ts => readSteps fuel free (attr inner name) ts
      | .number text :: ts =>
        match Number.parse? text with
        | some n => readSteps fuel free (index inner (literal (.number n))) ts
        | none => none
      | .symbol .star :: ts => readSteps fuel free (splat inner) ts
      | _ => none
    | .symbol .openBracket :: ts =>
      match skip true ts with
      | .symbol .star :: ts =>
        match skip true ts with
        | .symbol .closeBracket :: ts => readSteps fuel free (splat inner) ts
        | _ => none
      | ts =>
        match read fuel true ts with
        | none => none
        | some (key, ts) =>
          match skip true ts with
          | .symbol .closeBracket :: ts => readSteps fuel free (index inner key) ts
          | _ => none
    | ts => some (inner, ts)

/-- Reads an operand without signs or steps. -/
def readPrimary : (fuel : Nat) → (free : Bool) → List Token → Option (Expr × List Token)
  | 0, _, _ => none
  | fuel + 1, free, ts =>
    match skip free ts with
    | .number text :: ts => (Number.parse? text).map fun n => (literal (.number n), ts)
    | .quoted pieces :: ts =>
      (readPieces fuel pieces).map fun read => (ofParts (trimPieces false read), ts)
    | .lines unindent pieces :: ts =>
      (readPieces fuel pieces).map fun read =>
        let parts := trimPieces false read
        (ofParts (if unindent then unindented parts else parts), ts)
    | .name name :: ts =>
      match skip free ts with
      | .symbol .openParen :: ts =>
        (readAll fuel .closeParen ts).map fun (args, ts) => (call name args, ts)
      | .symbol .scope :: _ => readScoped fuel free name ts
      | ts => some (ofName name, ts)
    | .symbol .openParen :: ts =>
      match read fuel true ts with
      | none => none
      | some (e, ts) =>
        match skip true ts with
        | .symbol .closeParen :: ts => some (paren e, ts)
        | _ => none
    | .symbol .openBracket :: ts =>
      if isComputed ts then none
      else (readAll fuel .closeBracket ts).map fun (es, ts) => (tuple es, ts)
    | .symbol .openBrace :: ts =>
      if isComputed ts then none
      else (readItems fuel ts).map fun (items, ts) => (object (items.map (·.1)) (items.map (·.2)), ts)
    | _ => none

/-- Reads the rest of a name with several parts, which can only be that of a call. -/
def readScoped : (fuel : Nat) → (free : Bool) → (name : String) → List Token → Option (Expr × List Token)
  | 0, _, _, _ => none
  | fuel + 1, free, name, ts =>
    match skip free ts with
    | .symbol .scope :: ts =>
      match skip free ts with
      | .name more :: ts => readScoped fuel free (name ++ "::" ++ more) ts
      | _ => none
    | .symbol .openParen :: ts =>
      (readAll fuel .closeParen ts).map fun (args, ts) => (call name args, ts)
    | _ => none

/-- Reads expressions between commas up to a closing symbol. A comma may follow the last one. -/
def readAll : (fuel : Nat) → (close : Symbol) → List Token → Option (List Expr × List Token)
  | 0, _, _ => none
  | fuel + 1, close, ts =>
    match skip true ts with
    | .symbol s :: ts' =>
      if s = close then some ([], ts') else readSome fuel close (.symbol s :: ts')
    | ts => readSome fuel close ts

/-- Reads at least one expression up to a closing symbol. The last argument of a call may be spread. -/
def readSome : (fuel : Nat) → (close : Symbol) → List Token → Option (List Expr × List Token)
  | 0, _, _ => none
  | fuel + 1, close, ts =>
    match read fuel true ts with
    | none => none
    | some (e, ts) =>
      match skip true ts with
      | .symbol .comma :: ts => (readAll fuel close ts).map fun (es, ts) => (e :: es, ts)
      | .symbol .dots :: ts =>
        match close, skip true ts with
        | .closeParen, .symbol .closeParen :: ts => some ([e], ts)
        | _, _ => none
      | .symbol s :: ts => if s = close then some ([e], ts) else none
      | _ => none

/-- Reads the items of an object up to its closing brace. Items stand on lines of their own or between commas. -/
def readItems : (fuel : Nat) → List Token → Option (List (Expr × Expr) × List Token)
  | 0, _ => none
  | fuel + 1, ts =>
    match ts with
    | .newline :: ts => readItems fuel ts
    | .symbol .closeBrace :: ts => some ([], ts)
    | ts =>
      match read fuel false ts with
      | none => none
      | some (key, .symbol s :: ts) =>
        if s = .equals ∨ s = .colon then
          match read fuel false ts with
          | none => none
          | some (value, .symbol .closeBrace :: ts) => some ([(key, value)], ts)
          | some (value, .symbol .comma :: ts) | some (value, .newline :: ts) =>
            (readItems fuel ts).map fun (items, ts) => ((key, value) :: items, ts)
          | some _ => none
        else none
      | some _ => none

/-- Reads the expressions of a template's pieces. -/
def readPieces : (fuel : Nat) → List Piece → Option (List Read)
  | 0, _ => none
  | _ + 1, [] => some []
  | fuel + 1, .text cs :: rest => (readPieces fuel rest).map fun read => .text cs :: read
  | fuel + 1, .insertion trimBefore trimAfter ts :: rest =>
    match read fuel true ts with
    | none => none
    | some (e, ts) =>
      match skip true ts with
      | [] => (readPieces fuel rest).map fun read => .insertion trimBefore trimAfter e :: read
      | _ => none

end

end Expr

mutual

/-- The number of tokens, with those inside templates. -/
def Token.size : Token → Nat
  | .newline | .name _ | .number _ | .symbol _ => 1
  | .quoted pieces => 1 + Piece.sizes pieces
  | .lines _ pieces => 1 + Piece.sizes pieces

/-- The number of tokens in a piece. -/
def Piece.size : Piece → Nat
  | .text _ => 1
  | .insertion _ _ ts => 1 + Token.sizes ts

/-- The number of tokens in pieces. -/
def Piece.sizes : List Piece → Nat
  | [] => 0
  | p :: ps => Piece.size p + Piece.sizes ps

/-- The number of tokens in a list. -/
def Token.sizes : List Token → Nat
  | [] => 0
  | t :: ts => Token.size t + Token.sizes ts

end

/-- Steps that are enough to read an expression from some tokens: none takes more than eight for one token. -/
def Expr.fuel (ts : List Token) : Nat :=
  8 * Token.sizes ts + 16

end OpGraph.Config
