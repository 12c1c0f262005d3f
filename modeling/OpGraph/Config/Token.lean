import OpGraph.Text.Blank
import OpGraph.Text.Identifier

/-!
# Tokens of a configuration

A text is cut into names, numbers, symbols, ends of lines and templates. A template is a quoted text or a text between
two markers on lines of their own; its pieces are plain texts and the tokens of the expressions inserted in it. What
is no token anywhere makes the whole text unreadable, so there is one kind of failure only.
-/

namespace OpGraph.Config

/-- A symbol. -/
inductive Symbol where
  | openParen
  | closeParen
  | openBracket
  | closeBracket
  | openBrace
  | closeBrace
  | comma
  | dot
  | dots
  | star
  | slash
  | percent
  | plus
  | minus
  | equals
  | same
  | differs
  | less
  | lessEqual
  | greater
  | greaterEqual
  | bang
  | question
  | colon
  | scope
  | arrow
  | and
  | or
  deriving DecidableEq, Repr, Inhabited

mutual

/-- A token. -/
inductive Token where
  | newline
  | name (text : String)
  | number (text : String)
  | symbol (symbol : Symbol)
  /-- A quoted text. -/
  | quoted (pieces : List Piece)
  /-- The lines between two markers; indented ones may be moved to the left. -/
  | lines (unindent : Bool) (pieces : List Piece)

/-- A piece of a template. -/
inductive Piece where
  | text (cs : List Char)
  /-- The tokens of an expression, and whether the blanks before and after it are cut. -/
  | insertion (trimBefore trimAfter : Bool) (tokens : List Token)

end

instance : Inhabited Token := ⟨.newline⟩

namespace Token

/-! ### Names, numbers and symbols -/

/-- Whether a name can begin with a character. -/
def startsName (c : Char) : Bool :=
  c == '_' || Text.isIdentifierStart c

/-- Whether a name can go on with a character. -/
def continuesName (c : Char) : Bool :=
  c == '-' || Text.isIdentifierContinue c

/-- What a number that began with a digit goes on with: digits, points and exponents, but no point at its end. -/
def numberTail : List Char → List Char × List Char
  | c :: cs =>
    if c.isDigit then
      let (more, rest) := numberTail cs
      (c :: more, rest)
    else if c = '.' then
      match numberTail cs with
      | ([], _) => ([], c :: cs)
      | (more, rest) => (c :: more, rest)
    else if c = 'e' ∨ c = 'E' then
      match cs with
      | s :: d :: cs' =>
        if s.isDigit then
          let (more, rest) := numberTail (d :: cs')
          (c :: s :: more, rest)
        else if (s = '+' ∨ s = '-') ∧ d.isDigit then
          let (more, rest) := numberTail cs'
          (c :: s :: d :: more, rest)
        else ([], c :: cs)
      | [s] => if s.isDigit then ([c, s], []) else ([], c :: cs)
      | [] => ([], [c])
    else ([], c :: cs)
  | [] => ([], [])

/-- The symbol a text begins with; the longest one counts. -/
def symbol? : List Char → Option (Symbol × List Char)
  | '.' :: '.' :: '.' :: cs => some (.dots, cs)
  | '=' :: '=' :: cs => some (.same, cs)
  | '=' :: '>' :: cs => some (.arrow, cs)
  | '!' :: '=' :: cs => some (.differs, cs)
  | '<' :: '=' :: cs => some (.lessEqual, cs)
  | '>' :: '=' :: cs => some (.greaterEqual, cs)
  | '&' :: '&' :: cs => some (.and, cs)
  | '|' :: '|' :: cs => some (.or, cs)
  | ':' :: ':' :: cs => some (.scope, cs)
  | '(' :: cs => some (.openParen, cs)
  | ')' :: cs => some (.closeParen, cs)
  | '[' :: cs => some (.openBracket, cs)
  | ']' :: cs => some (.closeBracket, cs)
  | '\x7b' :: cs => some (.openBrace, cs)
  | '\x7d' :: cs => some (.closeBrace, cs)
  | ',' :: cs => some (.comma, cs)
  | '.' :: cs => some (.dot, cs)
  | '*' :: cs => some (.star, cs)
  | '/' :: cs => some (.slash, cs)
  | '%' :: cs => some (.percent, cs)
  | '+' :: cs => some (.plus, cs)
  | '-' :: cs => some (.minus, cs)
  | '=' :: cs => some (.equals, cs)
  | '<' :: cs => some (.less, cs)
  | '>' :: cs => some (.greater, cs)
  | '!' :: cs => some (.bang, cs)
  | '?' :: cs => some (.question, cs)
  | ':' :: cs => some (.colon, cs)
  | _ => none

/-- What follows the first end of a comment, if it has one. -/
def afterComment : List Char → Option (List Char)
  | '*' :: '/' :: cs => some cs
  | _ :: cs => afterComment cs
  | [] => none

/-- A text from the end of its first line on. -/
def toLineEnd (cs : List Char) : List Char :=
  cs.dropWhile (· != '\n')

/-- The marker of the lines that begin with it, if a text begins with two angle brackets and one. -/
def marker? (cs : List Char) : Option (Bool × List Char × List Char) :=
  let (unindent, cs) := match cs with
    | '-' :: cs => (true, cs)
    | cs => (false, cs)
  match cs with
  | c :: _ =>
    if startsName c then
      match cs.dropWhile continuesName with
      | '\n' :: rest | '\r' :: '\n' :: rest => some (unindent, cs.takeWhile continuesName, rest)
      | _ => none
    else none
  | [] => none

/-! ### Plain text in templates -/

/-- The value of a hexadecimal digit. -/
def hexValue? (c : Char) : Option Nat :=
  if '0' ≤ c ∧ c ≤ '9' then some (c.toNat - '0'.toNat)
  else if 'a' ≤ c ∧ c ≤ 'f' then some (c.toNat - 'a'.toNat + 10)
  else if 'A' ≤ c ∧ c ≤ 'F' then some (c.toNat - 'A'.toNat + 10)
  else none

/-- Reads a number of hexadecimal digits onto a value. -/
def hexValues? : Nat → Nat → List Char → Option (Nat × List Char)
  | 0, value, cs => some (value, cs)
  | n + 1, value, c :: cs =>
    match hexValue? c with
    | some d => hexValues? n (value * 16 + d) cs
    | none => none
  | _ + 1, _, [] => none

/-- The character with a code; a code without one gives the replacement character. -/
def charOfCode (code : Nat) : Char :=
  if code.isValidChar then Char.ofNat code else '\ufffd'

/-- The character an escape stands for, the backslash read. -/
def escaped? : List Char → Option (Char × List Char)
  | 'n' :: cs => some ('\n', cs)
  | 'r' :: cs => some ('\r', cs)
  | 't' :: cs => some ('\t', cs)
  | '"' :: cs => some ('"', cs)
  | '\\' :: cs => some ('\\', cs)
  | 'u' :: cs => (hexValues? 4 0 cs).map fun (code, cs) => (charOfCode code, cs)
  | 'U' :: cs => (hexValues? 8 0 cs).map fun (code, cs) => (charOfCode code, cs)
  | _ => none

/-- Puts a character in front of the first piece of a template. -/
def pushChar (c : Char) : List Piece → List Piece
  | .text cs :: pieces => .text (c :: cs) :: pieces
  | pieces => .text [c] :: pieces

/-- Whether an expression is inserted where a text begins: the text after it, and whether blanks are cut. -/
def insertion? : List Char → Option (Bool × List Char)
  | '$' :: '\x7b' :: '~' :: cs => some (true, cs)
  | '$' :: '\x7b' :: cs => some (false, cs)
  | _ => none

/-- The two characters that a doubled mark in front of a brace stands for. -/
def doubled? : List Char → Option (Char × List Char)
  | '$' :: '$' :: '\x7b' :: cs => some ('$', cs)
  | '%' :: '%' :: '\x7b' :: cs => some ('%', cs)
  | _ => none

/-- Whether a directive begins where a text begins. There are none in this language. -/
def isDirective : List Char → Bool
  | '%' :: '\x7b' :: _ => true
  | _ => false

/-- Whether a line is the marker alone. -/
def isMarkerLine (marker cs : List Char) : Bool :=
  Text.trimEnd (Text.trimStart (cs.takeWhile (· != '\n'))) == marker

/-! ### Scanning -/

/-- The end of an insertion: whether blanks are cut after it, and what follows. -/
structure Rest where
  trim : Bool := false
  cs : List Char := []

/-- Puts a token in front of others. -/
def pushToken (t : Token) : Option (List Token × Rest) → Option (List Token × Rest) :=
  Option.map fun (ts, rest) => (t :: ts, rest)

mutual

/-- The tokens of a text, at most `fuel` steps deep. With a `depth`, the text is inside a template and ends at the
brace that closes it; `depth` counts the braces that are open. -/
def scan : (fuel : Nat) → (depth : Option Nat) → List Char → Option (List Token × Rest)
  | 0, _, _ => none
  | fuel + 1, depth, cs =>
    match cs with
    | [] => if depth.isSome then none else some ([], {})
    | '\n' :: cs | '\r' :: '\n' :: cs => pushToken .newline (scan fuel depth cs)
    | ' ' :: cs | '\t' :: cs => scan fuel depth cs
    | '#' :: cs | '/' :: '/' :: cs => scan fuel depth (toLineEnd cs)
    | '"' :: cs =>
      match scanQuoted fuel cs with
      | some (pieces, cs) => pushToken (.quoted pieces) (scan fuel depth cs)
      | none => none
    | '\x7b' :: cs => pushToken (.symbol .openBrace) (scan fuel (depth.map (· + 1)) cs)
    | '\x7d' :: cs =>
      match depth with
      | some 0 => some ([], { cs })
      | _ => pushToken (.symbol .closeBrace) (scan fuel (depth.map (· - 1)) cs)
    | '~' :: '\x7d' :: cs => if depth = some 0 then some ([], { trim := true, cs }) else none
    | '/' :: '*' :: cs =>
      match afterComment cs with
      | some cs => scan fuel depth cs
      | none => pushToken (.symbol .slash) (scan fuel depth ('*' :: cs))
    | c :: cs =>
      if startsName c then
        let name := String.ofList (c :: cs.takeWhile continuesName)
        pushToken (.name name) (scan fuel depth (cs.dropWhile continuesName))
      else if c.isDigit then
        let (tail, rest) := numberTail cs
        pushToken (.number (String.ofList (c :: tail))) (scan fuel depth rest)
      else
        let marked := match c, cs with
          | '<', '<' :: cs => marker? cs
          | _, _ => none
        match marked with
        | some (unindent, marker, cs) =>
          match scanLines fuel marker true cs with
          | some (pieces, cs) => pushToken (.lines unindent pieces) (scan fuel depth cs)
          | none => none
        | none =>
          match symbol? (c :: cs) with
          | some (s, cs) => pushToken (.symbol s) (scan fuel depth cs)
          | none => none

/-- The pieces of a quoted text up to its closing quote, and what follows. -/
def scanQuoted : (fuel : Nat) → List Char → Option (List Piece × List Char)
  | 0, _ => none
  | fuel + 1, cs =>
    match insertion? cs, doubled? cs with
    | some (trim, cs), _ =>
      match scan fuel (some 0) cs with
      | some (ts, rest) =>
        (scanQuoted fuel rest.cs).map fun (pieces, cs) => (.insertion trim rest.trim ts :: pieces, cs)
      | none => none
    | none, some (c, cs) =>
      (scanQuoted fuel cs).map fun (pieces, cs) => (pushChar c (pushChar '\x7b' pieces), cs)
    | none, none =>
      match cs with
      | [] => none
      | '"' :: cs => some ([], cs)
      | '\\' :: cs =>
        match escaped? cs with
        | some (c, cs) => (scanQuoted fuel cs).map fun (pieces, cs) => (pushChar c pieces, cs)
        | none => none
      | c :: cs' =>
        if c = '\n' ∨ c = '\r' ∨ isDirective cs then none
        else (scanQuoted fuel cs').map fun (pieces, cs) => (pushChar c pieces, cs)

/-- The pieces of lines up to the marker, and what follows it. Each line begins a new piece. -/
def scanLines : (fuel : Nat) → (marker : List Char) → (atStart : Bool) → List Char →
    Option (List Piece × List Char)
  | 0, _, _, _ => none
  | fuel + 1, marker, atStart, cs =>
    if atStart ∧ isMarkerLine marker cs ∧ cs.contains '\n' then
      -- The end of the line is a token of its own.
      let line := cs.takeWhile (· != '\n')
      some ([], if line.getLast? = some '\r' then '\r' :: toLineEnd cs else toLineEnd cs)
    else match insertion? cs, doubled? cs with
      | some (trim, cs), _ =>
        match scan fuel (some 0) cs with
        | some (ts, rest) =>
          (scanLines fuel marker false rest.cs).map fun (pieces, cs) => (.insertion trim rest.trim ts :: pieces, cs)
        | none => none
      | none, some (c, cs) =>
        (scanLines fuel marker false cs).map fun (pieces, cs) => (pushChar c (pushChar '\x7b' pieces), cs)
      | none, none =>
        match cs with
        | [] => none
        | '\n' :: cs => (scanLines fuel marker true cs).map fun (pieces, cs) => (.text ['\n'] :: pieces, cs)
        | c :: cs' =>
          if isDirective cs then none
          else (scanLines fuel marker false cs').map fun (pieces, cs) => (pushChar c pieces, cs)

end

/-- The text without a byte order mark at its start. -/
def withoutMark : List Char → List Char
  | '\ufeff' :: cs => cs
  | cs => cs

/-- The tokens of a text. -/
def ofString? (s : String) : Option (List Token) :=
  let cs := withoutMark s.toList
  (scan (cs.length + 1) none cs).map (·.1)

end Token

end OpGraph.Config
