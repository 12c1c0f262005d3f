import OpGraph.Config.Value
import OpGraph.Text.Quoted

/-!
# Equal values and sets

When two values are the same, and the sets that values form: each element is there once, in an order that does not
depend on how the set was made.
-/

namespace OpGraph.Config.Value

/-! ### Equality -/

mutual

/-- Whether two values of one type are the same. -/
def agrees : Value → Value → Bool
  | null _, null _ => true
  | string a, string b => a == b
  | number a, number b => a.compare b == .eq
  | bool a, bool b => a == b
  | list _ as, list _ bs => agreesAll as bs
  | set _ as, set _ bs => agreesAll as bs
  | map _ ks as, map _ ls bs => ks == ls && agreesAll as bs
  | tuple as, tuple bs => agreesAll as bs
  | object _ as, object _ bs => agreesAll as bs
  | _, _ => false

/-- Whether two lists of values are the same position by position. -/
def agreesAll : List Value → List Value → Bool
  | [], [] => true
  | a :: as, b :: bs => agrees a b && agreesAll as bs
  | _, _ => false

end

/-- Whether two values are the same. Values of different types are not, but a missing value is the same as any other. -/
def equal (a b : Value) : Bool :=
  (a.isNull && b.isNull) || (a.type == b.type && a.agrees b)

/-! ### Sets -/

mutual

/-- A text for a value, by which the elements of a set are told apart and, if they are collections, ordered. -/
def mark : Value → String
  | null _ => "~"
  | unknown _ => "?"
  | string s => Text.quote s
  | number n => n.shortText
  | bool b => if b then "T" else "F"
  | list _ vs | set _ vs => "[" ++ marks vs ++ "]"
  | map _ ks vs => "\x7b" ++ String.join ((ks.zip (markEach vs)).map fun p => Text.quote p.1 ++ ":" ++ p.2 ++ ";") ++
    "\x7d"
  | tuple vs | object _ vs => "<" ++ marks vs ++ ">"

/-- The texts for values, each with an end. -/
def marks : List Value → String
  | [] => ""
  | v :: vs => v.mark ++ ";" ++ marks vs

/-- The texts for values. -/
def markEach : List Value → List String
  | [] => []
  | v :: vs => v.mark :: markEach vs

end

/-- Where values stand in a set: those that are known, then the unknown and the missing ones. -/
def rank : Value → Nat
  | unknown _ => 1
  | null _ => 2
  | _ => 0

/-- The order of the elements of a set: numbers, texts and truth values ascend, a zero with a sign is in front of one
without, collections are ordered by their marks. -/
def before (v w : Value) : Bool :=
  match v, w with
  | number a, number b => a.compare b == .lt || (a.isZero && b.isZero && a.isNegative && !b.isNegative)
  | string a, string b => a < b
  | bool a, bool b => !a && b
  | v, w => v.rank < w.rank || (v.rank == 0 && w.rank == 0 && v.mark < w.mark)

/-- Whether two values are one element of a set. Two zeros with different signs are not. -/
def sameElement (v w : Value) : Bool :=
  v.mark == w.mark && v.equal w

/-- Puts an element in its place, unless it is there. -/
def placeElement (v : Value) (ws : List Value) : List Value :=
  if ws.any (sameElement v) then ws
  else ws.takeWhile (fun w => !before v w) ++ v :: ws.dropWhile fun w => !before v w

/-- The set of some values. -/
def setOf (element : Ty) (vs : List Value) : Value :=
  set element (vs.foldl (fun ws v => placeElement (typed element v) ws) [])

end OpGraph.Config.Value
