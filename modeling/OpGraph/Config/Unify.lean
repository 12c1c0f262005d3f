import OpGraph.Config.Ty

/-!
# Conversion between types

`Ty.accepts` says whether values of a type can be converted to another one, as far as types tell, and `Ty.unify` gives
the type that values of several types are converted to if one of them is to be chosen. The two need each other: a
tuple becomes a list of anything by the type its elements have in common.

A type that is not known yet converts to every other. Beside plain types it takes theirs; beside tuples, objects and
other collections the result is not known either.
-/

namespace OpGraph.Config.Ty

/-- Whether the first of two types is the more general one, to be tried first. -/
def moreGeneral : Ty → Ty → Bool
  | any, _ => false
  | _, any => true
  | string, number | string, bool => true
  | list a, list b | map a, map b => moreGeneral a b
  | list _, tuple _ => true
  | map _, object _ _ => true
  | _, _ => false

/-- The different ones of some types with the more general ones first, else in the order they have. -/
def byGenerality (ts : List Ty) : List Ty :=
  let ts := ts.eraseDups
  let rank := fun t => (ts.filter (moreGeneral · t)).length
  ts.mergeSort fun a b => rank a ≤ rank b

/-- Whether some of the types are of a kind, and those that are not of it of the other or not known. -/
def areOf (isKind isOther : Ty → Bool) (ts : List Ty) : Bool :=
  ts.any isKind && ts.all fun t => isKind t || isOther t || t == any

/-- Whether types are known to be of one kind, apart from those that are not known. -/
def areAll (isKind : Ty → Bool) (ts : List Ty) : Bool :=
  areOf isKind isKind ts

/-- The elements of some types at a position. -/
def across (i : Nat) (ts : List Ty) : List Ty :=
  ts.filterMap fun t => t.parts[i]?

/-- The fields of some types with a name. -/
def acrossFields (name : String) (ts : List Ty) : List Ty :=
  ts.filterMap (field? name)

mutual

/-- Whether values of a type can be converted to the wanted one. Types are looked into `fuel` levels deep. -/
def acceptsIn : (fuel : Nat) → (want actual : Ty) → Bool
  | 0, want, actual => want == actual
  | fuel + 1, want, actual =>
    want == actual || actual == any ||
      match want, actual with
      | any, _ => true
      | string, number | string, bool | number, string | bool, string => true
      | list w, list a | list w, set a | set w, list a | set w, set a | map w, map a => acceptsIn fuel w a
      | list w, tuple as | set w, tuple as =>
        as.isEmpty || match elementIn fuel w as with
          | some w => as.all (acceptsIn fuel w)
          | none => false
      | map w, object _ as =>
        as.isEmpty || match fieldIn fuel w as with
          | some w => as.all (acceptsIn fuel w)
          | none => false
      | tuple ws, tuple as => ws.length == as.length && (ws.zip as).all fun p => acceptsIn fuel p.1 p.2
      | object ns ws, object ms as =>
        (ns.zip ws).all fun p =>
          match field? p.1 (object ms as) with
          | some a => acceptsIn fuel p.2 a
          | none => false
      | object _ ws, map a => ws.all fun w => acceptsIn fuel w a
      | _, _ => false

/-- The type the elements of a tuple are converted to in a list of the given type. In a list of anything it is the one
they have in common, which must be known if one of them is. -/
def elementIn : (fuel : Nat) → (want : Ty) → (actual : List Ty) → Option Ty
  | 0, want, _ => some want
  | fuel + 1, want, as =>
    if want == any then
      (unifyIn fuel as).filter fun t => !(t == any) || as.all (· == any)
    else some want

/-- The type the fields of an object are converted to in a map of the given type. -/
def fieldIn : (fuel : Nat) → (want : Ty) → (actual : List Ty) → Option Ty
  | 0, want, _ => some want
  | fuel + 1, want, as => if want == any then unifyIn fuel as else some want

/-- The list that values of some tuple types can all become. -/
def tuplesToListIn : (fuel : Nat) → List Ty → Option Ty
  | 0, _ => none
  | fuel + 1, ts => ((unifyIn fuel (ts.flatMap parts)).map list).filter fun t => ts.all (acceptsIn fuel t)

/-- The map that values of some object types can all become. -/
def objectsToMapIn : (fuel : Nat) → List Ty → Option Ty
  | 0, _ => none
  | fuel + 1, ts => ((unifyIn fuel (ts.flatMap parts)).map map).filter fun t => ts.all (acceptsIn fuel t)

/-- The first of some types, general ones first, that all of them can be converted to. -/
def preferredIn : (fuel : Nat) → List Ty → Option Ty
  | 0, _ => none
  | fuel + 1, ts => (byGenerality ts).find? fun want => ts.all (acceptsIn fuel want)

/-- The type that values of all of some types can be converted to, if there is one. Tuples of one length unify element
by element, others become lists; objects with the same fields unify field by field, others become maps. Tuples beside
a list and objects beside a map are taken for such, if they can be. -/
def unifyIn : (fuel : Nat) → List Ty → Option Ty
  | 0, _ => none
  | fuel + 1, ts =>
    let isOpen := ts.any (· == any)
    let settled := fun (t : Option Ty) => t.filter fun t => ts.all (acceptsIn fuel t)
    if areAll isMap ts then
      if isOpen then some any else settled ((unifyIn fuel (ts.flatMap parts)).map map)
    else if areOf isMap isObject ts then
      let taken := do
        let m ← objectsToMapIn fuel (ts.filter isObject)
        (unifyIn fuel (ts.map fun t => if t.isObject then m else t)).filter isMap
      taken <|> preferredIn fuel ts
    else if areAll isList ts then
      if isOpen then some any else settled ((unifyIn fuel (ts.flatMap parts)).map list)
    else if areOf isList isTuple ts then
      let taken := do
        let l ← tuplesToListIn fuel (ts.filter isTuple)
        (unifyIn fuel (ts.map fun t => if t.isTuple then l else t)).filter isList
      taken <|> preferredIn fuel ts
    else if areAll isSet ts then
      if isOpen then some any else settled ((unifyIn fuel (ts.flatMap parts)).map set)
    else if areAll isObject ts then
      if isOpen then some any
      else match ts with
        | [] => none
        | t :: rest =>
          if rest.all fun u => u.names == t.names then do
            let types ← t.names.mapM fun n => unifyIn fuel (acrossFields n ts)
            settled (some (object t.names types)) <|> objectsToMapIn fuel ts
          else objectsToMapIn fuel ts
    else if areAll isTuple ts then
      if isOpen then some any
      else match ts with
        | [] => none
        | t :: rest =>
          if rest.all fun u => u.parts.length == t.parts.length then do
            let types ← (List.range t.parts.length).mapM fun i => unifyIn fuel (across i ts)
            settled (some (tuple types)) <|> tuplesToListIn fuel ts
          else tuplesToListIn fuel ts
    else if ts.any isObject && ts.any isTuple then none
    else preferredIn fuel ts

end

/-- A wanted type with its unknown parts filled in from the type of the value that is to be converted. -/
def refineIn : (fuel : Nat) → (want actual : Ty) → Ty
  | 0, want, _ => want
  | fuel + 1, want, actual =>
    let shared := fun (w : Ty) (as : List Ty) => (unifyIn fuel as).elim w (refineIn fuel w)
    match want, actual with
    | want, any => want
    | any, actual => actual
    | list w, list a | list w, set a => list (refineIn fuel w a)
    | set w, list a | set w, set a => set (refineIn fuel w a)
    | map w, map a => map (refineIn fuel w a)
    | list w, tuple as => list (shared w as)
    | set w, tuple as => set (shared w as)
    | map w, object _ as => map (shared w as)
    | tuple ws, tuple as => tuple ((ws.zip as).map fun p => refineIn fuel p.1 p.2)
    | object ns ws, map a => object ns (ws.map fun w => refineIn fuel w a)
    | object ns ws, object ms as =>
      object ns ((ns.zip ws).map fun p => ((object ms as).field? p.1).elim p.2 (refineIn fuel p.2))
    | want, _ => want

/-- Levels that are enough for types of a depth: no step of unification takes more than eight for one of theirs. -/
def levels (ts : List Ty) : Nat :=
  8 * depth.depths ts + 8

/-- Whether values of a type can be converted to the wanted one, as far as types tell. -/
def accepts (want actual : Ty) : Bool :=
  acceptsIn (levels [want, actual]) want actual

/-- The type that values of all of some types can be converted to, if there is one. -/
def unify (ts : List Ty) : Option Ty :=
  unifyIn (levels ts) ts

/-- A wanted type with its unknown parts filled in from the type of the value that is to be converted. -/
def refine (want actual : Ty) : Ty :=
  refineIn (levels [want, actual]) want actual

end OpGraph.Config.Ty
