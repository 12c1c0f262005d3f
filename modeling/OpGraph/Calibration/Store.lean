import OpGraph.Calibration.Layout
import OpGraph.Graph.Edge

/-!
# Calibration

The scales and layouts that were recorded for the edges and weight tensors of a graph, by identifier.
-/

namespace OpGraph

/-- The scale of a tensor: one value for all channels or one for each. -/
structure Scale where
  values : List Float32
  isBias : Bool
  deriving Repr

/-- An order in which the entries of a table of new identifiers are taken up. The table itself has no order, so each
rearrangement of its entries is possible. -/
structure RenameOrder where
  arrange : List (EdgeId × EdgeId) → List (EdgeId × EdgeId)
  arrange_perm : ∀ entries, (arrange entries).Perm entries

/-- The order of the old identifiers. -/
def RenameOrder.ascending : RenameOrder := ⟨id, fun _ => .refl _⟩

/-- What is recorded about tensors. -/
structure Calibration where
  scales : Dict Scale := {}
  layouts : Dict Layout := {}
  deriving Repr, Inhabited

namespace Calibration

/-- Why something can not be recorded or does not fit. -/
inductive Error where
  | emptyScale (id : EdgeId)
  | invalidLayout (id : EdgeId)
  | noScale (id : EdgeId)
  | channelCount (id : EdgeId) (values : Nat) (want : Int)
  deriving DecidableEq, Repr

/-- The failure an error is reported as. -/
def Error.toFailure : Error → Failure
  | emptyScale id => .of .sizeMismatch s!"scale for {id} is empty"
  | invalidLayout id => .of .typeMismatch s!"layout for {id} is invalid"
  | noScale id => .of .notFound s!"no scale for {id}"
  | channelCount id values want => .of .sizeMismatch s!"scale for {id} has {values} values, want {want}"

instance : Reported Error := ⟨fun e => .failure e.toFailure⟩

/-- Records the scale of a tensor. -/
def setScale (c : Calibration) (id : EdgeId) (values : List Float32) (isBias : Bool) :
    Except Error Calibration :=
  if values.isEmpty then .error (.emptyScale id)
  else .ok { c with scales := c.scales.insert id ⟨values, isBias⟩ }

/-- Records the layout of a tensor. -/
def setLayout (c : Calibration) (id : EdgeId) (l : Layout) : Except Error Calibration :=
  if l = .invalid then .error (.invalidLayout id)
  else .ok { c with layouts := c.layouts.insert id l }

/-- Moves the entry of one identifier to another. -/
def move {α : Type} (d : Dict α) (old new : EdgeId) : Dict α :=
  match d.get? old with
  | some v => (d.erase old).insert new v
  | none => d

/-- Moves what is recorded for one identifier to another. -/
def moveEntry (c : Calibration) (old new : EdgeId) : Calibration where
  scales := move c.scales old new
  layouts := move c.layouts old new

/-- Moves what is recorded as a list of pairs says, one after the other. -/
def renameAll (c : Calibration) (renames : List (EdgeId × EdgeId)) : Calibration :=
  renames.foldl (fun c (old, new) => c.moveEntry old new) c

/-- Moves what is recorded to new identifiers, in some order. -/
def rename (c : Calibration) (ord : RenameOrder) (renames : Dict EdgeId) : Calibration :=
  c.renameAll (ord.arrange renames.entries)

/-- Keeps what is recorded for identifiers with a property. -/
def retain (c : Calibration) (keep : EdgeId → Bool) : Calibration where
  scales := c.scales.filter fun id _ => keep id
  layouts := c.layouts.filter fun id _ => keep id

/-- Checks that the scale of a tensor fits a number of channels. -/
def checkChannels (c : Calibration) (id : EdgeId) (n : Int) : Except Error Unit :=
  match c.scales.get? id with
  | none => .error (.noScale id)
  | some s =>
    if s.values.length = 1 ∨ (s.values.length : Int) = n then .ok ()
    else .error (.channelCount id s.values.length n)

end Calibration

end OpGraph
