import OpGraph.Network.Freeze
import OpGraph.Network.Optimize

/-!
# Workspaces

Several networks with the pattern libraries and weight blocks they share. A library is shared by the networks that
were made with it; a copied network gets a library of its own, and refers to the blocks of the other.
-/

namespace OpGraph

/-- The place of a network in a workspace. -/
abbrev NetworkRef := Nat

/-- Networks and what they share. -/
structure Workspace where
  networks : List Network := []
  libraries : List Library := []
  depot : Depot := {}
  deriving Repr, Inhabited

namespace Workspace

/-! ### Places -/

/-- Adds a library. -/
def addLibrary (w : Workspace) (l : Library) : Workspace × LibraryRef :=
  ({ w with libraries := w.libraries ++ [l] }, w.libraries.length)

/-- The library at a place. -/
def library (w : Workspace) (r : LibraryRef) : Library :=
  (w.libraries[r]?).getD {}

/-- Adds a pattern to a library. -/
def registerPattern (w : Workspace) (r : LibraryRef) (p : Pattern) : Except Pattern.Error Workspace := do
  let l ← (w.library r).register p
  return { w with libraries := w.libraries.set r l }

/-- Adds a network. -/
def addNetwork (w : Workspace) (n : Network) : Workspace × NetworkRef :=
  ({ w with networks := w.networks ++ [n] }, w.networks.length)

/-- The network at a place. -/
def network? (w : Workspace) (r : NetworkRef) : Option Network :=
  w.networks[r]?

/-- Replaces the network at a place. -/
def setNetwork (w : Workspace) (r : NetworkRef) (n : Network) : Workspace :=
  { w with networks := w.networks.set r n }

/-- Adds a network without operators that fuses the patterns of a library, or else of a standard one of its own. -/
def newNetwork (w : Workspace) (name : String) (library : Option LibraryRef) : Workspace × NetworkRef :=
  match library with
  | some l => w.addNetwork (.new name l)
  | none =>
    let (w, l) := w.addLibrary .standard
    w.addNetwork (.new name l)

/-- Applies an operation that concerns one network alone. -/
def onNetwork (w : Workspace) (r : NetworkRef) (f : Network → Except Network.Error Network) :
    Except Network.Error Workspace :=
  match w.network? r with
  | none => .ok w
  | some n => return w.setNetwork r (← f n)

/-! ### Shared blocks and patterns -/

/-- Makes a network refer to a weight block, whose operator must be known to it. -/
def registerBlock (w : Workspace) (r : NetworkRef) (block : Option BlockRef) :
    Except Network.Error Workspace :=
  match w.network? r, block with
  | none, _ => .ok w
  | some _, none => .error ⟨.registBlock, .noBlock⟩
  | some n, some b =>
    match w.depot.block? b with
    | none => .error ⟨.registBlock, .noBlock⟩
    | some block =>
      if block.op ≠ "" ∧ !n.graph.hasNode block.op ∧ !n.isAbsorbed block.op then
        .error ⟨.registBlock, .blockOpMissing block.op block.id⟩
      else if n.blocks.any fun have_ => (w.depot.block? have_).any (·.id == block.id) then
        .error ⟨.registBlock, .blockExists block.id⟩
      else
        let w := w.setNetwork r { n with blocks := n.blocks ++ [b] }
        .ok { w with depot := w.depot.retain b }

/-- The names of the blocks a network refers to. -/
def blockIds (w : Workspace) (n : Network) : List String :=
  n.blocks.filterMap fun b => (w.depot.block? b).map (·.id)

/-- Adds a pattern to the library of a network. -/
def registerNetworkPattern (w : Workspace) (r : NetworkRef) (p : Pattern) : Except Network.Error Workspace :=
  match w.network? r with
  | none => .ok w
  | some n =>
    match w.registerPattern n.library p with
    | .ok w => .ok w
    | .error cause => .error ⟨.registerPattern, .pattern cause⟩

/-! ### Copying and cleaning -/

/-- Makes a network a copy of another one. The blocks of the other are referred to before its own are released; if
that is aborted, the network itself stays as it was. -/
def copyFrom (w : Workspace) (r : NetworkRef) (source : Option NetworkRef) : Workspace × Option Fault :=
  match source with
  | none => (w, some (Network.Error.toFault ⟨.copyFrom, .noSource⟩))
  | some s =>
    if s = r then (w, none)
    else match w.network? r, w.network? s with
      | some n, some other =>
        let depot := other.blocks.foldl Depot.retain w.depot
        match depot.releaseAll n.blocks with
        | (depot, some fault) => ({ w with depot }, some fault)
        | (depot, none) =>
          let (w, library) := { w with depot }.addLibrary (w.library other.library)
          (w.setNetwork r { other with library, epoch := n.epoch + 1 }, none)
      | _, _ => (w, none)

/-- Makes a network empty again; its settings stay. -/
def clean (w : Workspace) (r : NetworkRef) : Workspace × Option Fault :=
  match w.network? r with
  | none => (w, none)
  | some n =>
    match w.depot.releaseAll n.blocks with
    | (depot, some fault) => ({ w with depot }, some fault)
    | (depot, none) =>
      let n := { Network.new n.graph.name n.library with epoch := n.epoch + 1, cap := n.cap, elide := n.elide }
      ({ w with depot }.setNetwork r n, none)

/-! ### Optimizing -/

/-- How often an optimization is attempted. -/
def attempts : Nat := 3

/-- Tries `left` more times to optimize a network. Between drafting and landing the `i`-th attempt others may act on
the workspace, which `interlude i` says; what they report is collected in order. Only an attempt that lands moves
entries, so one order serves for all of them. -/
def optimizeWith {α : Type} (r : NetworkRef) (fusion : Bool) (ord : RenameOrder)
    (interlude : Nat → Workspace → Workspace × List α) :
    Nat → Nat → Workspace → Workspace × Network.Outcome × List α
  | 0, _, w => (w, .failed {} ⟨.optimize, .unsettled attempts⟩, [])
  | left + 1, i, w =>
    match w.network? r with
    | none => (w, .done {}, [])
    | some n =>
      match n.draft (w.library n.library) fusion with
      | .error (stats, error) => (w, .failed stats error, [])
      | .ok d =>
        let (w, reports) := interlude i w
        match w.network? r with
        | none => (w, .done {}, reports)
        | some n =>
          match n.land d fusion ord with
          | (n, .stale stats) =>
            let w := w.setNetwork r n
            if left = 0 then (w, .failed stats ⟨.optimize, .unsettled attempts⟩, reports)
            else
              let (w, outcome, more) := optimizeWith r fusion ord interlude left (i + 1) w
              (w, outcome, reports ++ more)
          | (n, outcome) => (w.setNetwork r n, outcome, reports)

/-- Optimizes a network while others may act on the workspace. -/
def optimize {α : Type} (w : Workspace) (r : NetworkRef) (fusion : Bool) (ord : RenameOrder)
    (interlude : Nat → Workspace → Workspace × List α) : Workspace × Network.Outcome × List α :=
  optimizeWith r fusion ord interlude attempts 0 w

end Workspace

end OpGraph
