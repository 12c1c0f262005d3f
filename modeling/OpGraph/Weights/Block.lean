import OpGraph.Data.Dict
import OpGraph.Failure
import OpGraph.Text.Quoted

/-!
# Weight blocks

Blocks of weights are shared: each counts how often it is referred to. A depot holds all blocks, and pools of it
file blocks under their names. A block that is no longer referred to leaves the pool that owns it.
-/

namespace OpGraph

/-- A block of weights. -/
structure Block where
  id : String
  /-- The operator it belongs to, if any. -/
  op : String
  shape : List Int64
  /-- The values, if they are loaded. -/
  data : Option (List Float32)
  /-- How often it is referred to. -/
  refs : Int32 := 0
  /-- The pool it leaves when it is no longer referred to. -/
  owner : Option String := none
  deriving Repr

namespace Block

/-- Why a block can not be made or filed. -/
inductive Error where
  | unnamed
  | dimension (id : String) (d : Int64)
  | size (id : String) (values : Nat) (want : Int64)
  | taken (id : String)
  deriving DecidableEq, Repr

/-- The failure an error is reported as. -/
def Error.toFailure : Error → Failure
  | unnamed => .of .invalidGraph "weight block has no id"
  | dimension id d => .of .sizeMismatch s!"block {Text.quote id} has non-positive dimension {d}"
  | size id values want =>
    .of .sizeMismatch s!"block {Text.quote id} holds {values} values, shape wants {want}"
  | taken id => .of .alreadyExists s!"weight block {Text.quote id}"

instance : Reported Error := ⟨fun e => .failure e.toFailure⟩

/-- The number of values a shape has room for, as a machine word. -/
def sizeOfShape (shape : List Int64) : Int64 :=
  shape.foldl (· * ·) 1

/-- The number of values a block has room for. -/
def size (b : Block) : Int64 :=
  sizeOfShape b.shape

/-- Makes a block whose values, if there are any, fill its shape. -/
def make (id op : String) (shape : List Int64) (data : Option (List Float32)) : Except Error Block :=
  if id = "" then .error .unnamed
  else match shape.find? (· ≤ 0) with
    | some d => .error (.dimension id d)
    | none =>
      match data with
      | none => .ok { id, op, shape, data }
      | some values =>
        if (values.length : Int) = (sizeOfShape shape).toInt then .ok { id, op, shape, data }
        else .error (.size id values.length (sizeOfShape shape))

end Block

/-- The place of a block in a depot. -/
abbrev BlockRef := Nat

/-- All blocks, and the pools that file some of them under their names. -/
structure Depot where
  blocks : List Block := []
  pools : Dict (Dict BlockRef) := {}
  deriving Repr, Inhabited

namespace Depot

/-- Adds a block. -/
def add (d : Depot) (b : Block) : Depot × BlockRef :=
  ({ d with blocks := d.blocks ++ [b] }, d.blocks.length)

/-- The block at a place. -/
def block? (d : Depot) (r : BlockRef) : Option Block :=
  d.blocks[r]?

/-- Changes the block at a place. -/
def modify (d : Depot) (r : BlockRef) (f : Block → Block) : Depot :=
  match d.block? r with
  | some b => { d with blocks := d.blocks.set r (f b) }
  | none => d

/-- The blocks of a pool by their names. -/
def pool (d : Depot) (name : String) : Dict BlockRef :=
  d.pools.getD name {}

/-- Files a block in a pool, which becomes its owner. -/
def register (d : Depot) (r : BlockRef) (pool : String) : Except Block.Error Depot :=
  match d.block? r with
  | none => .ok d
  | some b =>
    if (d.pool pool).contains b.id then .error (.taken b.id)
    else
      let d := { d with pools := d.pools.insert pool ((d.pool pool).insert b.id r) }
      .ok (d.modify r fun b => { b with owner := some pool })

/-- Refers to a block once more. -/
def retain (d : Depot) (r : BlockRef) : Depot :=
  d.modify r fun b => { b with refs := b.refs + 1 }

/-- Takes a block out of a pool, if it is the one that is filed there under its name. -/
def unfile (d : Depot) (r : BlockRef) (id pool : String) : Depot :=
  if (d.pool pool).get? id = some r then { d with pools := d.pools.insert pool ((d.pool pool).erase id) }
  else d

/-- Refers to a block once less. The last reference takes it out of its pool; there must have been one. -/
def release (d : Depot) (r : BlockRef) : Depot × Option Fault :=
  match d.block? r with
  | none => (d, none)
  | some b =>
    let left := b.refs - 1
    let d := d.modify r fun b => { b with refs := left }
    if left = 0 then
      match b.owner with
      | some pool => (d.unfile r b.id pool, none)
      | none => (d, none)
    else if left < 0 then (d, some (.abort s!"weights: block {b.id} released more often than retained"))
    else (d, none)

/-- Releases blocks in turn, up to the first that can not be released. -/
def releaseAll : Depot → List BlockRef → Depot × Option Fault
  | d, [] => (d, none)
  | d, r :: rest =>
    match d.release r with
    | (d, none) => d.releaseAll rest
    | (d, some f) => (d, some f)

end Depot

end OpGraph
