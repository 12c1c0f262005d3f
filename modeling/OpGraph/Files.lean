import OpGraph.Data.Dict
import OpGraph.Failure

/-!
# Files

A tree of files and directories below a working directory, and how files are found in it. Paths are texts with
slashes.
-/

namespace OpGraph

/-- Files by their paths, and directories that may be empty. -/
structure Files where
  files : Dict String := {}
  dirs : List String := []
  deriving Repr, Inhabited

namespace Files

/-! ### Paths -/

/-- The parts of a path that matter. -/
def parts (path : String) : List String :=
  (path.splitOn "/").filter fun p => p ≠ "" ∧ p ≠ "."

/-- Resolves the parts that lead up again; those that lead out of a relative path stay. -/
def resolve (rooted : Bool) (ps : List String) : List String :=
  (ps.foldl (fun done p =>
    if p = ".." then
      match done with
      | [] => if rooted then [] else [".."]
      | last :: rest => if last = ".." then ".." :: done else rest
    else p :: done) []).reverse

/-- The shortest path to the same place. -/
def clean (path : String) : String :=
  let rooted := path.startsWith "/"
  let text := "/".intercalate (resolve rooted (parts path))
  if rooted then "/" ++ text else if text = "" then "." else text

/-- A path with a name below it. -/
def join (dir name : String) : String :=
  clean (dir ++ "/" ++ name)

/-! ### Entries -/

/-- What a path leads to. -/
inductive Entry where
  | file (content : String)
  | directory
  deriving Repr

/-- The parts of the paths of all files and directories. -/
def places (f : Files) : List (List String × Option String) :=
  f.files.entries.map (fun (p, content) => (resolve false (parts p), some content)) ++
    f.dirs.map fun p => (resolve false (parts p), none)

/-- What resolved parts lead to. -/
def entry? (f : Files) (ps : List String) : Option Entry :=
  match (f.files.entries.find? fun e => resolve false (parts e.1) == ps) with
  | some e => some (.file e.2)
  | none =>
    if ps.isEmpty ∨ (f.places.any fun place => ps.isPrefixOf place.1) then some .directory else none

/-- Why a path leads nowhere. -/
inductive Missing where
  | absent
  /-- A part on the way is a file. -/
  | notDirectory
  deriving DecidableEq, Repr

/-- The text of the reason. -/
def Missing.text : Missing → String
  | absent => "no such file or directory"
  | notDirectory => "not a directory"

/-- Follows the parts of a path as they are written. -/
def follow (f : Files) : (here : List String) → List String → Except Missing Entry
  | here, [] => (f.entry? here).elim (.error .absent) .ok
  | here, p :: ps =>
    match f.entry? here with
    | none => .error .absent
    | some (.file _) => .error .notDirectory
    | some .directory => f.follow (if p = ".." then here.dropLast else here ++ [p]) ps

/-- What a path leads to. A path that ends with a slash can not lead to a file. -/
def stat (f : Files) (path : String) : Except Missing Entry :=
  if path = "" then .error .absent
  else match f.follow [] (parts path) with
    | .ok (.file content) =>
      if path.endsWith "/" ∨ path.endsWith "/." then .error .notDirectory else .ok (.file content)
    | r => r

/-- The names in a directory, ascending. -/
def children (f : Files) (dir : List String) : List String :=
  (NameSet.ofList (f.places.filterMap fun place =>
    if dir.isPrefixOf place.1 then (place.1.drop dir.length).head? else none)).keys

/-- The number of parts of the longest path. -/
def height (f : Files) : Nat :=
  (f.places.map fun place => place.1.length).foldl max 0

/-- The files with an ending below a directory, the entries of each directory in order. -/
def walk (f : Files) (ext : String) : (fuel : Nat) → (path : String) → (dir : List String) → List String
  | 0, _, _ => []
  | fuel + 1, path, dir =>
    (f.children dir).flatMap fun name =>
      match f.entry? (dir ++ [name]) with
      | some (.file _) => if name.endsWith ext then [join path name] else []
      | _ => f.walk ext fuel (join path name) (dir ++ [name])

/-- Why files could not be found. -/
inductive Error where
  | noExtension
  | missing (path : String) (cause : Missing)
  deriving DecidableEq, Repr

/-- How a search ends that fails. -/
def Error.toFault : Error → Fault
  | noExtension => .abort "extension must not be empty"
  | missing path cause =>
    .failure (.context s!"error accessing path {path}" (.plain s!"stat {path}: {cause.text}"))

instance : Reported Error := ⟨fun e => e.toFault⟩

/-- The files with an ending that a path leads to: itself, or those below it. -/
def findAt (f : Files) (ext path : String) : Except Error (List String) :=
  match f.stat path with
  | .error cause => .error (.missing path cause)
  | .ok (.file _) => .ok (if path.endsWith ext then [clean path] else [])
  | .ok .directory => .ok (f.walk ext (f.height + 1) path (resolve false (parts path)))

/-- The files with an ending that some paths lead to, each once. -/
def find (f : Files) (ext : String) (paths : List String) : Except Error (List String) := do
  if ext = "" then throw .noExtension
  let found ← paths.mapM (f.findAt ext)
  return found.flatten.foldl (fun seen p => if seen.contains p then seen else seen ++ [p]) []

/-- The content of a file. -/
def content? (f : Files) (path : String) : Option String :=
  match f.stat path with
  | .ok (.file content) => some content
  | _ => none

end Files

end OpGraph
