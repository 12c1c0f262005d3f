import OpGraph.Kernel.Manifest
import OpGraph.Model.Basic

/-!
# Kernel registries

A registry holds the kernels that can run operators and the manifests that describe them. It checks that the two
agree, that a network can run on a target, and fills in the defaults of a model's operators.
-/

namespace OpGraph.Kernel

/-- Kernels and manifests in the order in which they were added. -/
structure Registry where
  kernels : List (Key × Kernel) := []
  manifests : List (Key × Manifest) := []
  deriving Repr, Inhabited

/-- Why a kernel can not be registered. -/
inductive RegistrationError where
  | taken (key : Key)
  | notRecord (key : Key) (type : String)
  deriving DecidableEq, Repr

/-- The text of an error. -/
def RegistrationError.text : RegistrationError → String
  | taken key => s!"kernel '{key.text}' already registered"
  | notRecord key type => s!"kernel '{key.text}': params must be a struct type, got {type}"

instance : Reported RegistrationError := ⟨fun e => .abort e.text⟩

/-- What a kernel is said to read its attributes into. -/
inductive Params where
  | absent
  | record (fields : List Field)
  /-- A type that is no record. -/
  | other (type : String)
  deriving Repr

namespace Registry

/-- The value of a key in a list of pairs. -/
def lookup {α : Type} (key : Key) (pairs : List (Key × α)) : Option α :=
  (pairs.find? fun p => p.1 == key).map (·.2)

/-- The kernel for a key. -/
def kernel? (r : Registry) (key : Key) : Option Kernel :=
  lookup key r.kernels

/-- The manifest for a key. -/
def manifest? (r : Registry) (key : Key) : Option Manifest :=
  lookup key r.manifests

/-- Adds a kernel. -/
def register (r : Registry) (key : Key) (precisions : List Precision) (params : Params) :
    Except RegistrationError Registry :=
  if (r.kernel? key).isSome then .error (.taken key)
  else match params with
    | .other type => .error (.notRecord key type)
    | .absent => .ok { r with kernels := r.kernels ++ [(key, { precisions })] }
    | .record fields => .ok { r with kernels := r.kernels ++ [(key, { precisions, fields := some fields })] }

/-- Adds kernels in turn, up to the first that can not be added. -/
def registerAll : Registry → List (Key × List Precision × Params) → Registry × Option RegistrationError
  | r, [] => (r, none)
  | r, (key, precisions, params) :: rest =>
    match r.register key precisions params with
    | .ok r => r.registerAll rest
    | .error e => (r, some e)

/-- Replaces the value of a key, or adds it. -/
def put {α : Type} (key : Key) (a : α) : List (Key × α) → List (Key × α)
  | [] => [(key, a)]
  | p :: ps => if p.1 = key then (key, a) :: ps else p :: put key a ps

/-- Adds manifests; a later one for the same key replaces an earlier one. -/
def describe (r : Registry) (manifests : List Manifest) : Registry :=
  { r with manifests := manifests.foldl (fun ps m => put m.key m ps) r.manifests }

/-- The texts of the keys of the kernels, ascending. -/
def keyTexts (r : Registry) : List String :=
  (r.kernels.map (·.1.text)).mergeSort

/-- The targets that have a kernel, ascending. -/
def targets (r : Registry) : List String :=
  (NameSet.ofList (r.kernels.map (·.1.target))).keys

/-! ### Agreement of manifests and kernels -/

/-- What is wrong between a manifest and its kernel. -/
inductive Complaint where
  | precision (key : Key) (failure : Failure)
  | unsupported (key : Key) (precision : Precision)
  | noRecord (key : Key)
  | undeclared (key : Key) (attr : String)
  | unread (key : Key) (attr : String)
  | required (key : Key) (attr field : String)
  | indescribable (key : Key) (attr : String) (type : FieldType)
  | type (key : Key) (attr field : String) (manifest record : Config.Ty)
  deriving Repr

/-- The text of a complaint. -/
def Complaint.text : Complaint → String
  | precision key failure => s!"kernel '{key.text}': {failure.text}"
  | unsupported key p =>
    s!"kernel '{key.text}': manifest declares precision '{p.text}' which the Go kernel does not support"
  | noRecord key => s!"kernel '{key.text}': manifest declares params, but Go kernel has no params struct"
  | undeclared key attr =>
    s!"kernel '{key.text}': Go struct has field for param '{attr}' which is not declared in manifest"
  | unread key attr =>
    s!"kernel '{key.text}': manifest declares param '{attr}' which is not found in Go struct"
  | required key attr field =>
    s!"kernel '{key.text}', param '{attr}': optional in manifest without a default, but Go struct field " ++
      s!"'{field}' requires it"
  | indescribable key attr t =>
    s!"kernel '{key.text}', param '{attr}': could not imply cty type from Go field type {t.text}: " ++
      s!"no cty.Type for {t.text}"
  | type key attr field manifest record =>
    s!"kernel '{key.text}', param '{attr}': type mismatch. Manifest requires '{manifest.friendlyName}' but Go " ++
      s!"struct field '{field}' provides '{record.friendlyName}'"

/-- The failure of a check with complaints. -/
def complaintsFailure (texts : List String) : Failure :=
  .plain ("registry validation failed:\n- " ++ "\n- ".intercalate texts)

/-- The complaints about one precision of a manifest. -/
def checkPrecision (key : Key) (k : Kernel) (text : String) : List Complaint :=
  match Precision.parse text with
  | .error failure => [.precision key failure]
  | .ok p => if k.supports p then [] else [.unsupported key p]

/-- The complaints about the type of an attribute. -/
def checkType (key : Key) (want : Config.Ty) (p : Parameter) : List Complaint :=
  if want == .any then []
  else match p.field.type.described? with
    | none => [.indescribable key p.attr p.field.type]
    | some type => if want == type then [] else [.type key p.attr p.field.name want type]

/-- The complaints about an attribute that both sides know. -/
def checkParam (key : Key) (param : Manifest.Param) (p : Parameter) : List Complaint :=
  (if param.isOptional ∧ param.default.isNone ∧ !p.isOptional then
    [.required key p.attr p.field.name] else []) ++ checkType key param.type p

/-- The complaints about the attributes of a manifest. -/
def checkParams (key : Key) (m : Manifest) (k : Kernel) : List Complaint :=
  match k.fields with
  | none => if m.params.isEmpty then [] else [.noRecord key]
  | some _ =>
    -- Of two fields tied to one attribute the later counts.
    let known : Dict Parameter := Dict.ofList (k.parameters.map fun p => (p.attr, p))
    (known.keys.filter fun attr => !m.params.contains attr).map (.undeclared key) ++
      (m.params.keys.filter fun attr => !known.contains attr).map (.unread key) ++
      m.params.entries.flatMap fun (attr, param) =>
        match known.get? attr with
        | none => []
        | some p => checkParam key param p

/-- The complaints about a manifest and its kernel. -/
def checkManifest (r : Registry) (key : Key) (m : Manifest) : List Complaint :=
  match r.kernel? key with
  | none => []
  | some k => m.precisions.flatMap (checkPrecision key k) ++ checkParams key m k

/-- All complaints about manifests, by the text of their keys. A manifest without a kernel is allowed. -/
def complaints (r : Registry) : List Complaint :=
  (r.manifests.mergeSort fun a b => a.1.text ≤ b.1.text).flatMap fun (key, m) => r.checkManifest key m

/-- Checks that manifests and kernels agree. -/
def check (r : Registry) : Except Failure Unit :=
  match r.complaints with
  | [] => .ok ()
  | cs => .error (complaintsFailure (cs.map Complaint.text))

/-! ### Nodes on a target -/

/-- What keeps a node from running on a target. -/
inductive Obstacle where
  | noKernel (node type target : String)
  | precision (node : String) (key : Key) (precision : Precision)
  | missing (node attr : String)
  | type (node attr : String) (want actual : Config.Ty)
  | unbound (node : String) (errors : List BindError)
  deriving Repr

/-- The text of an obstacle. -/
def Obstacle.text : Obstacle → String
  | noKernel node op target => s!"node '{node}': no kernel for op type '{op}' on target '{target}'"
  | precision node key p => s!"node '{node}': kernel '{key.text}' does not support precision '{p.text}'"
  | missing node attr => s!"node '{node}': missing required attribute '{attr}'"
  | type node attr want actual =>
    s!"node '{node}', attribute '{attr}': manifest requires '{want.friendlyName}' but node has " ++
      s!"'{actual.friendlyName}'"
  | unbound node errors =>
    s!"node '{node}': " ++ (bindFailure errors).text.replace "\n" "; "

/-- The obstacle that one attribute of a manifest puts before a node. -/
def checkAttr (n : Node) (attr : String) (param : Manifest.Param) : List Obstacle :=
  match n.attrs.get? attr with
  | none => if param.isOptional then [] else [.missing n.name attr]
  | some v =>
    if compatible param.type (attrType v) then [] else [.type n.name attr param.type (attrType v)]

/-- The obstacles that the manifest of a kernel, if there is one, puts before a node. -/
def checkAttrs (r : Registry) (key : Key) (n : Node) : List Obstacle :=
  match r.manifest? key with
  | none => []
  | some m => m.params.entries.flatMap fun (attr, param) => checkAttr n attr param

/-- The obstacles before a node. Inputs and outputs need no kernel; attributes that the manifest refuses are not
read. -/
def checkNode (r : Registry) (target : String) (n : Node) : List Obstacle :=
  if n.type = "Input" ∨ n.type = "Output" then []
  else
    let key : Key := ⟨n.type, target⟩
    match r.kernel? key with
    | none => [.noKernel n.name n.type target]
    | some k =>
      (if k.supports n.precision then [] else [.precision n.name key n.precision]) ++
        match r.checkAttrs key n with
        | [] =>
          match k.bind n.attrs with
          | .ok _ => []
          | .error errors => [.unbound n.name errors]
        | obstacles => obstacles

/-- Checks that nodes can run on a target. -/
def checkNodes (r : Registry) (nodes : List Node) (target : String) : Except Failure Unit :=
  match nodes.flatMap (r.checkNode target) with
  | [] => .ok ()
  | os => .error (complaintsFailure (os.map Obstacle.text))

/-! ### Defaults -/

/-- The defaults of a manifest that an operator does not set itself. -/
def missingDefaults (m : Manifest) (op : Model.Op) : List (String × Config.Value) :=
  m.params.entries.filterMap fun (attr, param) =>
    if op.attrs.contains attr then none else param.default.map fun v => (attr, v)

/-- An operator with the defaults of its manifest, and how many were added. -/
def completeOp (r : Registry) (target : String) (op : Model.Op) : Model.Op × Nat :=
  match r.manifest? ⟨op.type, target⟩ with
  | none => (op, 0)
  | some m =>
    let added := missingDefaults m op
    ({ op with attrs := added.foldl (fun d (attr, v) => d.insert attr v) op.attrs }, added.length)

/-- A model whose operators have the defaults of their manifests, and how many were added. -/
def complete (r : Registry) (m : Model) (target : String) : Model × Nat :=
  let ops := m.ops.map (r.completeOp target)
  ({ m with ops := ops.map (·.1) }, ops.foldl (fun added op => added + op.2) 0)

end Registry

end OpGraph.Kernel
