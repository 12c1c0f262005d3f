import Mathlib
import OpGraph.Proofs.Network.Freeze
import OpGraph.Proofs.Network.Landing

/-!
# Networks that can be reached

`Reached ok l n` says that calls lead to the network `n` while its library has become `l`. All names that were given to
operators, variables and patterns are free of arrows, and every operator satisfied `ok` when it was added. Such a
network is coherent, and what the steps of the engine preserve holds of its graph from the time it is frozen.
-/

namespace OpGraph

open Sandbox

variable {g : Graph} {n m : Network} {c : Setting}

/-! ### Payloads -/

/-- A node without its precision and its attributes. -/
def Node.bare (n : Node) : Node :=
  { n with precision := .fp32, attrs := {} }

/-- Nodes that differ in settings only have one name. -/
lemma Node.name_of_bare {m n : Node} (h : m.bare = n.bare) : m.name = n.name := by
  have hname := congrArg Node.name h
  exact hname

/-- Respelling a layout changes a setting only. -/
lemma bare_respelled (n : Node) : (respelled n).bare = n.bare := by
  rcases respelled_cases n with h | ⟨-, l, -, -, h⟩
  · rw [h]
  · rw [h]
    rfl

/-- Two sandboxes differ in the precisions and attributes of their nodes at most, and in the notes they keep. -/
structure Redressed (s t : Sandbox) : Prop where
  node : ∀ k, (t.node? k).map Node.bare = (s.node? k).map Node.bare
  arcsFrom : ∀ k, t.dag.arcsFrom k = s.dag.arcsFrom k
  registered : t.registered = s.registered
  ins : t.ins = s.ins
  outs : t.outs = s.outs
  merges : t.merges = s.merges

namespace Redressed

variable {s t u : Sandbox}

/-- A sandbox differs in nothing from itself. -/
lemma refl (s : Sandbox) : Redressed s s :=
  ⟨fun _ => rfl, fun _ => rfl, rfl, rfl, rfl, rfl⟩

/-- Differences in precisions and attributes add up to such differences. -/
lemma trans (h : Redressed s t) (h' : Redressed t u) : Redressed s u where
  node := fun k => (h'.node k).trans (h.node k)
  arcsFrom := fun k => (h'.arcsFrom k).trans (h.arcsFrom k)
  registered := h'.registered.trans h.registered
  ins := h'.ins.trans h.ins
  outs := h'.outs.trans h.outs
  merges := h'.merges.trans h.merges

/-- The edges are the same. -/
lemma mem_arcs (h : Redressed s t) {a : Arc Edge} : a ∈ t.dag.arcs ↔ a ∈ s.dag.arcs := by
  have ha : a ∈ t.dag.arcsFrom a.src ↔ a ∈ s.dag.arcsFrom a.src := by
    rw [h.arcsFrom]
  rwa [Digraph.mem_arcsFrom, Digraph.mem_arcsFrom, and_iff_left rfl, and_iff_left rfl] at ha

/-- The same nodes are joined. -/
lemma hasArc (h : Redressed s t) {x y : String} : t.dag.hasArc x y ↔ s.dag.hasArc x y := by
  rw [Digraph.hasArc_iff, Digraph.hasArc_iff]
  exact exists_congr fun a => and_congr_left fun _ => h.mem_arcs

/-- A node has the same name, type and variables as before. -/
lemma exists_node (h : Redressed s t) {k : String} {n : Node} (hn : t.node? k = some n) :
    ∃ m, s.node? k = some m ∧ n.bare = m.bare := by
  have hk := h.node k
  rw [hn, Option.map_some, eq_comm, Option.map_eq_some_iff] at hk
  obtain ⟨m, hm, he⟩ := hk
  exact ⟨m, hm, he.symm⟩

/-- The same nodes are there. -/
lemma mem_keys (h : Redressed s t) {k : String} : k ∈ t.dag.keys ↔ k ∈ s.dag.keys := by
  have hk := congrArg Option.isSome (h.node k)
  rw [Option.isSome_map, Option.isSome_map, Sandbox.node?, Sandbox.node?, Digraph.val?, Digraph.val?, Option.isSome_map,
    Option.isSome_map] at hk
  rw [← Digraph.hasVertex_iff, ← Digraph.hasVertex_iff, Digraph.hasVertex, Digraph.hasVertex, hk]

/-- Respelling pins changes attributes only. -/
lemma of_respells {names : List String} (h : Respells s names t) : Redressed s t where
  node := by
    intro k
    rw [Sandbox.node?, Sandbox.node?, Digraph.val?, Digraph.val?, h.vertex, Option.map_map, Option.map_map,
      Option.map_map]
    congr 1
    funext v
    show Node.bare (if k ∈ names then _ else v).val = v.val.bare
    split
    · exact bare_respelled v.val
    · rfl
  arcsFrom := fun k => by rw [Digraph.arcsFrom, Digraph.arcsFrom, h.arcs]
  registered := (moves_eq_iff.1 h.moves).1
  ins := (border_eq_iff.1 h.border).1
  outs := (border_eq_iff.1 h.border).2.1
  merges := (records_eq_iff.1 h.records).1

end Redressed

/-- The records of a copy are those of the graph. -/
lemma get?_merges_copy (hone : g.OneRecord) {f : String} {r : MergeRecord} :
    (Sandbox.copy g none).merges.get? f = some r ↔ r ∈ g.merges ∧ r.fused = f := by
  rw [Recorded.get?_copy]
  constructor
  · exact fused_of_lastRecord?
  · rintro ⟨hr, rfl⟩
    obtain ⟨r', hr'⟩ := Option.isSome_iff_exists.1 (lastRecord?_isSome.2 ⟨r, hr, rfl⟩)
    obtain ⟨hmem, he⟩ := fused_of_lastRecord? hr'
    rw [hr', hone r' hmem r hr he]

/-- A copy has the edges of each producer in their order. -/
lemma arcsFrom_copy (g : Graph) (wf : g.dag.WellFormed) (k : String) :
    (Sandbox.copy g none).dag.arcsFrom k = g.dag.outArcs k := by
  rw [Digraph.arcsFrom, arcs_copy_none, wf.filter_arcsBySource]

/-- A copy has the nodes of the graph. -/
lemma node?_copy (g : Graph) (k : String) : (Sandbox.copy g none).node? k = g.node? k := by
  have hv : (Sandbox.copy g none).dag.vertices = g.dag.vertices := List.filter_eq_self.2 fun _ _ => rfl
  rw [Sandbox.node?, Graph.node?, Digraph.val?, Digraph.val?, Digraph.vertex?, Digraph.vertex?, hv]

/-- A copy of a graph that agrees with a sandbox looks like the sandbox. -/
lemma redressed_copy {t : Sandbox} (h : Refines g t) (hg : g.Regular) (ht : t.dag.WellFormed)
    (hone : g.OneRecord) (hfused : ∀ {f r}, t.merges.get? f = some r → r.fused = f ∧ f ∈ t.dag.keys) :
    Redressed t (Sandbox.copy g none) where
  node := fun k => by rw [node?_copy, Graph.node?, Sandbox.node?, Digraph.val?, Digraph.val?, h.nodes]
  arcsFrom := fun k => by rw [arcsFrom_copy g hg.dag, h.edges, ht.outArcs_eq]
  registered := h.registered
  ins := NameSet.ext fun x => by rw [← h.ins]; exact NameSet.contains_ofList
  outs := NameSet.ext fun x => by rw [← h.outs]; exact NameSet.contains_ofList
  merges := by
    refine Dict.ext_get? fun f => Option.ext fun r => ?_
    rw [get?_merges_copy hone, h.merges]
    constructor
    · rintro ⟨⟨f', hf', -⟩, rfl⟩
      rwa [(hfused hf').1]
    · exact fun hr => ⟨⟨f, hr, Digraph.hasVertex_iff.2 (hfused hr).2⟩, (hfused hr).1⟩

namespace Graph

/-- Updating a node changes its value only. -/
lemma vertices_updateNode (g : Graph) (op : String) (f : Node → Node) :
    (g.updateNode op f).dag.vertices =
      g.dag.vertices.map fun v => if v.key = op then { v with val := f v.val } else v := rfl

/-- Updating a node leaves the names. -/
lemma keys_updateNode (g : Graph) (op : String) (f : Node → Node) : (g.updateNode op f).dag.keys = g.dag.keys := by
  rw [Digraph.keys, Digraph.keys, vertices_updateNode, List.map_map]
  refine List.map_congr_left fun v _ => ?_
  show (if v.key = op then _ else v).key = v.key
  split <;> rfl

/-- Replacing the precision and the attributes of a node. -/
lemma redressed_updateNode (g : Graph) (op : String) {f : Node → Node} (hf : ∀ v, (f v).bare = v.bare) :
    Redressed (Sandbox.copy g none) (Sandbox.copy (g.updateNode op f) none) where
  node := by
    intro k
    have hfind : (g.updateNode op f).dag.vertex? k =
        (g.dag.vertex? k).map fun v => if v.key = op then { v with val := f v.val } else v :=
      Digraph.find?_map_of_key Vertex.key _ k (fun v => by split <;> rfl) g.dag.vertices
    rw [node?_copy, node?_copy, Graph.node?, Graph.node?, Digraph.val?, Digraph.val?, hfind, Option.map_map,
      Option.map_map,
      Option.map_map]
    congr 1
    funext v
    show Node.bare (if v.key = op then _ else v).val = v.val.bare
    split
    · exact hf v.val
    · rfl
  arcsFrom := by
    intro k
    rw [Digraph.arcsFrom, Digraph.arcsFrom, arcs_copy_none, arcs_copy_none, Digraph.arcsBySource, Digraph.arcsBySource,
      keys_updateNode]
    rfl
  registered := rfl
  ins := rfl
  outs := rfl
  merges := rfl

/-- Updating a node keeps a graph well-formed if the node keeps its name. -/
lemma WellFormed.updateNode (wf : g.WellFormed) (op : String) {f : Node → Node}
    (hf : ∀ v, (f v).name = v.name) : (g.updateNode op f).WellFormed := by
  refine ⟨wf.dag.of_shape ⟨keys_updateNode g op f, rfl, rfl, rfl, rfl⟩, fun v hv => ?_⟩
  rw [vertices_updateNode, List.mem_map] at hv
  obtain ⟨w, hw, rfl⟩ := hv
  split
  · exact (hf w.val).trans (wf.named w hw)
  · exact wf.named w hw

/-- Updating a node leaves which nodes are there. -/
lemma hasNode_updateNode (g : Graph) (op : String) (f : Node → Node) (k : String) :
    (g.updateNode op f).hasNode k ↔ g.hasNode k := by
  rw [hasNode, hasNode, Digraph.hasVertex_iff, Digraph.hasVertex_iff, keys_updateNode]

/-- Updating a node leaves a graph sound. -/
lemma Sound.updateNode (h : g.Sound) (op : String) (f : Node → Node) : (g.updateNode op f).Sound where
  payload := h.payload
  registered := h.registered
  ins := fun k hk => (hasNode_updateNode g op f k).2 (h.ins k hk)
  outs := fun k hk => (hasNode_updateNode g op f k).2 (h.outs k hk)
  merges := fun r hr => (hasNode_updateNode g op f r.fused).2 (h.merges r hr)
  acyclic := h.acyclic

end Graph

namespace Network

/-! ### Settings -/

/-- What can be set of a network at any time. -/
inductive Setting where
  | attr (op name : String) (literal : Attribute.Literal)
  | precision (op precision : String)
  | layout (src dst layout : String)
  | varScale (var : String) (scale : Float32)
  | weightsScale (op : String) (scales : List Float32) (isBias : Bool)

/-- Makes a setting. -/
def set (n : Network) : Setting → Except Error Network
  | .attr op name literal => n.setAttr op name literal
  | .precision op precision => n.setPrecision op precision
  | .layout src dst layout => n.setLayout src dst layout
  | .varScale var scale => n.setVarScale var scale
  | .weightsScale op scales isBias => n.setWeightsScale op scales isBias

/-- What succeeds as an operation of a network succeeds. -/
lemma failing_ok {α : Type} {op : Operation} {x : Except Cause α} {a : α} (h : failing op x = .ok a) : x = .ok a := by
  unfold failing at h
  split at h
  · cases h
    rfl
  · cases h

/-- What a setting makes of a network. -/
inductive Sets (n : Network) : Setting → Network → Prop where
  | attr {op name : String} {literal : Attribute.Literal} {v : Attribute.Value} {node : Node} {attrs : Attribute.Store}
      (hv : literal.toValue = .ok v) (hn : n.graph.node? op = some node)
      (hs : Attribute.Store.set node.attrs name v = .ok attrs) :
      Sets n (.attr op name literal)
        { n with graph := n.graph.updateNode op fun node => { node with attrs }, epoch := n.epoch + 1 }
  | precision {op text : String} {precision : Precision} (hp : Precision.parse text = .ok precision)
    (hn : n.graph.hasNode op) :
      Sets n (.precision op text)
        { n with graph := n.graph.updateNode op fun node => { node with precision }, epoch := n.epoch + 1 }
  | layout {src dst text : String} {l : Layout} {calibration : Calibration} (hl : Layout.parse text = .ok l)
      (hs : n.calibration.setLayout (.arc src dst) l = .ok calibration) (he : n.graph.dag.hasArc src dst) :
      Sets n (.layout src dst text) { n with calibration }
  | pending (var : String) (scale : Float32) (hs : n.state = .building) :
      Sets n (.varScale var scale) { n with build := { n.build with varScales := n.build.varScales ++ [(var, scale)] } }
  | varScale {var : String} {scale : Float32} {calibration : Calibration}
      (hs : scaleVar n.graph n.calibration var scale = .ok calibration) : Sets n (.varScale var scale)
      { n with calibration }
  | weightsScale {op : String} {scales : List Float32} {isBias : Bool} {calibration : Calibration}
    (hn : n.graph.hasNode op)
      (hs : n.calibration.setScale (.weights op isBias) scales isBias = .ok calibration) :
      Sets n (.weightsScale op scales isBias) { n with calibration }

/-- A setting makes of a network what it should. -/
lemma sets_set (h : n.set c = .ok m) : Sets n c m := by
  cases c with
  | attr op name literal =>
    have h := failing_ok h
    split at h
    · cases h
    · split at h
      · cases h
      · split at h
        · cases h
        · cases h
          exact .attr ‹_› ‹_› ‹_›
  | precision op precision =>
    have h := failing_ok h
    split at h
    · cases h
    · split at h
      · cases h
      · rename_i hn
        cases h
        exact .precision ‹_› (by simpa using hn)
  | layout src dst layout =>
    have h := failing_ok h
    split at h
    · cases h
    · split_ifs at h with hnone
      · cases h
      · have hedge : n.graph.dag.hasArc src dst := by simpa [Graph.edge?, Digraph.hasArc,
          Option.isSome_iff_ne_none] using hnone
        split at h
        · cases h
          exact .layout ‹_› ‹_› hedge
        · cases h
  | varScale var scale =>
    unfold set setVarScale at h
    dsimp only at h
    split at h
    · cases h
      exact .pending var scale ‹_›
    · obtain ⟨c, hc, h⟩ := bind_eq_ok.1 (failing_ok h)
      cases h
      exact .varScale hc
  | weightsScale op scales isBias =>
    have h := failing_ok h
    split_ifs at h with hn
    · cases h
    · split at h
      · cases h
        exact .weightsScale (by simpa using hn) ‹_›
      · cases h

/-- A setting replaces the precision or the attributes of a node in a new epoch, or it leaves the graph and the epoch as
they are. -/
lemma set_cases (h : n.set c = .ok m) : (∃ op f, (∀ v : Node, (f v).bare = v.bare) ∧
      m = { n with graph := n.graph.updateNode op f, epoch := n.epoch + 1 }) ∨
    ∃ calibration varScales, m = { n with calibration, build := { n.build with varScales } } := by
  cases sets_set h with
  | @attr op => exact .inl ⟨op, _, fun _ => by exact rfl, rfl⟩
  | @precision op => exact .inl ⟨op, _, fun _ => by exact rfl, rfl⟩
  | layout => exact .inr ⟨_, _, rfl⟩
  | pending => exact .inr ⟨_, _, rfl⟩
  | varScale => exact .inr ⟨_, _, rfl⟩
  | weightsScale => exact .inr ⟨_, _, rfl⟩

/-- A setting leaves the layouts as they are or records one for an edge. -/
lemma layouts_set (h : n.set c = .ok m) :
    m.calibration.layouts = n.calibration.layouts ∨ ∃ src dst l, n.graph.dag.hasArc src dst ∧
      m.calibration.layouts = n.calibration.layouts.insert (EdgeId.arc src dst) l := by
  cases sets_set h with
  | attr => exact .inl rfl
  | precision => exact .inl rfl
  | @layout src dst _ l _ _ hs hedge => exact .inr ⟨src, dst, l, hedge, by rw [Calibration.setLayout_ok hs]⟩
  | pending => exact .inl rfl
  | varScale hs => exact .inl (layouts_scaleVar hs)
  | weightsScale _ hs => exact .inl (by rw [Calibration.setScale_ok hs])

/-- An operator can be added to a network that is built, and its node is inserted. -/
lemma addOp_ok {name type : String} {inputs outputs : List String} (h : n.addOp name type inputs outputs = .ok m) :
    n.state = .building ∧ ∃ graph, n.graph.insertNode { name, type, inputs, outputs } = .ok graph ∧
    m = { n with graph } := by
  have h := failing_ok h
  by_cases hs : n.state = .building
  · rw [if_neg (not_not.2 hs)] at h
    by_cases ht : type = ""
    · rw [if_pos ht] at h
      cases h
    · rw [if_neg ht] at h
      dsimp only at h
      split at h
      · rename_i graph hg
        cases h
        exact ⟨hs, graph, hg, rfl⟩
      · cases h
  · rw [if_pos hs] at h
    cases h

/-- A variable can be declared of a network that is built, if it has a name. -/
lemma declareVar_ok {var : String} (h : n.declareVar var = .ok m) :
    n.state = .building ∧ var ≠ "" ∧ m = { n with build := { n.build with vars := n.build.vars ++ [var] } } := by
  have h := failing_ok h
  by_cases hs : n.state ≠ .building
  · rw [if_pos hs] at h
    cases h
  · by_cases hv : var = ""
    · rw [if_neg hs, if_pos hv] at h
      cases h
    · by_cases hc : n.build.vars.contains var
      · rw [if_neg hs, if_neg hv, if_pos hc] at h
        cases h
      · rw [if_neg hs, if_neg hv, if_neg hc] at h
        cases h
        exact ⟨not_not.1 hs, hv, rfl⟩

/-! ### Reached networks -/

/-- The networks that calls lead to, each with its library. -/
inductive Reached (ok : Node → Prop) : Library → Network → Prop where
  | new {l : Library} (hl : l.ArrowFree) (name : String) (library : LibraryRef) (epoch : Nat) (cap : Int)
      (elide : Option (List String)) : Reached ok l { Network.new name library with epoch, cap, elide }
  | addOp {l : Library} {n m : Network} {name type : String} {inputs outputs : List String} (h : Reached ok l n)
      (haf : ArrowFree name) (hok : ok { name, type, inputs, outputs })
      (he : n.addOp name type inputs outputs = .ok m) : Reached ok l m
  | declareVar {l : Library} {n m : Network} {var : String} (h : Reached ok l n) (haf : ArrowFree var)
      (hok : ok (inputNode var)) (he : n.declareVar var = .ok m) : Reached ok l m
  | declareOut {l : Library} {n m : Network} {src dst : String} (h : Reached ok l n)
    (he : n.declareOut src dst = .ok m) :
      Reached ok l m
  | declareAllOuts {l : Library} {n m : Network} (h : Reached ok l n) (he : n.declareAllOuts = .ok m) : Reached ok l m
  | set {l : Library} {n m : Network} {c : Setting} (h : Reached ok l n) (he : n.set c = .ok m) : Reached ok l m
  | refer {l : Library} {n : Network} (h : Reached ok l n) (blocks : List BlockRef) : Reached ok l { n with blocks }
  | register {l l' : Library} {n : Network} {p : Pattern} (h : Reached ok l n) (haf : ArrowFree p.name)
      (he : l.register p = .ok l') : Reached ok l' n
  | relocate {l : Library} {n : Network} (h : Reached ok l n) (library : LibraryRef) (epoch : Nat) :
      Reached ok l { n with library, epoch }
  | freeze {l : Library} {n m : Network} (h : Reached ok l n) (he : n.freeze = .ok m) : Reached ok l m
  | optimize {l : Library} {n : Network} (h : Reached ok l n) (fusion : Bool) (ord : RenameOrder) :
      Reached ok l (n.optimize l fusion ord).1

/-- What holds of every network that is reached. -/
structure Coherent (ok : Node → Prop) (l : Library) (n : Network) : Prop where
  library : l.ArrowFree
  wellFormed : n.graph.WellFormed
  arrowFree : ∀ name ∈ n.graph.names, ArrowFree name
  oneRecord : n.graph.OneRecord
  vars : ∀ var ∈ n.build.vars, ArrowFree var ∧ ok (inputNode var)
  unjoined : n.state = .building → n.graph.dag.arcs = [] ∧ n.graph.merges = [] ∧
    ∀ {k v}, n.graph.node? k = some v → ok v.bare
  sound : n.state ≠ .building → n.graph.Sound

namespace Coherent

variable {ok : Node → Prop} {l : Library} {n m : Network}

/-- The graph of a network that is no longer built is regular. -/
lemma regular (h : Coherent ok l n) (hs : n.state ≠ .building) : n.graph.Regular :=
  ⟨h.wellFormed, h.sound hs, h.arrowFree⟩

/-- A new network is coherent. -/
lemma new (hl : l.ArrowFree) (name : String) (library : LibraryRef) (epoch : Nat) (cap : Int)
    (elide : Option (List String)) : Coherent ok l { Network.new name library with epoch, cap, elide } where
  library := hl
  wellFormed := ⟨Digraph.wellFormed_empty, List.forall_mem_nil _⟩
  arrowFree := List.forall_mem_nil _
  oneRecord := by simp [Network.new, Graph.OneRecord]
  vars := by simp [Network.new]
  unjoined := fun _ => ⟨rfl, rfl, fun h => by cases h⟩
  sound := fun h => absurd rfl h

/-- Adding an operator keeps a network coherent. -/
lemma addOp (h : Coherent ok l n) {name type : String} {inputs outputs : List String} (haf : ArrowFree name)
    (hok : ok { name, type, inputs, outputs }) (he : n.addOp name type inputs outputs = .ok m) : Coherent ok l m := by
  obtain ⟨hs, graph, hg, rfl⟩ := addOp_ok he
  have hwf := h.wellFormed.insertNode hg
  obtain ⟨dag, hdag, rfl⟩ := Graph.insertNode_ok hg
  refine ⟨h.library, hwf, fun k hk => ?_, h.oneRecord, h.vars, fun hb => ?_, fun hb => absurd hs hb⟩
  · rcases (Digraph.mem_keys_addVertexAt hdag).1 hk with rfl | hk
    · exact haf
    · exact h.arrowFree k hk
  · obtain ⟨harcs, hmerges, hnodes⟩ := h.unjoined hb
    refine ⟨(Digraph.arcs_addVertexAt hdag).trans harcs, hmerges, fun {k v} hv => ?_⟩
    obtain ⟨w, hw, rfl⟩ := Option.map_eq_some_iff.1 hv
    rw [Digraph.vertex?_addVertexAt hdag] at hw
    split at hw
    · cases hw
      exact hok
    · exact hnodes (Option.map_eq_some_iff.2 ⟨w, hw, rfl⟩)

/-- Declaring a variable keeps a network coherent. -/
lemma declareVar (h : Coherent ok l n) {var : String} (haf : ArrowFree var) (hok : ok (inputNode var))
    (he : n.declareVar var = .ok m) : Coherent ok l m := by
  obtain ⟨-, -, rfl⟩ := declareVar_ok he
  refine { h with vars := fun w hw => ?_ }
  rcases List.mem_append.1 hw with hw | hw
  · exact h.vars w hw
  · rw [List.mem_singleton.1 hw]
    exact ⟨haf, hok⟩

/-- Declaring an output keeps a network coherent. -/
lemma declareOut (h : Coherent ok l n) {src dst : String} (he : n.declareOut src dst = .ok m) : Coherent ok l m := by
  have he := failing_ok he
  split_ifs at he
  · cases he
  · cases he
    exact { h with }

/-- Declaring all outputs keeps a network coherent. -/
lemma declareAllOuts (h : Coherent ok l n) (he : n.declareAllOuts = .ok m) : Coherent ok l m := by
  have he := failing_ok he
  split_ifs at he
  · cases he
  · cases he
    exact { h with }

/-- Replacing the precision and the attributes of a node keeps a network coherent. -/
lemma updateNode (h : Coherent ok l n) (op : String) {f : Node → Node} (hf : ∀ v, (f v).bare = v.bare) (epoch : Nat) :
    Coherent ok l { n with graph := n.graph.updateNode op f, epoch } where
  library := h.library
  wellFormed := h.wellFormed.updateNode op fun v => Node.name_of_bare (hf v)
  arrowFree := by
    intro k hk
    rw [Graph.names, Graph.keys_updateNode] at hk
    exact h.arrowFree k hk
  oneRecord := h.oneRecord
  vars := h.vars
  unjoined := by
    intro hb
    obtain ⟨harcs, hmerges, hnodes⟩ := h.unjoined hb
    refine ⟨harcs, hmerges, fun {k v} hv => ?_⟩
    obtain ⟨w, hw, he⟩ := (Graph.redressed_updateNode n.graph op hf).exists_node ((node?_copy _ k).trans hv)
    rw [he]
    exact hnodes ((node?_copy _ k).symm.trans hw)
  sound := fun hs => (h.sound hs).updateNode op f

/-- A setting keeps a network coherent. -/
lemma set (h : Coherent ok l n) (he : n.set c = .ok m) : Coherent ok l m := by
  rcases set_cases he with ⟨op, f, hf, rfl⟩ | ⟨calibration, varScales, rfl⟩
  · exact h.updateNode op hf _
  · exact { h with }

/-- A pattern that was registered is added to the others. -/
lemma mem_register {l' : Library} {p q : Pattern} (he : l.register p = .ok l') :
    q ∈ l'.patterns ↔ q ∈ l.patterns ∨ q = p := by
  obtain ⟨-, he⟩ := bind_unit_eq_ok.1 he
  split_ifs at he
  · cases he
  · cases he
    rw [List.mem_append, List.mem_singleton]

/-- Registering a pattern keeps a network coherent. -/
lemma register {l' : Library} (h : Coherent ok l n) {p : Pattern} (haf : ArrowFree p.name)
    (he : l.register p = .ok l') :
    Coherent ok l' n := by
  refine { h with library := fun q hq => ?_ }
  rcases (mem_register he).1 hq with hq | rfl
  · exact h.library q hq
  · exact haf

/-- Freezing a coherent network makes its frozen graph. -/
lemma frozen (h : Coherent ok l n) (he : n.freeze = .ok m) :
    n.state = .building ∧ m.state = .frozen ∧ m.build = {} ∧ Frozen n m.graph :=
  freeze_ok he h.wellFormed fun hs => (h.unjoined hs).1

/-- Freezing keeps a network coherent. -/
lemma freeze (h : Coherent ok l n) (he : n.freeze = .ok m) : Coherent ok l m := by
  obtain ⟨hs, hstate, hbuild, hf⟩ := h.frozen he
  obtain ⟨-, hmerges, -⟩ := h.unjoined hs
  refine ⟨h.library, hf.wellFormed, fun k hk => ?_, ?_, ?_, fun hb => ?_, fun _ => hf.sound⟩
  · obtain ⟨v, hv⟩ := Digraph.hasVertex_iff_exists.1 (Digraph.hasVertex_iff.2 hk)
    have hnode : m.graph.node? k = some v.val := Option.map_eq_some_iff.2 ⟨v, hv, rfl⟩
    rcases hf.nodes hnode with hnode' | ⟨var, hvar, he⟩
    · obtain ⟨w, hw, -⟩ := Option.map_eq_some_iff.1 hnode'
      exact h.arrowFree k (Digraph.hasVertex_iff.1 (Digraph.hasVertex_iff_exists.2 ⟨w, hw⟩))
    · rw [← hf.wellFormed.name_of_node? hnode, he]
      exact (h.vars var hvar).1
  · rw [Graph.OneRecord, hf.merges, hmerges]
    exact List.forall_mem_nil _
  · rw [hbuild]
    exact List.forall_mem_nil _
  · rw [hstate] at hb
    cases hb

/-- A network keeps all that a graph with the same nodes, edges and records has. -/
lemma settled (h : Coherent ok l n) (hs : n.state ≠ .building) (hg : g.Regular) (hone : g.OneRecord)
    (c : Calibration) (order : List String) (stats : Stats) (fusion : Bool) :
    Coherent ok l (n.settled g c order stats fusion) := by
  cases fusion with
  | true =>
    exact ⟨h.library, ⟨hg.wellFormed.dag, hg.wellFormed.named⟩, hg.arrowFree, hone, h.vars,
      fun hb => (by cases hb), fun _ =>
      ⟨hg.sound.payload, hg.sound.registered, hg.sound.ins, hg.sound.outs, hg.sound.merges, hg.sound.acyclic⟩⟩
  | false => exact ⟨h.library, hg.wellFormed, hg.arrowFree, hone, h.vars, fun hb => absurd hb hs, fun _ => hg.sound⟩

/-- Optimizing keeps a network coherent. -/
lemma optimize (h : Coherent ok l n) (fusion : Bool) (ord : RenameOrder) :
    Coherent ok l (n.optimize l fusion ord).1 := by
  have ho := optimizes_optimize h.regular h.library fusion ord
  generalize n.optimize l fusion ord = r at ho
  cases ho with
  | unfrozen _ => exact h
  | diverges _ _ _ => exact h
  | lands hs _ hl =>
    cases hl with
    | illegible _ => exact h
    | stale _ _ => exact h
    | aborted _ _ _ _ => exact h
    | done _ hl _ _ _ => exact h.settled hs hl.regular (hl.oneRecord h.oneRecord) _ _ _ _

end Coherent

variable {ok : Node → Prop} {l : Library} {n : Network}

/-- Every network that is reached is coherent. -/
lemma Reached.coherent (h : Reached ok l n) : Coherent ok l n := by
  induction h with
  | new hl name library epoch cap elide => exact .new hl name library epoch cap elide
  | addOp _ haf hok he ih => exact ih.addOp haf hok he
  | declareVar _ haf hok he ih => exact ih.declareVar haf hok he
  | declareOut _ he ih => exact ih.declareOut he
  | declareAllOuts _ he ih => exact ih.declareAllOuts he
  | set _ he ih => exact ih.set he
  | refer _ blocks ih => exact { ih with }
  | register _ haf he ih => exact ih.register haf he
  | relocate _ library epoch ih => exact { ih with }
  | freeze _ he ih => exact ih.freeze he
  | optimize _ fusion ord ih => exact ih.optimize fusion ord

/-! ### What optimizations preserve -/

/-- What the steps of the engine preserve, whatever precisions and attributes are. -/
structure Persistent (J : Library → Sandbox → Prop) : Prop where
  mono : ∀ {l l' : Library} {s : Sandbox}, (∀ p ∈ l.patterns, p ∈ l'.patterns) → J l s → J l' s
  redressed : ∀ {l : Library} {s t : Sandbox}, Redressed s t → J l s → J l t
  effect : ∀ {l : Library} {e : Engine} {g : Graph} {s t : Sandbox}, (∀ p ∈ e.patterns, p ∈ l.patterns) →
    Edited g (Sandbox.copy g none) s → Edited g (Sandbox.copy g none) t → e.Effect s t → J l s → J l t

/-- What a sandbox has, the graph has after a commit. -/
lemma Landing.redressed {d : Draft} {t : Sandbox} {layouts : Dict Layout} (h : Landing n d t layouts g)
    (hone : n.graph.OneRecord) : Redressed d.sandbox (Sandbox.copy g none) := by
  refine (Redressed.of_respells h.normalized.respells).trans
    (redressed_copy (h.refines hone) h.regular h.edited.tracks.wellFormed (h.oneRecord hone) fun {f r} hr => ?_)
  refine ⟨fused_of_mergeRecord? h.edited hr, ?_⟩
  by_contra hno
  refine h.whole (.inr (.inr ⟨f, Dict.mem_keys.2 (Dict.contains_iff.2 ⟨r, hr⟩), fun hk => ?_⟩))
  exact hno ((keeps_iff_live h.edited).1 hk)

namespace Persistent

variable {J : Library → Sandbox → Prop}

/-- What steps preserve holds of the sandbox of a draft. -/
lemma drafted (hJ : Persistent J) {fusion : Bool} {d : Draft} (hg : n.graph.Regular) (hl : l.ArrowFree)
    (hd : Drafted n l fusion d) (h : J l (Sandbox.copy n.graph none)) : J l d.sandbox := by
  obtain ⟨trace, hruns, -⟩ := hd.runs
  exact (hruns.induct_effect (P := J l) (Edited.copy hg none) (arrowFree_engine hl n) h
    fun s t hs ht hp heff => hJ.effect (fun p hp => Library.mem_byPriority.1 hp) hs ht heff hp).2

/-- An optimization preserves it. -/
lemma optimize (hJ : Persistent J) (hc : Coherent ok l n) (hs : n.state ≠ .building) (fusion : Bool) (ord : RenameOrder)
    (h : J l (Sandbox.copy n.graph none)) : J l (Sandbox.copy (n.optimize l fusion ord).1.graph none) := by
  have ho := optimizes_optimize hc.regular hc.library fusion ord
  generalize n.optimize l fusion ord = r at ho
  cases ho with
  | unfrozen _ => exact h
  | diverges _ _ _ => exact h
  | lands _ hd hl =>
    cases hl with
    | illegible _ => exact h
    | stale _ _ => exact h
    | aborted _ _ _ _ => exact h
    | done _ hl _ _ _ =>
      have hland := hJ.redressed (hl.redressed hc.oneRecord) (hJ.drafted (hc.regular hs) hc.library hd h)
      cases fusion <;> exact hland

/-- It holds of every network from the time it was frozen, if it does at that time. -/
lemma reached (hJ : Persistent J)
    (frozen : ∀ {l n m}, Coherent ok l n → n.freeze = .ok m → J l (Sandbox.copy m.graph none))
    (h : Reached ok l n) (hs : n.state ≠ .building) : J l (Sandbox.copy n.graph none) := by
  induction h with
  | new hl name library epoch cap elide => exact absurd rfl hs
  | addOp _ haf hok he ih =>
    obtain ⟨hb, g, -, rfl⟩ := addOp_ok he
    exact absurd hb hs
  | declareVar _ haf hok he ih =>
    obtain ⟨-, -, rfl⟩ := declareVar_ok he
    exact ih hs
  | declareOut _ he ih =>
    have he := failing_ok he
    split_ifs at he
    · cases he
    · cases he
      exact ih hs
  | declareAllOuts _ he ih =>
    have he := failing_ok he
    split_ifs at he
    · cases he
    · cases he
      exact ih hs
  | set _ he ih =>
    rcases set_cases he with ⟨op, f, hf, rfl⟩ | ⟨calibration, varScales, rfl⟩
    · exact hJ.redressed (Graph.redressed_updateNode _ op hf) (ih hs)
    · exact ih hs
  | refer _ blocks ih => exact ih hs
  | register _ haf he ih => exact hJ.mono (fun q hq => (Coherent.mem_register he).2 (.inl hq)) (ih hs)
  | relocate _ library epoch ih => exact ih hs
  | freeze h he ih => exact frozen h.coherent he
  | optimize h fusion ord ih =>
    rename_i n
    by_cases hb : n.state = .building
    · rw [Network.optimize, draft, if_pos hb] at hs
      exact absurd hb hs
    · exact hJ.optimize h.coherent hb fusion ord (ih hb)

end Persistent

/-! ### Networks of given operators -/

/-- The network after operators were declared, and outputs between them; what can not be declared is left out. -/
def declare (n : Network) (ops : List Node) (outs : List (String × String)) : Network :=
  outs.foldl (fun n out => (n.declareOut out.1 out.2).toOption.getD n)
    (ops.foldl (fun n v => (n.addOp v.name v.type v.inputs v.outputs).toOption.getD n) n)

/-- The network of given operators and outputs, frozen if it can be. -/
def assemble (ops : List Node) (outs : List (String × String)) : Network :=
  (((new "net" 0).declare ops outs).freeze).toOption.getD ((new "net" 0).declare ops outs)

/-- The network after settings were made; those that fail are left out. -/
def adjust (n : Network) (cs : List Setting) : Network :=
  cs.foldl (fun n c => (n.set c).toOption.getD n) n

section Assemble

variable {ok : Node → Prop} {l : Library} {n : Network}

/-- A call that leads from a reached network to a reached one may fail. -/
lemma Reached.getD {x : Except Error Network} (h : Reached ok l n) (hx : ∀ m, x = .ok m → Reached ok l m) :
    Reached ok l (x.toOption.getD n) := by
  cases x with
  | error e => exact h
  | ok m => exact hx m rfl

/-- A network with declared outputs can be reached. -/
lemma Reached.declareOuts (h : Reached ok l n) (outs : List (String × String)) :
    Reached ok l (outs.foldl (fun n out => (n.declareOut out.1 out.2).toOption.getD n) n) := by
  induction outs generalizing n with
  | nil => exact h
  | cons out outs ih => exact ih (h.getD fun _ he => h.declareOut he)

/-- A network with declared operators and outputs can be reached. -/
lemma Reached.declare (h : Reached ok l n) {ops : List Node} (hops : ∀ v ∈ ops, ArrowFree v.name ∧ ok v.bare)
    (outs : List (String × String)) : Reached ok l (n.declare ops outs) := by
  induction ops generalizing n with
  | nil => exact h.declareOuts outs
  | cons v ops ih =>
    obtain ⟨haf, hok⟩ := hops v List.mem_cons_self
    exact ih (h.getD fun _ he => h.addOp haf hok he) fun w hw => hops w (List.mem_cons_of_mem v hw)

/-- A network with adjusted settings can be reached. -/
lemma Reached.adjust (h : Reached ok l n) (cs : List Setting) : Reached ok l (n.adjust cs) := by
  induction cs generalizing n with
  | nil => exact h
  | cons c cs ih => exact ih (h.getD fun _ he => h.set he)

variable {ops : List Node} (hl : l.ArrowFree) (hops : ∀ v ∈ ops, ArrowFree v.name ∧ ok v.bare)
  (outs : List (String × String))
include hl hops

/-- A network that is declared from scratch can be reached. -/
lemma reached_declare : Reached ok l ((new "net" 0).declare ops outs) :=
  (Reached.new hl "net" 0 0 Engine.standardCap none).declare hops outs

/-- A network that is assembled can be reached. -/
lemma reached_assemble : Reached ok l (assemble ops outs) :=
  (reached_declare hl hops outs).getD fun _ he => (reached_declare hl hops outs).freeze he

end Assemble

/-- Two chains that can be fused. The second one reads what the first one writes at two places: its last operator takes
a shortcut past the one in the middle. -/
def shortcut : List Node := [
  { name := "h", type := "conv", outputs := ["h0"] },
  { name := "t", type := "conv", outputs := ["t0"] },
  { name := "u", type := "relu", inputs := ["t0"], outputs := ["u0", "u1"] },
  { name := "a", type := "batchnorm", inputs := ["h0", "u0"], outputs := ["a0"] },
  { name := "b", type := "relu", inputs := ["a0", "u1"], outputs := ["b0"] },
  { name := "z", type := "softmax", inputs := ["b0"] }]

/-- The network of `shortcut` can be reached. -/
lemma reached_shortcut (outs : List (String × String)) : Reached (fun _ => True) .standard (assemble shortcut outs) :=
  reached_assemble (by decide) (by decide) outs

/-- A chain that can be fused, whose last two operators read two variables of an operator that stays. -/
def sideInput : List Node := [
  { name := "h", type := "conv", outputs := ["h0"] },
  { name := "u", type := "dense", outputs := ["u0", "u1"] },
  { name := "a", type := "batchnorm", inputs := ["h0", "u0"], outputs := ["a0"] },
  { name := "b", type := "relu", inputs := ["a0", "u1"], outputs := ["b0"] },
  { name := "z", type := "softmax", inputs := ["b0"] }]

end Network

end OpGraph
