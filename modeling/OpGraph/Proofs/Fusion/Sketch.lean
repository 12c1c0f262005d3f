import Mathlib
import OpGraph.Proofs.Fusion.Attributes

/-!
# Sketches of sandboxes

The sketch of a sandbox leaves out the version it was taken from and the values of all attributes. No edit reads more
than the sketch, but for the values that a merge passes on, so the engine does the same to sandboxes with the same
sketch.
-/

namespace OpGraph

/-! ### Payloads -/

/-- The vertex with another payload. -/
def Vertex.dress {α : Type} (f : α → α) (v : Vertex α) : Vertex α :=
  { v with val := f v.val }

namespace Digraph

variable {α β : Type} (f : α → α)

/-- The graph with other payloads at its vertices. -/
def dress (g : Digraph α β) : Digraph α β :=
  { g with vertices := g.vertices.map (Vertex.dress f) }

variable (g : Digraph α β)

/-- Dressing vertices leaves their names. -/
@[simp] lemma keys_dress : (g.dress f).keys = g.keys := by
  rw [keys, dress, List.map_map]
  rfl

/-- Looking up a dressed vertex dresses the one that is looked up. -/
lemma vertex?_dress (k : String) : (g.dress f).vertex? k = (g.vertex? k).map (Vertex.dress f) :=
  find?_map_of_key Vertex.key (Vertex.dress f) k (fun _ => rfl) g.vertices

/-- Dressing vertices leaves which of them are there. -/
@[simp] lemma hasVertex_dress (k : String) : (g.dress f).hasVertex k = g.hasVertex k := by
  rw [hasVertex, hasVertex, vertex?_dress, Option.isSome_map]

/-- The value of a dressed vertex is the dressed value. -/
@[simp] lemma val?_dress (k : String) : (g.dress f).val? k = (g.val? k).map f := by
  rw [val?, val?, vertex?_dress, Option.map_map, Option.map_map]
  rfl

/-- Dressing vertices leaves their numbers. -/
@[simp] lemma seq?_dress (k : String) : (g.dress f).seq? k = g.seq? k := by
  rw [seq?, seq?, vertex?_dress, Option.map_map]
  rfl

/-- Dressing vertices leaves the paths between them. -/
@[simp] lemma reachable_dress (src dst : String) : (g.dress f).reachable src dst = g.reachable src dst := by
  rw [reachable, reachable, reachableFrom, reachableFrom, keys_dress]
  rfl

/-- Dressing vertices leaves the names and the arcs. -/
lemma topology_dress : (g.dress f).topology = g.topology := by
  rw [topology, topology, keys_dress]
  rfl

/-- An arc is removed whatever the payloads of the vertices are. -/
lemma dropArc_dress (src dst : String) : (g.dress f).dropArc src dst = (g.dropArc src dst).dress f := by
  have harc : (g.dress f).hasArc src dst = g.hasArc src dst := rfl
  rw [dropArc, dropArc, harc]
  split <;> rfl

/-- The arcs at a vertex are removed whatever the payloads of the vertices are. -/
lemma isolate_dress (k : String) : (g.dress f).isolate k = (g.isolate k).dress f := by
  have hpreds : (g.dress f).preds k = g.preds k := rfl
  rw [isolate, isolate, hpreds, List.foldl_hom (dress f) fun g src => g.dropArc_dress f src k]
  exact List.foldl_hom (dress f) fun g dst => g.dropArc_dress f k dst

/-- Vertices can be dropped before or after dressing. -/
lemma dropVertex_dress (k : String) : (g.dress f).dropVertex k = (g.dropVertex k).dress f := by
  rw [dropVertex, dropVertex, isolate_dress, dress, dress, List.filter_map]
  rfl

/-- Vertices can be removed before or after dressing. -/
lemma removeVertex_dress (k : String) :
    (g.dress f).removeVertex k = (g.removeVertex k).map fun p => (p.1.dress f, p.2) := by
  rw [removeVertex, removeVertex, hasVertex_dress, dropVertex_dress]
  split <;> rfl

/-- Arcs can be added before or after dressing. -/
lemma addArc_dress (src dst : String) (e : β) : (g.dress f).addArc src dst e = (g.addArc src dst e).map (dress f) := by
  have harc : (g.dress f).hasArc src dst = g.hasArc src dst := rfl
  rw [addArc, addArc, hasVertex_dress, hasVertex_dress, harc, reachable_dress]
  split_ifs <;> rfl

/-- Vertices can be set before or after dressing. -/
lemma setVertex_dress (k : String) (v : α) : (g.dress f).setVertex k (f v) = (g.setVertex k v).map (dress f) := by
  rw [setVertex, setVertex, hasVertex_dress]
  split
  · simp only [Except.map, dress, List.map_map, Except.ok.injEq, mk.injEq, and_true]
    refine List.map_congr_left fun w _ => ?_
    have hkey : (w.dress f).key = w.key := rfl
    simp only [Function.comp_apply, hkey]
    split <;> rfl
  · rfl

/-- Vertices can be placed before or after dressing. -/
lemma map_place (v : Vertex α) (vs : List (Vertex α)) :
    place (v.dress f) (vs.map (Vertex.dress f)) = (place v vs).map (Vertex.dress f) := by
  induction vs with
  | nil => rfl
  | cons w ws ih =>
    have hseq : (v.dress f).seq = v.seq ∧ (w.dress f).seq = w.seq := ⟨rfl, rfl⟩
    simp only [place, List.map_cons, ih, hseq]
    split <;> rfl

/-- Vertices can be added before or after dressing. -/
lemma addVertexAt_dress (k : String) (v : α) (seq : UInt64) :
    (g.dress f).addVertexAt k (f v) seq = (g.addVertexAt k v seq).map (dress f) := by
  rw [addVertexAt, addVertexAt, hasVertex_dress]
  split
  · rfl
  · simp only [Except.map, dress, Except.ok.injEq, mk.injEq]
    exact ⟨map_place f ⟨k, v, seq⟩ g.vertices, trivial, trivial, trivial, trivial, rfl⟩

/-- A graph that is made from lists has the payloads of the vertices it is made from. -/
lemma dress_ofArcs (vertices : List (Vertex α)) (arcs : List (Arc β)) (nextSeq : UInt64) :
    (ofArcs vertices arcs nextSeq).dress f = ofArcs (vertices.map (Vertex.dress f)) arcs nextSeq := by
  simp only [ofArcs, dress, List.map_map]
  rfl

/-- The vertices with other payloads, found by their keys. -/
lemma WellFormed.vertices_dress {g : Digraph α β} (wf : g.WellFormed) :
    (g.dress f).vertices = g.keys.filterMap (g.dress f).vertex? := by
  have hfind : ∀ v ∈ g.vertices, (some ∘ Vertex.dress f) v = ((g.dress f).vertex? ∘ Vertex.key) v := by
    intro v hv
    rw [Function.comp_apply, Function.comp_apply, vertex?_dress, wf.vertex?_eq_some_iff.2 ⟨hv, rfl⟩, Option.map_some]
  show g.vertices.map (Vertex.dress f) = _
  rw [← List.filterMap_eq_map, List.filterMap_congr hfind, ← List.filterMap_map]
  rfl

end Digraph

/-- The attributes with all values of a kind alike. -/
def Attribute.Store.blank (a : Store) : Store :=
  a.map fun _ v => if v.isValid then .int 0 else .invalid

/-- Blanking values leaves the shape of a store. -/
lemma Attribute.Store.shape_blank (a : Store) : a.blank.shape = a.shape := by
  refine Dict.ext_get? fun k => ?_
  rw [get?_shape, get?_shape, blank, Dict.get?_map, Option.map_map]
  refine congrArg (Option.map · (a.get? k)) (funext fun v => ?_)
  cases v <;> rfl

/-- The names of attributes and whether their values are valid are all that is left. -/
lemma Attribute.Store.blank_congr {a b : Store} (h : a.shape = b.shape) : a.blank = b.blank := by
  refine Dict.ext_get? fun k => ?_
  have hk : a.shape.get? k = b.shape.get? k := by rw [h]
  rw [get?_shape, get?_shape] at hk
  rw [blank, blank, Dict.get?_map, Dict.get?_map]
  cases ha : a.get? k <;> cases hb : b.get? k <;> simp_all

/-- The node without the values of its attributes. -/
def Node.sketch (n : Node) : Node :=
  { n with attrs := n.attrs.blank }

namespace Sandbox

/-- The sandbox without the version it was taken from and without the values of attributes. -/
def sketch (s : Sandbox) : Sandbox :=
  { s with base := 0, dag := s.dag.dress Node.sketch }

/-! ### Edits -/

section Steps

variable (s : Sandbox)

/-- A node of a sketch is the sketch of the node. -/
@[simp] lemma node?_sketch (k : String) : s.sketch.node? k = (s.node? k).map Node.sketch :=
  s.dag.val?_dress Node.sketch k

/-- The nodes of a sketch are the sketches of the nodes. -/
lemma nodes_sketch : s.sketch.nodes = s.nodes.map Node.sketch := by
  rw [nodes, nodes, sketch, Digraph.dress, List.map_map, List.map_map]
  rfl

/-- A sketch has the same nodes. -/
lemma hasVertex_sketch (k : String) : s.sketch.dag.hasVertex k = s.dag.hasVertex k :=
  s.dag.hasVertex_dress Node.sketch k

/-- A sketch has the same names and edges. -/
lemma topology_sketch : s.sketch.dag.topology = s.dag.topology :=
  s.dag.topology_dress Node.sketch

/-- A sketch has the same anchors. -/
lemma isAnchor_sketch (k : String) : s.sketch.isAnchor k = s.isAnchor k := rfl

/-- Names are as free in a sketch as in what it was made of. -/
lemma uniqueName_sketch (base : String) : s.sketch.uniqueName base = s.uniqueName base := rfl

/-- A merge in a sketch has the same record. -/
lemma provenance_sketch (names : List String) (fused pattern : String) :
    s.sketch.provenance names fused pattern = s.provenance names fused pattern := rfl

/-- Nodes can be updated before or after sketching. -/
lemma updateNode_sketch (n : Node) :
    s.sketch.updateNode n.sketch = (s.updateNode n).map sketch := by
  have hset : s.sketch.dag.setVertex n.name n.sketch = (s.dag.setVertex n.name n).map (Digraph.dress Node.sketch) :=
    s.dag.setVertex_dress Node.sketch n.name n
  have hname : n.sketch.name = n.name := rfl
  rw [updateNode, updateNode, hname, hset, isAnchor_sketch]
  cases s.dag.setVertex n.name n with
  | error e => rfl
  | ok dag =>
    simp only [Except.map]
    split <;> rfl

/-- Edges can be forgotten before or after sketching. -/
lemma forgetEdge_sketch (id : EdgeId) : s.sketch.forgetEdge id = (s.forgetEdge id).sketch := by
  have hbase : s.sketch.baseEdges = s.baseEdges := rfl
  rw [forgetEdge, forgetEdge, hbase]
  split <;> rfl

/-- Nodes can be removed before or after sketching. -/
lemma removeNode_sketch (name : String) : s.sketch.removeNode name = (s.removeNode name).sketch := by
  have hremove : s.sketch.dag.removeVertex name =
      (s.dag.removeVertex name).map fun p => (p.1.dress Node.sketch, p.2) := s.dag.removeVertex_dress Node.sketch name
  rw [removeNode, removeNode, hremove]
  cases s.dag.removeVertex name with
  | error e => rfl
  | ok p =>
    have hforget : p.2.foldl (fun (s : Sandbox) a => s.forgetEdge (.arc a.src a.dst)) (sketch { s with dag := p.1 }) =
        (p.2.foldl (fun (s : Sandbox) a => s.forgetEdge (.arc a.src a.dst)) { s with dag := p.1 }).sketch :=
      List.foldl_hom sketch fun (s : Sandbox) a => s.forgetEdge_sketch (.arc a.src a.dst)
    have hstart : ({ s.sketch with dag := p.1.dress Node.sketch } : Sandbox) = sketch { s with dag := p.1 } := rfl
    simp only [Except.map, hstart, hforget]
    generalize p.2.foldl (fun s a => s.forgetEdge (.arc a.src a.dst)) { s with dag := p.1 } = t
    have hadded : t.sketch.added = t.added := rfl
    rw [hadded]
    split <;> rfl

/-- Edges can be moved before or after sketching. -/
lemma rewire_sketch (old new : Edge) : s.sketch.rewire old new = (s.rewire old new).sketch := by
  have hadd : s.sketch.dag.addArc new.src new.dst new =
      (s.dag.addArc new.src new.dst new).map (Digraph.dress Node.sketch) := s.dag.addArc_dress Node.sketch _ _ new
  rw [rewire, rewire, hadd]
  cases s.dag.addArc new.src new.dst new with
  | ok dag => rfl
  | error e => cases e <;> rfl

/-- Moved edges that are gone can be forgotten before or after sketching. -/
lemma pruneRenames_sketch : s.sketch.pruneRenames = s.pruneRenames.sketch := rfl

/-- The boundary can be redirected before or after sketching. -/
lemma redirectBoundary_sketch (old new : String) :
    s.sketch.redirectBoundary old new = (s.redirectBoundary old new).sketch := by
  have hboundary : s.sketch.boundary = s.boundary := rfl
  rw [redirectBoundary, redirectBoundary, hboundary]
  split <;> rfl

/-- The boundary can be moved before or after sketching. -/
lemma moveBoundary_sketch (old new : String) : s.sketch.moveBoundary old new = (s.moveBoundary old new).sketch := by
  have hins : s.sketch.ins = s.ins := rfl
  have houts : s.sketch.outs = s.outs := rfl
  rw [moveBoundary, moveBoundary, hins, houts]
  split
  · exact redirectBoundary_sketch
      { s with ins := replaceName s.ins old new, outs := replaceName s.outs old new } old new
  · rfl

/-- The records of nodes can be retired before or after sketching. -/
lemma retire_sketch (name : String) : s.sketch.retire name = (s.retire name).sketch := by
  have hmerges : s.sketch.merges = s.merges := rfl
  have hadded : s.sketch.added = s.added := rfl
  rw [retire, retire, hmerges]
  split
  · rfl
  · dsimp only
    rw [hadded]
    split <;> rfl

/-- Nodes can be added before or after sketching. -/
lemma addNode_sketch (n : Node) (seq : UInt64) : s.sketch.addNode n.sketch seq = (s.addNode n seq).sketch := by
  have hadd : s.sketch.dag.addVertexAt n.name n.sketch seq =
      (s.dag.addVertexAt n.name n seq).map (Digraph.dress Node.sketch) :=
      s.dag.addVertexAt_dress Node.sketch n.name n seq
  have hname : n.sketch.name = n.name := rfl
  rw [addNode, addNode, hname, hadd]
  cases s.dag.addVertexAt n.name n seq <;> rfl

/-- A consumer reads another variable before or after sketching. -/
lemma reread_sketch (src e : Edge) : reread src s.sketch e = (reread src s e).sketch := by
  rw [reread, reread, node?_sketch]
  cases s.node? e.dst with
  | none => rfl
  | some c =>
    have hup : s.sketch.updateNode (readInstead e.var src.var c.sketch) =
        (s.updateNode (readInstead e.var src.var c)).map sketch := s.updateNode_sketch (readInstead e.var src.var c)
    simp only [Option.map_some, hup]
    cases s.updateNode (readInstead e.var src.var c) <;> rfl

/-- Nodes can be bypassed before or after sketching. -/
lemma bypass_sketch (src e : Edge) : bypass src s.sketch e = (bypass src s e).sketch := by
  rw [bypass_eq, bypass_eq, reread_sketch, rewire_sketch]

/-- Nodes can be contracted before or after sketching. -/
lemma contract_sketch (names : List String) (fused : Node) (record : MergeRecord) :
    s.sketch.contract names fused.sketch record = (s.contract names fused record).sketch := by
  have hseq : s.sketch.dag.seq? = s.dag.seq? := funext fun k => s.dag.seq?_dress Node.sketch k
  have hretire (s : Sandbox) : names.foldl retire s.sketch = (names.foldl retire s).sketch :=
    List.foldl_hom sketch fun s name => s.retire_sketch name
  have hremove (s : Sandbox) : names.foldl removeNode s.sketch = (names.foldl removeNode s).sketch :=
    List.foldl_hom sketch fun s name => s.removeNode_sketch name
  have hin (s : Sandbox) (es : List Edge) :
      es.foldl (rewireIn fused.sketch) s.sketch = (es.foldl (rewireIn fused) s).sketch :=
    List.foldl_hom sketch fun s e => s.rewire_sketch e _
  have hout (s : Sandbox) (es : List Edge) :
      es.foldl (rewireOut fused.sketch) s.sketch = (es.foldl (rewireOut fused) s).sketch :=
    List.foldl_hom sketch fun s e => s.rewire_sketch e _
  have hmove (s : Sandbox) : names.foldl (fun s name => s.moveBoundary name fused.sketch.name) s.sketch =
      (names.foldl (fun s name => s.moveBoundary name fused.name) s).sketch :=
    List.foldl_hom sketch fun s name => s.moveBoundary_sketch name fused.name
  have hin_eq : s.sketch.inbound names = s.inbound names := rfl
  have hout_eq : s.sketch.outbound names = s.outbound names := rfl
  simp only [contract, hseq, hin_eq, hout_eq, hretire, hremove, addNode_sketch, hin, hout, hmove]
  rfl

/-! ### Drops and merges -/

/-- A node can be dropped exactly if it can be dropped in the sketch. -/
lemma droppable_sketch {name : String} {src : Edge} : s.sketch.Droppable name src ↔ s.Droppable name src := by
  have hkeys : s.sketch.dag.keys = s.dag.keys := s.dag.keys_dress Node.sketch
  constructor
  · exact fun h => ⟨h.isOpen, hkeys ▸ h.live, h.inside, h.notOutput, h.source, h.unregistered, h.consumers⟩
  · exact fun h => ⟨h.isOpen, hkeys ▸ h.live, h.inside, h.notOutput, h.source, h.unregistered, h.consumers⟩

/-- Nodes can be contracted exactly if they can be contracted in the sketch. -/
lemma contractible_sketch {names : List String} {fused : String} :
    s.sketch.Contractible names fused ↔ s.Contractible names fused := by
  have hkeys : s.sketch.dag.keys = s.dag.keys := s.dag.keys_dress Node.sketch
  have hreach (x y : String) : s.sketch.dag.reachable x y = s.dag.reachable x y := s.dag.reachable_dress Node.sketch x y
  constructor
  · exact fun h => ⟨h.isOpen, h.two, h.free, h.nodup, hkeys ▸ h.live, h.inside, h.unregistered,
      fun e he i hi => hreach _ _ ▸ h.convex e he i hi⟩
  · exact fun h => ⟨h.isOpen, h.two, h.free, h.nodup, hkeys ▸ h.live, h.inside, h.unregistered,
      fun e he i hi => hreach _ _ ▸ h.convex e he i hi⟩

/-- The nodes of some names in a sketch are the sketches of those nodes. -/
lemma nodesOf_sketch (names : List String) : s.sketch.nodesOf names = (s.nodesOf names).map Node.sketch := by
  rw [nodesOf, nodesOf, List.map_filterMap]
  exact List.filterMap_congr fun k _ => s.node?_sketch k

/-- A fused node reads the same in a sketch. -/
lemma fusedInputs_sketch (names : List String) : s.sketch.fusedInputs names = s.fusedInputs names := by
  have hinbound : s.sketch.inbound names = s.inbound names := rfl
  simp only [fusedInputs, nodesOf_sketch, List.flatMap_map, hinbound]
  rfl

/-- A fused node writes the same in a sketch. -/
lemma fusedOutputs_sketch (names : List String) : s.sketch.fusedOutputs names = s.fusedOutputs names := by
  have houtbound : s.sketch.outbound names = s.outbound names := rfl
  have houts (k : String) : s.sketch.isBoundaryOutput k = s.isBoundaryOutput k := rfl
  simp only [fusedOutputs, node?_sketch, Option.map_map, houtbound, houts]
  rfl

/-- The attributes of a fused node have the same shape in a sketch. -/
lemma fusedAttrs_sketch (names : List String) :
    (s.sketch.fusedAttrs names).map Attribute.Store.shape = (s.fusedAttrs names).map Attribute.Store.shape :=
  fusedAttrs_shape (f := Node.sketch) (fun _ => rfl) (fun n => n.attrs.shape_blank) (fun k _ => s.node?_sketch k)
    fun _ _ => rfl

end Steps

section Alike

variable {s t : Sandbox} (h : s.sketch = t.sketch)

include h

/-- Sandboxes with one sketch have the same edges. -/
lemma arcs_of_sketch : s.dag.arcs = t.dag.arcs := by
  have harcs : s.sketch.dag.arcs = t.sketch.dag.arcs := by rw [h]
  exact harcs

/-- Sandboxes with one sketch have moved the same edges. -/
lemma renamed_of_sketch : s.renamed = t.renamed := by
  have hrenamed : s.sketch.renamed = t.sketch.renamed := by rw [h]
  exact hrenamed

/-- A node that can be dropped can be dropped from a sandbox with the same sketch, to the same effect. -/
lemma drop_alike {name : String} {u : Sandbox} (hu : s.drop name = .ok u) :
    ∃ u', t.drop name = .ok u' ∧ u.sketch = u'.sketch := by
  have hdrop (s : Sandbox) (src : Edge) :
      (((s.outEdges name).foldl (bypass src) (s.removeNode name)).pruneRenames).sketch =
        ((s.sketch.outEdges name).foldl (bypass src) (s.sketch.removeNode name)).pruneRenames := by
    have hbypass : (s.outEdges name).foldl (bypass src) (s.removeNode name).sketch = _ :=
      List.foldl_hom sketch fun s e => s.bypass_sketch src e
    rw [removeNode_sketch, ← pruneRenames_sketch, ← hbypass]
    rfl
  obtain ⟨src, hd, rfl⟩ := drop_ok_iff.1 hu
  refine ⟨_, drop_ok_iff.2 ⟨src, ?_, rfl⟩, ?_⟩
  · rwa [← droppable_sketch, ← h, droppable_sketch]
  · rw [hdrop s, hdrop t, h]

/-- The nodes that merges of the same members make differ in the values of attributes only. -/
lemma fusedNode_alike {names : List String} {name type : String} {n : Node}
    (hn : s.fusedNode names name type = .ok n) : ∃ m, t.fusedNode names name type = .ok m ∧ n.sketch = m.sketch := by
  have hshape : (s.fusedAttrs names).map Attribute.Store.shape = (t.fusedAttrs names).map Attribute.Store.shape := by
    rw [← fusedAttrs_sketch, h, fusedAttrs_sketch]
  have hhead (s : Sandbox) : (s.sketch.nodesOf names).head?.map (·.precision) =
      (s.nodesOf names).head?.map (·.precision) := by
    rw [nodesOf_sketch, List.head?_map, Option.map_map]
    rfl
  have hprecision := hhead s
  rw [h, hhead t] at hprecision
  obtain ⟨a, ha, rfl⟩ := fusedNode_ok_iff.1 hn
  obtain ⟨b, hb⟩ := (exists_ok_of_map hshape).1 ⟨a, ha⟩
  refine ⟨_, fusedNode_ok_iff.2 ⟨b, hb, rfl⟩, ?_⟩
  rw [ha, hb] at hshape
  have hblank : a.blank = b.blank := Attribute.Store.blank_congr (Except.ok.inj hshape)
  have hinputs : s.fusedInputs names = t.fusedInputs names := by
    rw [← fusedInputs_sketch, h, fusedInputs_sketch]
  have houtputs : s.fusedOutputs names = t.fusedOutputs names := by
    rw [← fusedOutputs_sketch, h, fusedOutputs_sketch]
  simp only [Node.sketch, hblank, hprecision, hinputs, houtputs]

/-- Nodes that can be merged can be merged in a sandbox with the same sketch, to the same effect. -/
lemma merge_alike {names : List String} {fused type pattern : String} {u : Sandbox} {n : Node}
    (hu : s.merge names fused type pattern = .ok (u, n)) :
    ∃ u' n', t.merge names fused type pattern = .ok (u', n') ∧ u.sketch = u'.sketch := by
  obtain ⟨hc, hn, rfl⟩ := merge_ok_iff.1 hu
  obtain ⟨m, hm, hnm⟩ := fusedNode_alike h hn
  have hrecord : s.provenance names fused pattern = t.provenance names fused pattern := by
    rw [← provenance_sketch, h, provenance_sketch]
  refine ⟨_, m, merge_ok_iff.2 ⟨?_, hm, rfl⟩, ?_⟩
  · rwa [← contractible_sketch, ← h, contractible_sketch]
  · rw [← contract_sketch, ← contract_sketch, h, hnm, hrecord]

end Alike

end Sandbox

/-! ### Runs -/

namespace Engine

open Sandbox

/-- A node fits a constraint exactly if it does in the sketch. -/
lemma fits_sketch (s : Sandbox) (c : Constraint) (name : String) : fits s.sketch c name = fits s c name := by
  have hdegree : s.sketch.dag.inDegree name = s.dag.inDegree name := rfl
  rw [fits, fits, node?_sketch, hdegree]
  cases s.node? name <;> rfl

/-- Following constraints finds the same nodes in a sketch. -/
lemma follow_sketch (s : Sandbox) : ∀ (cs : List Constraint) (name : String), follow s.sketch cs name = follow s cs name
  | [], _ => rfl
  | c :: cs, name => by
    have hsuccs : s.sketch.dag.succs name = s.dag.succs name := rfl
    have htype (k : String) : (s.sketch.node? k).map (·.type) = (s.node? k).map (·.type) := by
      rw [node?_sketch, Option.map_map]
      rfl
    simp only [follow, fits_sketch, hsuccs, htype, follow_sketch s cs]

/-- Nodes are private to a chain exactly if they are in the sketch. -/
lemma isPrivate_sketch (s : Sandbox) : ∀ members : List String, isPrivate s.sketch members = isPrivate s members
  | [] => rfl
  | [_] => rfl
  | _ :: next :: rest => by
    rw [isPrivate, isPrivate, isPrivate_sketch s (next :: rest)]
    rfl

/-- A pattern finds the same chain in a sketch. -/
lemma find_sketch (s : Sandbox) (head : String) (p : Pattern) : find s.sketch head p = find s head p := by
  simp only [find, follow_sketch, isPrivate_sketch]

/-- The sketch of a sandbox with what was counted. -/
def outline (run : Sandbox × Stats) : Sandbox × Stats :=
  (run.1.sketch, run.2)

section Alike

variable {run run' : Sandbox × Stats} (h : outline run = outline run')

include h

/-- Trying to drop a node does the same to runs with one sketch. -/
lemma tryDrop_alike (name : String) : outline (tryDrop run name) = outline (tryDrop run' name) := by
  obtain ⟨hs, hstats⟩ := Prod.mk.inj h
  unfold tryDrop
  cases hd : run.1.drop name with
  | ok u =>
    obtain ⟨u', hu', hsketch⟩ := drop_alike hs hd
    rw [hu', hstats]
    exact Prod.ext hsketch rfl
  | error err =>
    cases hd' : run'.1.drop name with
    | ok u' =>
      obtain ⟨u, hu, -⟩ := drop_alike hs.symm hd'
      rw [hd] at hu
      cases hu
    | error err' => exact h

/-- Trying patterns at a node does the same to runs with one sketch. -/
lemma tryPatterns_alike (head : String) (ps : List Pattern) :
    outline (tryPatterns head ps run) = outline (tryPatterns head ps run') := by
  induction ps generalizing run run' with
  | nil => exact h
  | cons p ps ih =>
    obtain ⟨s, stats⟩ := run
    obtain ⟨t, stats'⟩ := run'
    obtain ⟨hs, rfl⟩ := Prod.mk.inj h
    dsimp only at hs
    have hfind : find s head p = find t head p := by
      rw [← find_sketch, hs, find_sketch]
    have hname : s.uniqueName p.name = t.uniqueName p.name := by
      rw [← uniqueName_sketch, hs, uniqueName_sketch]
    have hnext (stats : Stats) : outline (tryPatterns head ps (s, stats)) = outline (tryPatterns head ps (t, stats)) :=
      ih (Prod.ext hs rfl)
    rw [tryPatterns, tryPatterns, hfind]
    cases find t head p with
    | none => exact hnext _
    | refused => exact hnext _
    | chain members =>
      dsimp only
      rw [hname]
      cases hm : s.merge members (t.uniqueName p.name) p.name p.name with
      | ok r =>
        obtain ⟨u', n', hu', hsketch⟩ := merge_alike hs hm
        rw [hu']
        exact Prod.ext hsketch rfl
      | error err =>
        cases hm' : t.merge members (t.uniqueName p.name) p.name p.name with
        | ok r =>
          obtain ⟨u, n, hu, -⟩ := merge_alike hs.symm hm'
          rw [hm] at hu
          cases hu
        | error err' => exact hnext _

/-- Trying a head does the same to runs with one sketch. -/
lemma tryHead_alike (ps : List Pattern) (head : String) :
    outline (tryHead ps run head) = outline (tryHead ps run' head) := by
  have hs : run.1.sketch = run'.1.sketch := (Prod.mk.inj h).1
  have hanchor : run.1.isAnchor head = run'.1.isAnchor head := by
    rw [← isAnchor_sketch, hs, isAnchor_sketch]
  have hvertex : run.1.dag.hasVertex head = run'.1.dag.hasVertex head := by
    rw [← hasVertex_sketch, hs, hasVertex_sketch]
  rw [tryHead, tryHead, hanchor, hvertex]
  split
  · exact h
  · exact tryPatterns_alike h head ps

/-- The same nodes are dropped. -/
lemma dropAll_alike (elided : List String) : outline (dropAll elided run) = outline (dropAll elided run') := by
  have hs : run.1.sketch = run'.1.sketch := (Prod.mk.inj h).1
  have hnames (s : Sandbox) :
      (s.nodes.filter fun n => elided.contains n.type && !s.isAnchor n.name).map Node.name =
        (s.sketch.nodes.filter fun n => elided.contains n.type && !s.sketch.isAnchor n.name).map Node.name := by
    rw [nodes_sketch, List.filter_map, List.map_map]
    rfl
  have hdrop (run : Sandbox × Stats) : dropAll elided run =
      ((run.1.nodes.filter fun n => elided.contains n.type && !run.1.isAnchor n.name).map Node.name).foldl
        tryDrop run :=
    List.foldl_map.symm
  rw [hdrop, hdrop, hnames run.1, hnames run'.1, hs]
  exact List.foldl_rel (r := fun run run' => outline run = outline run') h fun name _ _ _ h => tryDrop_alike h name

/-- A pass does the same to sandboxes with the same sketch. -/
lemma pass_alike (e : Engine) :
    outline (e.pass run).1 = outline (e.pass run').1 ∧ (e.pass run).2 = (e.pass run').2 := by
  have hdrop := dropAll_alike h e.elided
  have hs : (dropAll e.elided run).1.sketch = (dropAll e.elided run').1.sketch := (Prod.mk.inj hdrop).1
  have horder : (dropAll e.elided run).1.dag.topology = (dropAll e.elided run').1.dag.topology := by
    rw [← topology_sketch, hs, topology_sketch]
  unfold pass
  dsimp only
  rw [horder]
  cases (dropAll e.elided run').1.dag.topology.order with
  | error cause => exact ⟨hdrop, rfl⟩
  | ok order =>
    refine ⟨?_, rfl⟩
    exact List.foldl_rel (r := fun run run' => outline run = outline run') hdrop
      fun head _ _ _ h => tryHead_alike h e.patterns head

/-- Passes do the same to runs with one sketch, and end alike. -/
lemma loop_alike (e : Engine) (n : Nat) :
    outline (e.loop n run).1 = outline (e.loop n run').1 ∧ (e.loop n run).2 = (e.loop n run').2 := by
  induction n generalizing run run' with
  | zero => exact ⟨h, rfl⟩
  | succ n ih =>
    obtain ⟨s, stats⟩ := run
    obtain ⟨t, stats'⟩ := run'
    obtain ⟨hs, rfl⟩ := Prod.mk.inj h
    have hstart : outline (s, { stats with iterations := stats.iterations + 1 }) =
        outline (t, { stats with iterations := stats.iterations + 1 }) := Prod.ext hs rfl
    obtain ⟨hrun, herr⟩ := pass_alike hstart e
    rw [loop, loop]
    dsimp only
    generalize e.pass (s, { stats with iterations := stats.iterations + 1 }) = p at hrun herr ⊢
    generalize e.pass (t, { stats with iterations := stats.iterations + 1 }) = p' at hrun herr ⊢
    obtain ⟨after, err⟩ := p
    obtain ⟨after', err'⟩ := p'
    obtain rfl : err = err' := herr
    cases err with
    | some err => exact ⟨hrun, rfl⟩
    | none =>
      have hstats : after.2 = after'.2 := (Prod.mk.inj hrun).2
      dsimp only
      rw [hstats]
      split
      · exact ih hrun
      · exact ⟨hrun, rfl⟩

end Alike

/-- The engine does the same to sandboxes with the same sketch. -/
lemma run_alike (e : Engine) {s t : Sandbox} (h : s.sketch = t.sketch) :
    outline (e.run s).1 = outline (e.run t).1 ∧ (e.run s).2 = (e.run t).2 := by
  have hstart : outline (s, {}) = outline (t, {}) := Prod.ext h rfl
  exact loop_alike hstart e e.passes

end Engine

end OpGraph
