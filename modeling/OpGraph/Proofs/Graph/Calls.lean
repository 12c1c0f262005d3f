import Mathlib
import OpGraph.Proofs.Sandbox.Histories

/-!
# Calls that keep the rules of a graph

The calls that change a graph are not checked afterwards, with the exception of a patch: each of them has to keep the
rules by what it refuses. A node can not be removed while one of its edges is registered, but it can while it is at the
boundary or has a record. Every other call keeps the rules.
-/

namespace OpGraph.Graph

/-! ### Calls -/

/-- What can be called to change a graph. -/
inductive Call where
  | insertNode (n : Node)
  | addEdge (src : String) (srcSlot : Int) (dst : String) (dstSlot : Int)
  | connect (e : Edge)
  | removeNode (name : String)
  | registerOutput (src dst : String)
  | registerAllOutputs
  | apply (p : Patch)

/-- Makes a call. -/
def call (g : Graph) : Call → Except Error Graph
  | .insertNode n => g.insertNode n
  | .addEdge src srcSlot dst dstSlot => g.addEdge src srcSlot dst dstSlot
  | .connect e => g.connect e
  | .removeNode name => g.removeNode name
  | .registerOutput src dst => g.registerOutput src dst
  | .registerAllOutputs => .ok g.registerAllOutputs
  | .apply p => g.apply p

variable {g g' : Graph}

/-- Registering an output registers an edge that is there. -/
lemma registerOutput_ok {src dst : String} (h : g.registerOutput src dst = .ok g') :
    g.dag.hasArc src dst ∧ g' = { g with registered := g.registered.add (EdgeId.arc src dst) } := by
  unfold registerOutput at h
  split at h
  · rename_i hedge
    cases h
    rw [edge?, Option.isSome_map] at hedge
    exact ⟨hedge, rfl⟩
  · cases h

/-- Only a node without registered edges is removed, and with it nothing but its edges. -/
lemma removeNode_ok {name : String} (h : g.removeNode name = .ok g') :
    (∀ e ∈ g.inEdges name ++ g.outEdges name, ¬ g.isRegistered e.id) ∧
    g' = { g with dag := g.dag.dropVertex name } := by
  unfold removeNode at h
  split at h
  · cases h
  · split at h
    · cases h
    · rename_i hfind
      cases h
      exact ⟨List.find?_eq_none.1 hfind, rfl⟩

/-! ### What a call keeps -/

/-- An edge is found by its identifier exactly if it can be cut into the ends of one. -/
lemma edgeById?_isSome_iff {id : EdgeId} :
    (g.edgeById? id).isSome ↔ ∃ x y, id.endpoints? = some (x, y) ∧ g.dag.hasArc x y := by
  unfold edgeById?
  split
  · rename_i src dst hends
    rw [edge?, Option.isSome_map]
    simp [hends, Digraph.hasArc]
  · rename_i hends
    simp [hends]

/-- A sound graph is consistent. -/
lemma Sound.consistent (h : g.Sound) (wf : g.WellFormed) : g.Consistent :=
  ⟨wf, h.payload, h.acyclic⟩

/-- A graph stays sound if no node and no edge goes and what is newly registered is an edge. -/
lemma Sound.grow (h : g.Sound) (hc : g'.Consistent) (hnode : ∀ {k}, g.hasNode k → g'.hasNode k)
    (harc : ∀ {x y}, g.dag.hasArc x y → g'.dag.hasArc x y)
    (hreg : ∀ {id}, g'.isRegistered id → g.isRegistered id ∨ (g'.edgeById? id).isSome) (hins : g'.ins = g.ins)
    (houts : g'.outs = g.outs) (hmerges : g'.merges = g.merges) : g'.Sound where
  payload := hc.payload
  registered := by
    intro id hid
    rcases hreg hid with hold | hnew
    · obtain ⟨x, y, hends, hxy⟩ := edgeById?_isSome_iff.1 (h.registered id hold)
      exact edgeById?_isSome_iff.2 ⟨x, y, hends, harc hxy⟩
    · exact hnew
  ins := fun name hn => hnode (h.ins name (hins ▸ hn))
  outs := fun name hn => hnode (h.outs name (houts ▸ hn))
  merges := fun r hr => hnode (h.merges r (hmerges ▸ hr))
  acyclic := hc.acyclic

/-- Inserting a node keeps a graph sound. -/
lemma Sound.insertNode (h : g.Sound) (wf : g.WellFormed) {n : Node} (he : g.insertNode n = .ok g') : g'.Sound := by
  have hc := (h.consistent wf).insertNode he
  obtain ⟨dag, hdag, rfl⟩ := insertNode_ok he
  refine h.grow hc (fun {k} hk => ?_) (fun {x y} hxy => ?_) .inl rfl rfl rfl
  · exact Digraph.hasVertex_iff.2 ((Digraph.mem_keys_addVertexAt hdag).2 (.inr (Digraph.hasVertex_iff.1 hk)))
  · rw [Digraph.hasArc_iff] at hxy ⊢
    rwa [Digraph.arcs_addVertexAt hdag]

/-- Adding an edge keeps a graph sound. -/
lemma Sound.connect (h : g.Sound) (wf : g.WellFormed) {e : Edge} (he : g.connect e = .ok g') : g'.Sound := by
  have hc := (h.consistent wf).connect he
  obtain ⟨dag, hdag, rfl⟩ := connect_ok he
  refine h.grow hc (fun {k} hk => ?_) (fun {x y} hxy => ?_) .inl rfl rfl rfl
  · rw [hasNode, Digraph.hasVertex_iff] at hk ⊢
    rwa [Digraph.keys_addArc hdag]
  · exact (Digraph.hasArc_addArc hdag).2 (.inr hxy)

/-- An edge that is registered by its identifier is found by it, if the name of its producer holds no arrow. -/
lemma Regular.registerOutput (h : g.Regular) {src dst : String} (he : g.registerOutput src dst = .ok g') :
    g'.Sound := by
  have hc := (h.sound.consistent h.wellFormed).registerOutput he
  obtain ⟨hedge, rfl⟩ := registerOutput_ok he
  refine h.sound.grow hc id id (fun {i} hi => ?_) rfl rfl rfl
  rcases NameSet.contains_add.1 hi with rfl | hi
  · exact .inr ((edgeById?_arc_isSome (h.arrowFree_of_hasArc hedge)).2 hedge)
  · exact .inl hi

/-- Registering all outputs keeps a graph sound. -/
lemma Regular.registerAllOutputs (h : g.Regular) : g.registerAllOutputs.Sound := by
  refine h.sound.grow ((h.sound.consistent h.wellFormed).of_dag rfl) id id (fun {i} hi => ?_) rfl rfl rfl
  rcases (NameSet.contains_foldl_add Edge.id).1 hi with ⟨e, he, rfl⟩ | hi
  · obtain ⟨a, ha, rfl⟩ := List.mem_map.1 he
    rw [h.dag.mem_arcsBySource] at ha
    obtain ⟨hsrc, hdst⟩ := h.sound.payload a ha
    rw [Edge.id, hsrc, hdst]
    exact .inr ((edgeById?_arc_isSome (h.arrowFree_src ha)).2 (Digraph.hasArc_of_mem ha))
  · exact .inl hi

/-- Applying a patch keeps a graph sound. -/
lemma Sound.apply (h : g.Sound) (wf : g.WellFormed) {p : Patch} (he : g.apply p = .ok g') : g'.Sound := by
  cases apply_ok wf he with
  | inl hempty => exact hempty.2 ▸ h
  | inr happ => exact happ.sound

/-! ### Removing a node -/

/-- A node that is not at the boundary and that no record is about. -/
structure Unlisted (g : Graph) (name : String) : Prop where
  ins : name ∉ g.ins
  outs : name ∉ g.outs
  merges : ∀ r ∈ g.merges, r.fused ≠ name

/-- What is registered stays when a node is removed, for its own edges are not. -/
lemma Sound.registered_removeNode (h : g.Sound) (wf : g.WellFormed) {name : String}
    (he : g.removeNode name = .ok g') {id : EdgeId} (hid : g.isRegistered id) : (g'.edgeById? id).isSome := by
  obtain ⟨hfree, rfl⟩ := removeNode_ok he
  obtain ⟨x, y, hends, hxy⟩ := edgeById?_isSome_iff.1 (h.registered id hid)
  obtain ⟨a, ha, rfl, rfl⟩ := Digraph.hasArc_iff.1 hxy
  have hval : a.val.id = id := by
    obtain ⟨hsrc, hdst⟩ := h.payload a ha
    rw [Edge.id, hsrc, hdst, EdgeId.eq_arc_of_endpoints? hends]
  have haway : a.val ∉ g.inEdges name ++ g.outEdges name := fun hmem => hfree _ hmem (hval ▸ hid)
  rw [List.mem_append, not_or] at haway
  refine edgeById?_isSome_iff.2 ⟨a.src, a.dst, hends, wf.dag.hasArc_dropVertex.2 ⟨hxy, ?_, ?_⟩⟩
  · exact fun hsrc => haway.2 (List.mem_map_of_mem (wf.dag.mem_outArcs.2 ⟨ha, hsrc⟩))
  · exact fun hdst => haway.1 (List.mem_map_of_mem (wf.dag.mem_inArcs.2 ⟨ha, hdst⟩))

/-- Removing a node keeps the rules exactly if nothing but its edges is about it. -/
lemma Sound.removeNode_iff (h : g.Sound) (wf : g.WellFormed) {name : String} (he : g.removeNode name = .ok g') :
    g'.Sound ↔ g.Unlisted name := by
  have hc := (h.consistent wf).removeNode he
  have hreg : ∀ id, g.isRegistered id → (g'.edgeById? id).isSome := fun _ => h.registered_removeNode wf he
  obtain ⟨-, rfl⟩ := removeNode_ok he
  have hnode : ∀ k, (g.dag.dropVertex name).hasVertex k ↔ k ≠ name ∧ g.hasNode k := by
    intro k
    rw [hasNode, Digraph.hasVertex_iff, Digraph.hasVertex_iff, Digraph.mem_keys_dropVertex]
  constructor
  · intro h'
    refine ⟨fun hn => ?_, fun hn => ?_, fun r hr hn => ?_⟩
    · exact ((hnode name).1 (h'.ins name hn)).1 rfl
    · exact ((hnode name).1 (h'.outs name hn)).1 rfl
    · exact ((hnode r.fused).1 (h'.merges r hr)).1 hn
  · intro hu
    refine ⟨hc.payload, hreg, fun k hk => ?_, fun k hk => ?_, fun r hr => ?_, hc.acyclic⟩
    · exact (hnode k).2 ⟨fun hn => hu.ins (hn ▸ hk), h.ins k hk⟩
    · exact (hnode k).2 ⟨fun hn => hu.outs (hn ▸ hk), h.outs k hk⟩
    · exact (hnode r.fused).2 ⟨hu.merges r hr, h.merges r hr⟩

/-! ### Any call -/

/-- Every call keeps a graph well-formed. -/
lemma WellFormed.call (wf : g.WellFormed) (h : g.Sound) {c : Call} (hc : g.call c = .ok g') : g'.WellFormed := by
  have hg := h.consistent wf
  cases c with
  | insertNode n => exact (hg.insertNode hc).toWellFormed
  | addEdge src srcSlot dst dstSlot => exact (hg.connect hc).toWellFormed
  | connect e => exact (hg.connect hc).toWellFormed
  | removeNode name => exact (hg.removeNode hc).toWellFormed
  | registerOutput src dst => exact (hg.registerOutput hc).toWellFormed
  | registerAllOutputs =>
    cases hc
    exact wf.of_dag rfl
  | apply p => exact (hg.apply hc).toWellFormed

/-- A call on a verified graph leaves one that is verified, unless it removes a node that is at the boundary or has a
record. No name holds an arrow. -/
theorem verify_call_iff (wf : g.WellFormed) (hv : g.verify = .ok ()) (haf : ∀ name ∈ g.names, ArrowFree name) {c : Call}
    (hc : g.call c = .ok g') : g'.verify = .ok () ↔ ∀ name, c = .removeNode name → g.Unlisted name := by
  have hg : g.Regular := .of_verify wf hv haf
  rw [(wf.call hg.sound hc).verify_ok_iff]
  cases c with
  | removeNode name => exact (hg.sound.removeNode_iff wf hc).trans (by simp)
  | insertNode n => exact iff_of_true (hg.sound.insertNode wf hc) (by simp)
  | addEdge src srcSlot dst dstSlot => exact iff_of_true (hg.sound.connect wf hc) (by simp)
  | connect e => exact iff_of_true (hg.sound.connect wf hc) (by simp)
  | registerOutput src dst => exact iff_of_true (hg.registerOutput hc) (by simp)
  | registerAllOutputs =>
    cases hc
    exact iff_of_true hg.registerAllOutputs (by simp)
  | apply p => exact iff_of_true (hg.sound.apply wf hc) (by simp)

/-- Three operators in a row, the first and the last of which are the boundary. -/
def row : Graph where
  name := "row"
  dag := .ofArcs
    [
      ⟨"x", { name := "x", type := "Input", outputs := ["v"] }, 0⟩,
      ⟨"y", { name := "y", type := "relu", inputs := ["v"], outputs := ["w"] }, 1⟩,
      ⟨"z", { name := "z", type := "softmax", inputs := ["w"] }, 2⟩]
    [
      ⟨"x", "y", { src := "x", dst := "y", var := "v" }⟩,
      ⟨"y", "z", { src := "y", dst := "z", var := "w" }⟩]
    3
  ins := ["x"]
  outs := ["z"]

lemma built_row : row.Built := by
  have h := Graph.Built.new "row"
  have h := h.insertNode (n := { name := "x", type := "Input", outputs := ["v"] }) rfl
  have h := h.insertNode (n := { name := "y", type := "relu", inputs := ["v"], outputs := ["w"] }) rfl
  have h := h.insertNode (n := { name := "z", type := "softmax", inputs := ["w"] }) rfl
  have h := h.connect (e := { src := "x", dst := "y", var := "v" }) rfl
  have h := h.connect (e := { src := "y", dst := "z", var := "w" }) rfl
  exact h.setBoundary ["x"] ["z"]

/-- The operator in the middle can be removed, and the edge that it writes can be registered: the graph is verified
after either call. -/
theorem verify_call_iff_row :
    row.verify = .ok () ∧ (∀ name ∈ row.names, ArrowFree name) ∧
    (∃ g, row.call (.removeNode "y") = .ok g ∧ g.verify = .ok ()) ∧
    ∃ g, row.call (.registerOutput "y" "z") = .ok g ∧ g.verify = .ok () := by
  have hv : row.verify = .ok () := rfl
  have haf : ∀ name ∈ row.names, ArrowFree name := by decide
  have hwf := built_row.consistent.toWellFormed
  have hy : row.Unlisted "y" := ⟨by decide, by decide, by decide⟩
  refine ⟨hv, haf, ⟨_, rfl, ?_⟩, _, rfl, ?_⟩
  · apply (verify_call_iff (c := .removeNode "y") hwf hv haf rfl).2
    rintro name ⟨⟩
    exact hy
  · apply (verify_call_iff (c := .registerOutput "y" "z") hwf hv haf rfl).2
    rintro name ⟨⟩

/-- The operator at the end can be removed, too, and then an output of the boundary is missing. -/
theorem verify_call_loses_output :
    row.Built ∧ row.verify = .ok () ∧ (∀ name ∈ row.names, ArrowFree name) ∧
    ∃ g, row.call (.removeNode "z") = .ok g ∧ g.verify = .error (.boundary "z") :=
  ⟨built_row, rfl, by decide, _, rfl, rfl⟩

end OpGraph.Graph
