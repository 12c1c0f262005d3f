import Mathlib
import OpGraph.Network.Freeze
import OpGraph.Proofs.Sandbox.Edits
import OpGraph.Proofs.Verify

/-!
# What freezing makes of a network

Every variable has one producer, every operator is joined to the producers of what it reads, and the inputs of the
boundary are the operators that read nothing.
-/

namespace OpGraph

variable {g g' : Graph} {n : Network} {ps : Dict Producer} {c : Calibration} {var : String}

/-! ### Adding nodes and edges -/

namespace Graph

/-- Inserting a node adds a vertex to the digraph and changes nothing else. -/
lemma insertNode_ok {n : Node} (h : g.insertNode n = .ok g') :
    ∃ dag, g.dag.addVertexAt n.name n g.dag.nextSeq = .ok dag ∧ g' = { g with dag } := by
  unfold insertNode at h
  split at h
  · cases h
  · split at h
    · cases h
    · split at h
      · rename_i dag hdag
        cases h
        exact ⟨dag, hdag, rfl⟩
      · cases h

/-- Adding an edge adds an arc to the digraph and changes nothing else. -/
lemma connect_ok {e : Edge} (h : g.connect e = .ok g') :
    ∃ dag, g.dag.addArc e.src e.dst e = .ok dag ∧ g' = { g with dag } := by
  unfold connect at h
  split at h
  · cases h
  · split at h
    · cases h
    · split at h
      · rename_i dag hdag
        cases h
        exact ⟨dag, hdag, rfl⟩
      · cases h

/-- Inserting a node keeps a graph well-formed. -/
lemma WellFormed.insertNode (wf : g.WellFormed) {n : Node} (h : g.insertNode n = .ok g') : g'.WellFormed := by
  obtain ⟨dag, hdag, rfl⟩ := insertNode_ok h
  refine ⟨wf.dag.addVertexAt hdag, fun v hv => ?_⟩
  have hget := Digraph.vertex?_addVertexAt hdag v.key
  rw [((wf.dag.addVertexAt hdag).vertex?_eq_some_iff).2 ⟨hv, rfl⟩] at hget
  split at hget
  · cases hget
    rfl
  · exact wf.named v (Digraph.mem_of_vertex? hget.symm)

/-- Only the names and payloads of the nodes and the edges matter to being well-formed. -/
lemma WellFormed.of_dag (wf : g.WellFormed) (h : g'.dag = g.dag) : g'.WellFormed :=
  ⟨h ▸ wf.dag, h ▸ wf.named⟩

/-- The nodes of a graph, found by their names. -/
lemma WellFormed.mem_nodes_iff (wf : g.WellFormed) {n : Node} : n ∈ g.nodes ↔ g.node? n.name = some n := by
  rw [Graph.nodes, List.mem_map, Graph.node?, Digraph.val?, Option.map_eq_some_iff]
  constructor
  · rintro ⟨v, hv, rfl⟩
    exact ⟨v, wf.dag.vertex?_eq_some_iff.2 ⟨hv, (wf.named v hv).symm⟩, rfl⟩
  · rintro ⟨v, hv, rfl⟩
    exact ⟨v, Digraph.mem_of_vertex? hv, rfl⟩

/-- What is found under a name has that name. -/
lemma WellFormed.name_of_node? (wf : g.WellFormed) {k : String} {n : Node} (h : g.node? k = some n) : n.name = k := by
  obtain ⟨v, hv, rfl⟩ := Option.map_eq_some_iff.1 h
  rw [wf.named v (Digraph.mem_of_vertex? hv), Digraph.key_of_vertex? hv]

/-- Edges with a property were added to a graph. -/
structure Extends (fresh : Edge → Prop) (g g' : Graph) : Prop where
  rest : g' = { g with dag := g'.dag }
  vertices : g'.dag.vertices = g.dag.vertices
  kept : ∀ a ∈ g.dag.arcs, a ∈ g'.dag.arcs
  arcs : ∀ a ∈ g'.dag.arcs, a ∈ g.dag.arcs ∨ fresh a.val ∧ a = a.val.toArc
  wellFormed : g.dag.WellFormed → g'.dag.WellFormed

namespace Extends

variable {fresh fresh' : Edge → Prop} {g g' g'' : Graph}

lemma refl (g : Graph) : Extends fresh g g :=
  ⟨rfl, rfl, fun _ h => h, fun _ h => .inl h, fun h => h⟩

lemma trans (h : Extends fresh g g') (h' : Extends fresh g' g'') : Extends fresh g g'' where
  rest := by
    rw [h'.rest, h.rest]
  vertices := h'.vertices.trans h.vertices
  kept := fun a ha => h'.kept a (h.kept a ha)
  arcs := fun a ha => (h'.arcs a ha).elim (h.arcs a) .inr
  wellFormed := fun wf => h'.wellFormed (h.wellFormed wf)

lemma mono (h : Extends fresh g g') (hf : ∀ e, fresh e → fresh' e) : Extends fresh' g g' :=
  { h with arcs := fun a ha => (h.arcs a ha).imp_right fun ⟨hfresh, he⟩ => ⟨hf _ hfresh, he⟩ }

lemma hasArc (h : Extends fresh g g') {x y : String} (hxy : g.dag.hasArc x y) : g'.dag.hasArc x y := by
  obtain ⟨a, ha, hends⟩ := Digraph.hasArc_iff.1 hxy
  exact Digraph.hasArc_iff.2 ⟨a, h.kept a ha, hends⟩

end Extends

end Graph

namespace Network

open OpGraph.Graph

/-! ### Producers -/

/-- The variables of a node can be added exactly when they are different and none has a producer. -/
lemma addProducers_ok_iff {node : String} {vs : List String} {slot : Nat} :
    (∃ ps', addProducers node slot ps vs = .ok ps') ↔ vs.Nodup ∧ ∀ v ∈ vs, ps.get? v = none := by
  induction vs generalizing slot ps with
  | nil => simp [addProducers]
  | cons w vs ih =>
    rw [addProducers, List.nodup_cons, List.forall_mem_cons]
    cases hw : ps.get? w with
    | some p => simp
    | none =>
      simp only [ih, Dict.get?_insert, true_and]
      constructor
      · rintro ⟨hn, hfree⟩
        refine ⟨⟨fun hmem => ?_, hn⟩, fun v hv => ?_⟩
        · simpa using hfree w hmem
        · have hv := hfree v hv
          split at hv
          · cases hv
          · exact hv
      · rintro ⟨⟨hmem, hn⟩, hfree⟩
        refine ⟨hn, fun v hv => ?_⟩
        have hne : v ≠ w := by
          rintro rfl
          exact hmem hv
        rw [if_neg hne, hfree v hv]

/-- Added variables are written in their slots, and those of other nodes stay where they are. -/
lemma get?_addProducers {node : String} {vs : List String} {slot : Nat} {ps' : Dict Producer}
    (h : addProducers node slot ps vs = .ok ps') (v : String) :
    ps'.get? v = if v ∈ vs then some ⟨node, slot + vs.idxOf v⟩ else ps.get? v := by
  induction vs generalizing slot ps with
  | nil =>
    cases h
    simp
  | cons w vs ih =>
    have hw : w ∉ vs := (List.nodup_cons.1 (addProducers_ok_iff.1 ⟨ps', h⟩).1).1
    unfold addProducers at h
    split at h
    · cases h
    · rw [ih h, Dict.get?_insert]
      by_cases he : w = v
      · subst he
        simp [hw]
      · simp only [List.mem_cons, Ne.symm he, false_or, List.idxOf_cons_ne vs he]
        congr 3
        omega

/-- The variables of nodes can be added exactly when none is written twice and none has a producer. -/
lemma foldlM_addProducers_ok_iff {ns : List Node} :
    (∃ ps', ns.foldlM (fun ps n => addProducers n.name 0 ps n.outputs) ps = .ok ps') ↔
      (ns.flatMap (·.outputs)).Nodup ∧ ∀ v ∈ ns.flatMap (·.outputs), ps.get? v = none := by
  induction ns generalizing ps with
  | nil => simp [pure, Except.pure]
  | cons n ns ih =>
    have hstep : (∃ ps', (n :: ns).foldlM (fun ps n => addProducers n.name 0 ps n.outputs) ps = .ok ps') ↔
        ∃ mid, addProducers n.name 0 ps n.outputs = .ok mid ∧
          ∃ ps', ns.foldlM (fun ps n => addProducers n.name 0 ps n.outputs) mid = .ok ps' := by
      simp only [List.foldlM_cons, bind_eq_ok]
      exact ⟨fun ⟨ps', mid, hmid, h⟩ => ⟨mid, hmid, ps', h⟩, fun ⟨mid, hmid, ps', h⟩ => ⟨ps', mid, hmid, h⟩⟩
    rw [hstep, List.flatMap_cons, List.nodup_append]
    constructor
    · rintro ⟨mid, hmid, hrest⟩
      obtain ⟨hn, hfree⟩ := addProducers_ok_iff.1 ⟨mid, hmid⟩
      obtain ⟨hns, hfrees⟩ := ih.1 hrest
      -- what the first node writes has a producer by now
      have happart : ∀ v ∈ ns.flatMap (·.outputs), v ∉ n.outputs ∧ ps.get? v = none := by
        intro v hv
        have hget := hfrees v hv
        rw [get?_addProducers hmid] at hget
        split at hget
        · cases hget
        · exact ⟨‹_›, hget⟩
      refine ⟨⟨hn, hns, ?_⟩, fun v hv => (List.mem_append.1 hv).elim (hfree v) fun hv => (happart v hv).2⟩
      rintro v hv _ hw rfl
      exact (happart v hw).1 hv
    · rintro ⟨⟨hn, hns, happart⟩, hfree⟩
      obtain ⟨mid, hmid⟩ := addProducers_ok_iff.2 ⟨hn, fun v hv => hfree v (List.mem_append_left _ hv)⟩
      refine ⟨mid, hmid, ih.2 ⟨hns, fun v hv => ?_⟩⟩
      rw [get?_addProducers hmid, if_neg fun hmem => happart v hmem v hv rfl]
      exact hfree v (List.mem_append_right _ hv)

/-- All variables have producers exactly when none is written twice. -/
lemma producers_ok_iff {nodes : List Node} : (∃ ps, producers nodes = .ok ps) ↔ (nodes.flatMap (·.outputs)).Nodup := by
  have hempty : ∀ v ∈ nodes.flatMap (·.outputs), ({} : Dict Producer).get? v = none := fun _ _ => rfl
  rw [producers, foldlM_addProducers_ok_iff, and_iff_left hempty]

/-- Of the variables that nodes write, each has its writer and its slot there as its producer, and no other variable has
one. -/
lemma get?_producers {nodes : List Node} (h : producers nodes = .ok ps) {v : String} {p : Producer} :
    ps.get? v = some p ↔ ∃ n ∈ nodes, v ∈ n.outputs ∧ p = ⟨n.name, n.outputs.idxOf v⟩ := by
  have hfold : ∀ {ns : List Node} {ps ps' : Dict Producer},
      ns.foldlM (fun ps n => addProducers n.name 0 ps n.outputs) ps = .ok ps' →
        (ps'.get? v = some p ↔ ps.get? v = some p ∨ ∃ n ∈ ns, v ∈ n.outputs ∧ p = ⟨n.name, n.outputs.idxOf v⟩) := by
    intro ns
    induction ns with
    | nil =>
      intro ps ps' h
      cases h
      simp
    | cons n ns ih =>
      intro ps ps' h
      rw [List.foldlM_cons] at h
      obtain ⟨mid, hmid, h⟩ := bind_eq_ok.1 h
      have hfree := (addProducers_ok_iff.1 ⟨mid, hmid⟩).2
      rw [ih h, get?_addProducers hmid, List.exists_mem_cons_iff]
      by_cases hv : v ∈ n.outputs
      · simp [hv, hfree v hv, eq_comm]
      · simp [hv]
  rw [hfold h]
  exact or_iff_right fun hnone => by cases hnone

/-! ### Joining -/

/-- An edge is added, or its two nodes are joined already. -/
lemma joinOnce_cases {e : Edge} (h : joinOnce g e = .ok g') :
    (∃ dag, g.dag.addArc e.src e.dst e = .ok dag ∧ g' = { g with dag }) ∨ g.dag.hasArc e.src e.dst ∧ g' = g := by
  unfold joinOnce at h
  split at h
  · rename_i g₁ hconnect
    cases h
    exact .inl (connect_ok hconnect)
  · rename_i id src dst hconnect
    cases h
    refine .inr ⟨?_, rfl⟩
    unfold connect at hconnect
    split at hconnect
    · cases hconnect
    · split at hconnect
      · cases hconnect
      · split at hconnect
        · cases hconnect
        · rename_i herr
          cases hconnect
          unfold Digraph.addArc at herr
          split at herr
          · cases herr
          · split at herr
            · cases herr
            · split at herr
              · cases herr
              · split at herr
                · assumption
                · split at herr <;> cases herr
  · cases h

/-- Two nodes are joined after an edge between them was added or was there already. -/
lemma joinOnce_ok {e : Edge} (h : joinOnce g e = .ok g') : Extends (· = e) g g' ∧ g'.dag.hasArc e.src e.dst := by
  rcases joinOnce_cases h with ⟨dag, hdag, rfl⟩ | ⟨harc, rfl⟩
  · refine ⟨⟨rfl, Digraph.vertices_addArc hdag, fun a ha => ?_, fun a ha => ?_, fun wf => wf.addArc hdag⟩, ?_⟩
    · show a ∈ dag.arcs
      rw [Digraph.arcs_addArc hdag]
      exact List.mem_append_left _ ha
    · have ha : a ∈ dag.arcs := ha
      rw [Digraph.arcs_addArc hdag, List.mem_append, List.mem_singleton] at ha
      rcases ha with ha | rfl
      · exact .inl ha
      · exact .inr ⟨rfl, rfl⟩
    · exact (Digraph.hasArc_addArc hdag).2 (.inl ⟨rfl, rfl⟩)
  · exact ⟨.refl _, harc⟩

/-- An edge brings a variable from a producer to a node. -/
def Brings (ps : Dict Producer) (node : String) (vs : List String) (e : Edge) : Prop :=
  e.dst = node ∧ e.var ∈ vs ∧ ∃ p, ps.get? e.var = some p ∧ p.node = e.src

/-- A node is joined to the producers of all variables it reads, by edges that bring them. -/
lemma joinInputs_ok {node : String} :
    ∀ {vs : List String} {slot : Nat} {g g' : Graph}, joinInputs ps node slot g vs = .ok g' →
      Extends (Brings ps node vs) g g' ∧ ∀ v ∈ vs, ∃ p, ps.get? v = some p ∧ g'.dag.hasArc p.node node
  | [], slot, g, g', h => by
    cases h
    exact ⟨.refl g, by simp⟩
  | w :: vs, slot, g, g', h => by
    unfold joinInputs at h
    split at h
    · cases h
    · rename_i p hp
      split at h
      · cases h
      · obtain ⟨mid, hmid, h⟩ := bind_eq_ok.1 h
        obtain ⟨hext, harc⟩ := joinOnce_ok hmid
        obtain ⟨hext', hall⟩ := joinInputs_ok h
        refine ⟨(hext.mono ?_).trans (hext'.mono ?_), ?_⟩
        · rintro e rfl
          exact ⟨rfl, List.mem_cons_self, p, hp, rfl⟩
        · exact fun e he => ⟨he.1, List.mem_cons_of_mem _ he.2.1, he.2.2⟩
        · rw [List.forall_mem_cons]
          exact ⟨⟨p, hp, hext'.hasArc harc⟩, hall⟩

/-- The variables of a graph: each is written once, every node is joined to the writers of what it reads, and the edges
carry what is read from where it is written. -/
structure Wired (g : Graph) : Prop where
  once : ∀ {p q : Node} {v}, p ∈ g.nodes → q ∈ g.nodes → v ∈ p.outputs → v ∈ q.outputs → p.name = q.name
  fed : ∀ {n : Node} {v}, n ∈ g.nodes → v ∈ n.inputs → ∃ p ∈ g.nodes, v ∈ p.outputs ∧ g.dag.hasArc p.name n.name
  carried : ∀ a ∈ g.dag.arcs, ∃ p ∈ g.nodes, ∃ n ∈ g.nodes, p.name = a.src ∧ n.name = a.dst ∧ a.val.var ∈ p.outputs ∧
    a.val.var ∈ n.inputs

/-- Only the nodes and edges matter to being wired. -/
lemma Wired.of_dag (h : Wired g) (hdag : g'.dag = g.dag) : Wired g' := by
  have hnodes : g'.nodes = g.nodes := by
    rw [Graph.nodes, Graph.nodes, hdag]
  refine ⟨fun hp hq => h.once (hnodes ▸ hp) (hnodes ▸ hq), fun hn hv => ?_, fun a ha => ?_⟩
  · rw [hnodes, hdag]
    exact h.fed (hnodes ▸ hn) hv
  · rw [hnodes]
    exact h.carried a (hdag ▸ ha)

/-- A graph without edges that is joined becomes wired. -/
lemma join_ok (h : join g = .ok g') (harcs : g.dag.arcs = []) : Extends (fun _ => True) g g' ∧ Wired g' := by
  obtain ⟨ps, hps, h⟩ := bind_eq_ok.1 h
  have hfold : ∀ {ns : List Node} {g g' : Graph},
      ns.foldlM (fun g n => joinInputs ps n.name 0 g n.inputs) g = .ok g' →
      Extends (fun e => ∃ n ∈ ns, Brings ps n.name n.inputs e) g g' ∧
        ∀ n ∈ ns, ∀ v ∈ n.inputs, ∃ p, ps.get? v = some p ∧ g'.dag.hasArc p.node n.name := by
    intro ns
    induction ns with
    | nil =>
      intro g g' h
      cases h
      exact ⟨.refl g, by simp⟩
    | cons n ns ih =>
      intro g g' h
      rw [List.foldlM_cons] at h
      obtain ⟨mid, hmid, h⟩ := bind_eq_ok.1 h
      obtain ⟨hext, hall⟩ := joinInputs_ok hmid
      obtain ⟨hext', hall'⟩ := ih h
      refine ⟨(hext.mono fun e he => ⟨n, List.mem_cons_self, he⟩).trans
        (hext'.mono fun e ⟨m, hm, he⟩ => ⟨m, List.mem_cons_of_mem _ hm, he⟩), ?_⟩
      rw [List.forall_mem_cons]
      refine ⟨fun v hv => ?_, hall'⟩
      obtain ⟨p, hp, harc⟩ := hall v hv
      exact ⟨p, hp, hext'.hasArc harc⟩
  obtain ⟨hext, hall⟩ := hfold h
  have hnodes : g'.nodes = g.nodes := by
    rw [Graph.nodes, Graph.nodes, hext.vertices]
  refine ⟨hext.mono fun _ _ => trivial, ?_, ?_, ?_⟩
  · intro p q v hp hq hvp hvq
    rw [hnodes] at hp hq
    have hp := (get?_producers hps).2 ⟨p, hp, hvp, rfl⟩
    rw [(get?_producers hps).2 ⟨q, hq, hvq, rfl⟩] at hp
    exact (congrArg Producer.node (Option.some.inj hp)).symm
  · intro n v hn hv
    rw [hnodes] at hn ⊢
    obtain ⟨p, hp, harc⟩ := hall n hn v hv
    obtain ⟨m, hm, hvm, rfl⟩ := (get?_producers hps).1 hp
    exact ⟨m, hm, hvm, harc⟩
  · intro a ha
    rw [hnodes]
    rcases hext.arcs a ha with ha | ⟨⟨n, hn, hdst, hvar, p, hp, hsrc⟩, he⟩
    · rw [harcs] at ha
      cases ha
    · obtain ⟨m, hm, hvm, rfl⟩ := (get?_producers hps).1 hp
      have hends : a.src = a.val.src ∧ a.dst = a.val.dst := ⟨congrArg Arc.src he, congrArg Arc.dst he⟩
      exact ⟨m, hm, n, hn, hsrc.trans hends.1.symm, hdst.symm.trans hends.2.symm, hvm, hvar⟩

/-! ### Scales of variables -/

/-- Setting the scales of edges can not fail. -/
lemma scaleEdges_eq (scale : Float32) (es : List Edge) (c : Calibration) :
    scaleEdges c scale es = .ok { c with scales := es.foldl (fun d e => d.insert e.id ⟨[scale], false⟩) c.scales } := by
  induction es generalizing c with
  | nil => rfl
  | cons e es ih =>
    rw [scaleEdges, Calibration.setScale, if_neg (by simp)]
    exact ih _

/-- The scale of a variable can be set exactly when some edge carries it. -/
lemma scaleVar_ok_iff {scale : Float32} : (∃ c', scaleVar g c var scale = .ok c') ↔ ∃ e ∈ g.edges, e.var = var := by
  have hempty : (g.edgesCarrying var).isEmpty = false ↔ ∃ e ∈ g.edges, e.var = var := by
    simp [edgesCarrying]
  rw [scaleVar, ← hempty, scaleEdges_eq]
  cases (g.edgesCarrying var).isEmpty <;> simp

/-- Scaling a variable leaves the layouts alone. -/
lemma layouts_scaleVar {c' : Calibration} {scale : Float32}
    (h : scaleVar g c var scale = .ok c') : c'.layouts = c.layouts := by
  rw [scaleVar, scaleEdges_eq] at h
  split at h
  · cases h
  · cases h
    rfl

/-- The scale of a variable is that of every edge that carries it. -/
lemma scales_scaleVar {c' : Calibration} {scale : Float32} (h : scaleVar g c var scale = .ok c') (id : EdgeId) :
    (∃ e ∈ g.edges, e.var = var ∧ e.id = id ∧ c'.scales.get? id = some ⟨[scale], false⟩) ∨
      (∀ e ∈ g.edges, e.var = var → e.id ≠ id) ∧ c'.scales.get? id = c.scales.get? id := by
  rw [scaleVar, scaleEdges_eq] at h
  split at h
  · cases h
  · cases h
    dsimp only
    rw [Dict.get?_foldl_insert]
    have hmem : ∀ {e}, e ∈ (g.edgesCarrying var).reverse ↔ e ∈ g.edges ∧ e.var = var := by
      simp [edgesCarrying]
    cases hfind : (g.edgesCarrying var).reverse.find? fun e => e.id == id with
    | some e =>
      have he := hmem.1 (List.mem_of_find?_eq_some hfind)
      exact .inl ⟨e, he.1, he.2, by simpa using List.find?_some hfind, rfl⟩
    | none =>
      rw [List.find?_eq_none] at hfind
      exact .inr ⟨fun e he hv => by simpa using hfind e (hmem.2 ⟨he, hv⟩), rfl⟩

/-! ### Freezing -/

/-- The node that is made for a variable from outside. -/
def inputNode (var : String) : Node :=
  { name := var, type := "Input", outputs := [var] }

/-- The graph of the network `n` once it is frozen. -/
structure Frozen (n : Network) (g : Graph) : Prop where
  wellFormed : g.WellFormed
  sound : g.Sound
  nodes : ∀ {k v}, g.node? k = some v → n.graph.node? k = some v ∨ ∃ var ∈ n.build.vars, v = inputNode var
  merges : g.merges = n.graph.merges
  ins : ∀ {k}, k ∈ g.ins → ∀ z, ¬ g.dag.hasArc z k
  outs : g.outs = g.names.filter fun name => (g.dag.succs name).isEmpty
  wired : Wired g

/-- Adding an input inserts its node. -/
lemma addInput_ok (h : addInput g var = .ok g') : g.insertNode (inputNode var) = .ok g' := by
  unfold addInput at h
  split at h
  · rename_i hok
    cases h
    exact hok
  · cases h

/-- What the nodes for the variables from outside add to a graph. -/
lemma foldlM_addInput_ok :
    ∀ {vars : List String} {g g' : Graph}, g.WellFormed → vars.foldlM addInput g = .ok g' →
      g'.WellFormed ∧ g'.dag.arcs = g.dag.arcs ∧ g' = { g with dag := g'.dag } ∧
        ∀ k v, g'.node? k = some v → g.node? k = some v ∨ ∃ var ∈ vars, v = inputNode var
  | [], g, g', wf, h => by
    cases h
    exact ⟨wf, rfl, rfl, fun _ _ h => .inl h⟩
  | var :: vars, g, g', wf, h => by
    rw [List.foldlM_cons] at h
    obtain ⟨mid, hmid, h⟩ := bind_eq_ok.1 h
    have hins := addInput_ok hmid
    obtain ⟨hwf, harcs, hrest, hnodes⟩ := foldlM_addInput_ok (wf.insertNode hins) h
    obtain ⟨dag, hdag, rfl⟩ := insertNode_ok hins
    refine ⟨hwf, harcs.trans (Digraph.arcs_addVertexAt hdag), hrest, fun k v hv => ?_⟩
    rcases hnodes k v hv with hv | ⟨w, hw, he⟩
    · obtain ⟨u, hu, rfl⟩ := Option.map_eq_some_iff.1 hv
      rw [Digraph.vertex?_addVertexAt hdag] at hu
      split at hu
      · cases hu
        exact .inr ⟨var, List.mem_cons_self, rfl⟩
      · exact .inl (Option.map_eq_some_iff.2 ⟨u, hu, rfl⟩)
    · exact .inr ⟨w, List.mem_cons_of_mem _ hw, he⟩

/-- Registering outputs changes the registered edges only. -/
lemma foldlM_registerOut_ok :
    ∀ {outs : List (String × String)} {g g' : Graph}, outs.foldlM registerOut g = .ok g' →
      g' = { g with registered := g'.registered }
  | [], g, g', h => by
    cases h
    rfl
  | out :: outs, g, g', h => by
    rw [List.foldlM_cons] at h
    obtain ⟨mid, hmid, h⟩ := bind_eq_ok.1 h
    have hrest := foldlM_registerOut_ok h
    unfold registerOut at hmid
    split at hmid
    · rename_i hok
      cases hmid
      unfold registerOutput at hok
      split at hok
      · cases hok
        exact hrest
      · cases hok
    · cases hmid

/-- No edge leads to an input of the bound graph. -/
lemma hasArc_bound_ins (wf : g.dag.WellFormed) {k : String} (hk : k ∈ (bound g).ins) (z : String) :
    ¬ g.dag.hasArc z k := by
  intro hz
  have hdeg := (List.mem_filter.1 hk).2
  rw [beq_iff_eq, Digraph.inDegree, List.length_eq_zero_iff] at hdeg
  have hmem := wf.mem_preds.2 hz
  rw [hdeg] at hmem
  cases hmem

/-- The frozen graph, with all its edges registered if they are to be. -/
def sealed (all : Bool) (listed : Graph) : Graph :=
  { (if all then listed.registerAllOutputs else listed) with frozen := true }

/-- Whether some edges are registered or all, the rest of the graph is what joining made of it. -/
lemma sealed_eq {listed : Graph} {outs : List (String × String)} (h : outs.foldlM registerOut (bound g) = .ok listed)
    (all : Bool) : ∃ r, sealed all listed = { bound g with registered := r, frozen := true } := by
  rw [sealed, foldlM_registerOut_ok h]
  split <;> exact ⟨_, rfl⟩

/-- The steps in which the graph, the order and the calibration of a network are worked out. -/
structure Resolves (n : Network) (g : Graph) (order : List String) (c : Calibration) (added joined listed : Graph) :
    Prop where
  vars : n.build.vars.foldlM addInput n.graph = .ok added
  join : Network.join added = .ok joined
  outs : n.build.outs.foldlM registerOut (bound joined) = .ok listed
  graph : g = sealed n.build.registerAll listed
  order : g.order = .ok order
  verify : g.verify = .ok ()
  scales : n.build.varScales.foldlM (fun c q => scaleVar g c q.1 q.2) n.calibration = .ok c

/-- A network is resolved exactly if all steps of it succeed. -/
lemma resolve_ok_iff {order : List String} :
    n.resolve = .ok (g, order, c) ↔ ∃ added joined listed, Resolves n g order c added joined listed := by
  constructor
  · intro h
    obtain ⟨added, hvars, h⟩ := bind_eq_ok.1 h
    obtain ⟨joined, hjoin, h⟩ := bind_eq_ok.1 h
    obtain ⟨listed, houts, h⟩ := bind_eq_ok.1 h
    refine ⟨added, joined, listed, ?_⟩
    dsimp only at h
    split at h
    · cases h
    · rename_i horder
      split at h
      · cases h
      · rename_i hverify
        obtain ⟨c', hscales, h⟩ := bind_eq_ok.1 h
        cases h
        exact ⟨hvars, hjoin, houts, rfl, horder, hverify, hscales⟩
  · rintro ⟨added, joined, listed, h⟩
    refine bind_eq_ok.2 ⟨added, h.vars, bind_eq_ok.2 ⟨joined, h.join, bind_eq_ok.2 ⟨listed, h.outs, ?_⟩⟩⟩
    obtain rfl := h.graph
    have horder : (if n.build.registerAll then listed.registerAllOutputs else listed).order = .ok order := h.order
    have hverify := h.verify
    rw [sealed] at hverify
    dsimp only at hverify ⊢
    rw [horder]
    dsimp only
    rw [hverify]
    exact bind_eq_ok.2 ⟨c, h.scales, rfl⟩

namespace Resolves

variable {n : Network} {g : Graph} {order : List String} {c : Calibration} {added joined listed : Graph}

/-- What a network is resolved to is its frozen graph. -/
lemma frozen (h : Resolves n g order c added joined listed) (wf : n.graph.WellFormed) (harcs : n.graph.dag.arcs = []) :
    Frozen n g := by
  obtain ⟨wf₁, harcs₁, hrest₁, hnodes₁⟩ := foldlM_addInput_ok wf h.vars
  obtain ⟨hext, hwired⟩ := join_ok h.join (harcs₁.trans harcs)
  obtain ⟨r, hr⟩ := sealed_eq h.outs n.build.registerAll
  obtain rfl := h.graph.trans hr
  have hwf : ({ bound joined with registered := r, frozen := true } : Graph).WellFormed :=
    ⟨hext.wellFormed wf₁.dag, fun v hv => wf₁.named v (hext.vertices ▸ hv)⟩
  refine ⟨hwf, hwf.verify_ok_iff.1 h.verify, fun {k v} hv => hnodes₁ k v ?_, ?_,
    hasArc_bound_ins (hext.wellFormed wf₁.dag), rfl, hwired.of_dag rfl⟩
  · have hv : joined.dag.val? k = some v := hv
    rw [Digraph.val?, Digraph.vertex?, hext.vertices] at hv
    exact hv
  · show joined.merges = n.graph.merges
    rw [hext.rest, hrest₁]

end Resolves

/-- The graph of a network without edges is resolved as it should. -/
lemma frozen_resolve {order : List String}
    (h : n.resolve = .ok (g, order, c)) (wf : n.graph.WellFormed) (harcs : n.graph.dag.arcs = []) : Frozen n g := by
  obtain ⟨added, joined, listed, h⟩ := resolve_ok_iff.1 h
  exact h.frozen wf harcs

/-- The order that is worked out is that of the graph. -/
lemma order_resolve {order : List String} (h : n.resolve = .ok (g, order, c)) : g.order = .ok order := by
  obtain ⟨added, joined, listed, h⟩ := resolve_ok_iff.1 h
  exact h.order

/-- Freezing replaces the graph, the calibration and the order. -/
lemma freeze_eq {m : Network} (h : n.freeze = .ok m) :
    n.state = .building ∧ ∃ graph order calibration, n.resolve = .ok (graph, order, calibration) ∧
      m = { n with graph, calibration, order := some order, state := .frozen, build := {}, epoch := n.epoch + 1 } := by
  unfold freeze failing at h
  split at h
  · rename_i r hr
    cases h
    split at hr
    · cases hr
    · rename_i hstate
      obtain ⟨-, -, hr⟩ := bind_eq_ok.1 hr
      obtain ⟨⟨graph, order, calibration⟩, hres, hr⟩ := bind_eq_ok.1 hr
      cases hr
      exact ⟨not_not.1 hstate, graph, order, calibration, hres, rfl⟩
  · cases h

/-- Freezing a network without edges does what it should. -/
lemma freeze_ok {m : Network} (h : n.freeze = .ok m) (wf : n.graph.WellFormed)
    (harcs : n.state = .building → n.graph.dag.arcs = []) :
    n.state = .building ∧ m.state = .frozen ∧ m.build = {} ∧ Frozen n m.graph := by
  obtain ⟨hs, graph, order, calibration, hres, rfl⟩ := freeze_eq h
  exact ⟨hs, rfl, rfl, frozen_resolve hres wf (harcs hs)⟩

end Network

end OpGraph
