import Mathlib
import OpGraph.Proofs.Network.Freeze

/-!
# Joining operators by what they read

Nodes are added behind all others as long as they can be numbered. A graph whose nodes were joined has, from one node to
another, the edge for the first variable that is read there, and nodes can be joined when nothing reads what depends on
it.
-/

namespace OpGraph

open Relation

variable {n m : Node} {g g' : Graph} {ps : Dict Producer}

/-! ### The order of insertion -/

namespace Digraph

variable {α β : Type} {g g' : Digraph α β}

/-- As long as there are numbers left, the vertices have got those below the next one, and as many. -/
def Numbered (g : Digraph α β) : Prop :=
  g.vertices.length < UInt64.size → g.nextSeq.toNat = g.vertices.length ∧ ∀ v ∈ g.vertices, v.seq < g.nextSeq

/-- A vertex whose number is the greatest is placed last. -/
lemma place_eq_append {v : Vertex α} {ws : List (Vertex α)} (h : ∀ w ∈ ws, ¬ v.seq < w.seq) :
    place v ws = ws ++ [v] := by
  induction ws with
  | nil => rfl
  | cons w ws ih =>
    rw [List.forall_mem_cons] at h
    rw [place, if_neg h.1, ih h.2, List.cons_append]

/-- A vertex that gets the next number comes behind all others. -/
lemma Numbered.vertices_addVertexAt (h : g.Numbered) {k : String} {val : α}
    (ha : g.addVertexAt k val g.nextSeq = .ok g')
    (hlen : g.vertices.length < UInt64.size) : g'.vertices = g.vertices ++ [⟨k, val, g.nextSeq⟩] := by
  obtain ⟨-, rfl⟩ := addVertexAt_ok_iff.1 ha
  apply place_eq_append
  intro w hw
  exact UInt64.lt_asymm ((h hlen).2 w hw)

/-- Adding a vertex with the next number keeps the vertices numbered. -/
lemma Numbered.addVertexAt (h : g.Numbered) {k : String} {val : α} (ha : g.addVertexAt k val g.nextSeq = .ok g') :
    g'.Numbered := by
  intro hlen
  have hcount : g'.vertices.length = g.vertices.length + 1 := by
    obtain ⟨-, rfl⟩ := addVertexAt_ok_iff.1 ha
    exact (place_perm _ g.vertices).length_eq
  have hlen' : g.vertices.length < UInt64.size := by omega
  obtain ⟨hnext, hseq⟩ := h hlen'
  have hsucc : g'.nextSeq = g.nextSeq + 1 := by
    obtain ⟨-, rfl⟩ := addVertexAt_ok_iff.1 ha
    exact if_pos (UInt64.le_refl _)
  have hnat : (g.nextSeq + 1).toNat = g.nextSeq.toNat + 1 := by
    rw [UInt64.toNat_add, UInt64.toNat_one, Nat.mod_eq_of_lt]
    show _ < UInt64.size
    omega
  rw [hsucc, hnat, hcount, hnext]
  refine ⟨rfl, fun v hv => ?_⟩
  rw [h.vertices_addVertexAt ha hlen', List.mem_append, List.mem_singleton] at hv
  rw [UInt64.lt_iff_toNat_lt, hnat]
  rcases hv with hv | rfl
  · have hlt := UInt64.lt_iff_toNat_lt.1 (hseq v hv)
    omega
  · exact Nat.lt_succ_self _

end Digraph

namespace Graph

variable {g g' : Graph}

/-- A node can be added to a graph that is not frozen exactly when its name is free. -/
lemma insertNode_ok_iff (hf : g.frozen = false) (hn : n.name ≠ "") :
    (∃ g', g.insertNode n = .ok g') ↔ n.name ∉ g.names := by
  rw [insertNode, if_neg (by simp [hf]), if_neg hn, Digraph.addVertex, Digraph.addVertexAt, names,
    ← Digraph.hasVertex_iff]
  cases g.dag.hasVertex n.name <;> simp

/-- Inserting a node adds it to the others. -/
lemma nodes_insertNode_perm (h : g.insertNode n = .ok g') : g'.nodes.Perm (n :: g.nodes) := by
  obtain ⟨dag, hdag, rfl⟩ := insertNode_ok h
  obtain ⟨-, rfl⟩ := Digraph.addVertexAt_ok_iff.1 hdag
  exact (Digraph.place_perm _ g.dag.vertices).map _

/-- As long as there are numbers left, a node is inserted behind all others. -/
lemma nodes_insertNode (hs : g.dag.Numbered) (h : g.insertNode n = .ok g') (hlen : g.nodes.length < UInt64.size) :
    g'.nodes = g.nodes ++ [n] := by
  obtain ⟨dag, hdag, rfl⟩ := insertNode_ok h
  rw [nodes, List.length_map] at hlen
  rw [nodes, hs.vertices_addVertexAt hdag hlen, List.map_append]
  rfl

/-- Inserting a node keeps the vertices numbered. -/
lemma numbered_insertNode (hs : g.dag.Numbered) (h : g.insertNode n = .ok g') : g'.dag.Numbered := by
  obtain ⟨dag, hdag, rfl⟩ := insertNode_ok h
  exact hs.addVertexAt hdag

/-- Updating a node keeps the vertices numbered. -/
lemma numbered_updateNode (hs : g.dag.Numbered) (name : String) (f : Node → Node) :
    (g.updateNode name f).dag.Numbered := by
  intro hlen
  have hlen : g.dag.vertices.length < UInt64.size := by
    rwa [updateNode, List.length_map] at hlen
  refine ⟨by rw [updateNode, List.length_map]; exact (hs hlen).1, fun v hv => ?_⟩
  obtain ⟨w, hw, rfl⟩ := List.mem_map.1 hv
  have hlt := (hs hlen).2 w hw
  split <;> exact hlt

/-- The names of a graph are those of its nodes. -/
lemma WellFormed.names_eq (wf : g.WellFormed) : g.names = g.nodes.map (·.name) := by
  rw [names, Digraph.keys, nodes, List.map_map]
  exact List.map_congr_left fun v hv => (wf.named v hv).symm

/-- Two nodes with one name are the same. -/
lemma WellFormed.node_unique (wf : g.WellFormed) {k : Node} (hm : m ∈ g.nodes) (hk : k ∈ g.nodes)
    (h : m.name = k.name) : m = k := by
  rw [wf.mem_nodes_iff] at hm hk
  rw [h, hk] at hm
  exact (Option.some.inj hm).symm

/-- Every name is that of a node. -/
lemma WellFormed.exists_node (wf : g.WellFormed) {k : String} (h : k ∈ g.names) : ∃ n ∈ g.nodes, n.name = k := by
  rwa [wf.names_eq, List.mem_map] at h

/-- The edges are those between nodes. -/
lemma WellFormed.mem_edges_iff (wf : g.WellFormed) {e : Edge} :
    e ∈ g.edges ↔ ∃ m ∈ g.nodes, ∃ k ∈ g.nodes, g.edge? m.name k.name = some e := by
  simp only [edges, List.mem_map, wf.dag.mem_arcsBySource, edge?, Option.map_eq_some_iff]
  constructor
  · rintro ⟨a, ha, rfl⟩
    obtain ⟨m, hm, hsrc⟩ := wf.exists_node (wf.dag.src_mem a ha)
    obtain ⟨k, hk, hdst⟩ := wf.exists_node (wf.dag.dst_mem a ha)
    exact ⟨m, hm, k, hk, a, by rw [hsrc, hdst, wf.dag.arc?_of_mem ha], rfl⟩
  · rintro ⟨m, -, k, -, a, ha, rfl⟩
    exact ⟨a, Digraph.mem_of_arc? ha, rfl⟩

end Graph

namespace Network

open OpGraph.Graph

/-! ### Variables from outside -/

/-- The variables from outside can be added exactly when they are different and none is called like a node. -/
lemma foldlM_addInput_ok_iff {vars : List String} (hf : g.frozen = false) (hnamed : "" ∉ vars) :
    (∃ g', vars.foldlM addInput g = .ok g') ↔ vars.Nodup ∧ ∀ v ∈ vars, v ∉ g.names := by
  induction vars generalizing g with
  | nil => simp [pure, Except.pure]
  | cons v vars ih =>
    rw [List.mem_cons, not_or] at hnamed
    have hfirst : ∀ {g'}, addInput g v = .ok g' ↔ g.insertNode (inputNode v) = .ok g' := by
      intro g'
      refine ⟨addInput_ok, fun h => ?_⟩
      unfold addInput
      rw [inputNode] at h
      rw [h]
    have hfree := insertNode_ok_iff hf (n := inputNode v) (Ne.symm hnamed.1)
    rw [List.nodup_cons, List.forall_mem_cons]
    simp only [List.foldlM_cons, bind_eq_ok, hfirst]
    constructor
    · rintro ⟨g', mid, hmid, hrest⟩
      have hv := hfree.1 ⟨mid, hmid⟩
      obtain ⟨dag, hdag, rfl⟩ := insertNode_ok hmid
      obtain ⟨hn, hvars⟩ := (ih (g := { g with dag }) hf hnamed.2).1 ⟨g', hrest⟩
      have hmem := fun {j} => Digraph.mem_keys_addVertexAt hdag (j := j)
      refine ⟨⟨fun hdup => hvars v hdup (hmem.2 (.inl rfl)), hn⟩, hv, fun w hw hold => hvars w hw (hmem.2 (.inr hold))⟩
    · rintro ⟨⟨hdup, hn⟩, hv, hvars⟩
      obtain ⟨mid, hmid⟩ := hfree.2 hv
      obtain ⟨dag, hdag, rfl⟩ := insertNode_ok hmid
      have hrest : ∀ w ∈ vars, w ∉ ({ g with dag } : Graph).names := by
        intro w hw hmem
        rcases (Digraph.mem_keys_addVertexAt hdag).1 hmem with rfl | hold
        · exact hdup hw
        · exact hvars w hw hold
      obtain ⟨g', hg'⟩ := (ih (g := { g with dag }) hf hnamed.2).2 ⟨hn, hrest⟩
      exact ⟨g', _, hmid, hg'⟩

/-- The nodes of the variables from outside come behind the others. -/
lemma nodes_foldlM_addInput {vars : List String} (h : vars.foldlM addInput g = .ok g') :
    g'.nodes.Perm (g.nodes ++ vars.map inputNode) ∧
      (g.dag.Numbered → (g.nodes ++ vars.map inputNode).length ≤ UInt64.size →
      g'.nodes = g.nodes ++ vars.map inputNode) := by
  induction vars generalizing g with
  | nil =>
    cases h
    simp
  | cons v vars ih =>
    rw [List.foldlM_cons] at h
    obtain ⟨mid, hmid, h⟩ := bind_eq_ok.1 h
    have hins := addInput_ok hmid
    obtain ⟨hperm, heq⟩ := ih h
    constructor
    · refine hperm.trans ?_
      rw [List.map_cons]
      exact ((nodes_insertNode_perm hins).append_right _).trans List.perm_middle.symm
    · intro hnum hlen
      have hlt : g.nodes.length < UInt64.size := by
        rw [List.length_append, List.map_cons, List.length_cons] at hlen
        omega
      have hmid := nodes_insertNode hnum hins hlt
      rw [hmid, List.append_assoc] at heq
      exact heq (numbered_insertNode hnum hins) hlen

/-! ### Joining -/

/-- The first variable a node reads of those that another one writes. -/
def firstRead (m k : Node) : Option String :=
  k.inputs.find? (m.outputs.contains ·)

/-- The edge that takes that variable from its slot in the one node to its slot in the other. -/
def joining (m k : Node) : Option Edge :=
  (firstRead m k).map fun v =>
    { src := m.name, dst := k.name, srcSlot := m.outputs.idxOf v, dstSlot := k.inputs.idxOf v, var := v }

/-- Of the given nodes, the one of the first name writes a variable that the one of the second name reads. -/
def Passes (ns : List Node) (a b : String) : Prop :=
  ∃ m ∈ ns, ∃ k ∈ ns, m.name = a ∧ k.name = b ∧ ∃ v ∈ k.inputs, v ∈ m.outputs

/-- A node reads from another exactly if it reads a variable that the other one writes. -/
lemma firstRead_isSome_iff {k : Node} : (firstRead m k).isSome ↔ ∃ v ∈ k.inputs, v ∈ m.outputs := by
  simp [firstRead, List.find?_isSome]

/-- Two nodes are joined exactly if one reads from the other. -/
lemma joining_isSome (m k : Node) : (joining m k).isSome = (firstRead m k).isSome :=
  Option.isSome_map

/-- Who passes variables to whom depends on which nodes there are only. -/
lemma Passes.congr {ns ns' : List Node} (h : ∀ k, k ∈ ns ↔ k ∈ ns') : Passes ns = Passes ns' := by
  funext a b
  simp only [Passes, h]

/-- The edge between two nodes once an edge was added unless there was one. -/
lemma edge?_joinOnce {e : Edge} (h : joinOnce g e = .ok g') (x y : String) :
    g'.edge? x y = (g.edge? x y).or (if e.src = x ∧ e.dst = y then some e else none) := by
  rcases joinOnce_cases h with ⟨dag, hdag, rfl⟩ | ⟨harc, rfl⟩
  · rw [edge?, edge?, Digraph.arc?, Digraph.arc?, Digraph.arcs_addArc hdag, List.find?_append, List.find?_singleton,
      Option.map_or]
    congr 1
    by_cases hxy : e.src = x ∧ e.dst = y
    · simp [hxy]
    · rw [if_neg hxy, if_neg (by simpa using hxy)]
      rfl
  · split
    · rename_i hxy
      obtain ⟨a, ha⟩ := Digraph.hasArc_iff_exists.1 harc
      rw [edge?, ← hxy.1, ← hxy.2, ha]
      rfl
    · rw [Option.or_none]

/-- The producers of the variables that a node writes. -/
def Supplies (ps : Dict Producer) (m : Node) : Prop :=
  ∀ v p, ps.get? v = some p → (p.node = m.name ↔ v ∈ m.outputs) ∧ (v ∈ m.outputs → p.slot = m.outputs.idxOf v)

/-- The edge from a node to one that was joined to the producers of what it reads from a slot on: the first variable
that comes from there makes it, unless there was one. -/
lemma edge?_joinInputs (hm : Supplies ps m) {node : String} {vs : List String}
    {slot : Nat} (h : joinInputs ps node slot g vs = .ok g') :
    g'.edge? m.name node = (g.edge? m.name node).or ((vs.find? (m.outputs.contains ·)).map fun v =>
      { src := m.name, dst := node, srcSlot := m.outputs.idxOf v, dstSlot := (slot + vs.idxOf v : Nat),
        var := v }) := by
  induction vs generalizing slot g with
  | nil =>
    cases h
    simp
  | cons w vs ih =>
    unfold joinInputs at h
    split at h
    · cases h
    · rename_i p hp
      split at h
      · cases h
      · obtain ⟨mid, hmid, h⟩ := bind_eq_ok.1 h
        rw [ih h, edge?_joinOnce hmid]
        obtain ⟨hnode, hslot⟩ := hm w p hp
        by_cases hw : w ∈ m.outputs
        · rw [if_pos ⟨hnode.2 hw, rfl⟩, List.find?_cons_of_pos (by simpa using hw)]
          simp [hnode.2 hw, hslot hw]
        · rw [if_neg fun hends => hw (hnode.1 hends.1), Option.or_none, List.find?_cons_of_neg (by simpa using hw)]
          congr 1
          apply Option.map_congr
          intro v hv
          have hne : w ≠ v := by
            rintro rfl
            exact hw (by simpa using List.find?_some hv)
          rw [List.idxOf_cons_ne vs hne]
          congr 2
          omega

/-- Joining the inputs of a node leaves the edges to other nodes. -/
lemma edge?_joinInputs_of_ne {node y : String} (hy : node ≠ y) {vs : List String} {slot : Nat}
    (h : joinInputs ps node slot g vs = .ok g') (x : String) : g'.edge? x y = g.edge? x y := by
  induction vs generalizing slot g with
  | nil =>
    cases h
    rfl
  | cons w vs ih =>
    unfold joinInputs at h
    split at h
    · cases h
    · split at h
      · cases h
      · obtain ⟨mid, hmid, h⟩ := bind_eq_ok.1 h
        rw [ih h, edge?_joinOnce hmid, if_neg fun hends => hy hends.2, Option.or_none]

/-- Once all nodes were joined, the edge from one to another takes the first variable that is read. -/
lemma edge?_foldlM_joinInputs (hm : Supplies ps m) {ns : List Node}
    (hn : (ns.map (·.name)).Nodup) (h : ns.foldlM (fun g k => joinInputs ps k.name 0 g k.inputs) g = .ok g') :
    (∀ k ∈ ns, g'.edge? m.name k.name = (g.edge? m.name k.name).or (joining m k)) ∧
      ∀ y, y ∉ ns.map (·.name) → g'.edge? m.name y = g.edge? m.name y := by
  induction ns generalizing g with
  | nil =>
    cases h
    simp
  | cons j ns ih =>
    rw [List.map_cons, List.nodup_cons] at hn
    rw [List.foldlM_cons] at h
    obtain ⟨mid, hmid, h⟩ := bind_eq_ok.1 h
    obtain ⟨hjoined, hrest⟩ := ih hn.2 h
    constructor
    · rw [List.forall_mem_cons]
      refine ⟨?_, fun k hk => ?_⟩
      · rw [hrest _ hn.1, edge?_joinInputs hm hmid]
        simp only [Nat.zero_add]
        rfl
      · have hne : j.name ≠ k.name := fun he => hn.1 (he ▸ List.mem_map_of_mem hk)
        rw [hjoined k hk, edge?_joinInputs_of_ne hne hmid]
    · intro y hy
      rw [List.map_cons, List.mem_cons, not_or] at hy
      rw [hrest y hy.2, edge?_joinInputs_of_ne (Ne.symm hy.1) hmid]

/-- The producers of a graph supply what its nodes write. -/
lemma supplies_producers (wf : g.WellFormed) (h : producers g.nodes = .ok ps) (hm : m ∈ g.nodes) : Supplies ps m := by
  intro v p hp
  obtain ⟨k, hk, hv, rfl⟩ := (get?_producers h).1 hp
  constructor
  · constructor
    · intro hname
      rwa [← wf.node_unique hk hm hname]
    · intro hvm
      have hp' := (get?_producers h).2 ⟨m, hm, hvm, rfl⟩
      rw [hp] at hp'
      exact congrArg Producer.node (Option.some.inj hp')
  · intro hvm
    have hp' := (get?_producers h).2 ⟨m, hm, hvm, rfl⟩
    rw [hp] at hp'
    exact congrArg Producer.slot (Option.some.inj hp')

/-- In a graph without edges whose nodes were joined, the edges are those that take what is read first. -/
lemma edge?_join (wf : g.WellFormed) (harcs : g.dag.arcs = []) (h : join g = .ok g') {k : Node}
    (hm : m ∈ g.nodes) (hk : k ∈ g.nodes) : g'.edge? m.name k.name = joining m k := by
  obtain ⟨ps, hps, h⟩ := bind_eq_ok.1 h
  have hn : (g.nodes.map (·.name)).Nodup := by
    rw [← wf.names_eq]
    exact wf.dag.keys_nodup
  rw [(edge?_foldlM_joinInputs (supplies_producers wf hps hm) hn h).1 k hk, edge?, Digraph.arc?, harcs]
  rfl

/-- A graph that can be added to, with edges of a relation only. -/
structure Within (r : String → String → Prop) (g : Graph) : Prop where
  wellFormed : g.dag.WellFormed
  thawed : g.frozen = false
  within : ∀ x y, g.dag.Adj x y → r x y

/-- Edges of a relation can be added to a graph with edges of the relation. -/
lemma Within.extends {r : String → String → Prop} {fresh : Edge → Prop} (h : Within r g)
    (he : Extends fresh g g') (hfresh : ∀ e, fresh e → r e.src e.dst) : Within r g' where
  wellFormed := he.wellFormed h.wellFormed
  thawed := by
    rw [he.rest]
    exact h.thawed
  within := by
    intro x y hxy
    obtain ⟨a, ha, rfl, rfl⟩ := Digraph.hasArc_iff.1 hxy
    rcases he.arcs a ha with ha | ⟨hf, heq⟩
    · exact h.within _ _ (Digraph.hasArc_of_mem ha)
    · rw [heq]
      exact hfresh _ hf

section Acyclic

variable {r : String → String → Prop} (hr : ∀ x, ¬ TransGen r x x)

include hr

/-- An edge of a relation without cycles can be added unless there is one. -/
lemma joinOnce_ok_of_acyclic (h : Within r g) {e : Edge} (hslots : 0 ≤ e.srcSlot ∧ 0 ≤ e.dstSlot)
    (hs : e.src ∈ g.names) (hd : e.dst ∈ g.names) (he : r e.src e.dst) : ∃ g', joinOnce g e = .ok g' := by
  have hslots : ¬ (decide (e.srcSlot < 0) || decide (e.dstSlot < 0)) = true := by
    simpa using hslots
  unfold joinOnce connect
  rw [if_neg (by simp [h.thawed]), if_neg hslots]
  rcases h.wellFormed.addArc_of_acyclic hr h.within (Digraph.hasVertex_iff.2 hs) (Digraph.hasVertex_iff.2 hd) he e with
    ⟨-, herr⟩ | ⟨-, dag, hok⟩
  · rw [herr]
    exact ⟨g, rfl⟩
  · rw [hok]
    exact ⟨_, rfl⟩

/-- The inputs of a node can be joined to their producers if the relation has no cycle. -/
lemma joinInputs_ok_of_acyclic {node : String} {vs : List String} (slot : Nat) (h : Within r g) (hnode : node ∈ g.names)
    (hvs : ∀ v ∈ vs, ∃ p, ps.get? v = some p ∧ p.node ∈ g.names ∧ r p.node node) :
    ∃ g', joinInputs ps node slot g vs = .ok g' := by
  induction vs generalizing slot g with
  | nil => exact ⟨g, rfl⟩
  | cons w vs ih =>
    rw [List.forall_mem_cons] at hvs
    obtain ⟨⟨p, hp, hmem, hrel⟩, hvs⟩ := hvs
    have hne : p.node ≠ node := fun he => hr node (.single (he ▸ hrel))
    obtain ⟨mid, hmid⟩ := joinOnce_ok_of_acyclic hr h
      (e := { src := p.node, dst := node, srcSlot := p.slot, dstSlot := slot, var := w })
      ⟨Int.natCast_nonneg _, Int.natCast_nonneg _⟩ hmem hnode hrel
    have hext := (joinOnce_ok hmid).1
    have hnames : mid.names = g.names := by
      rw [names, names, Digraph.keys, Digraph.keys, hext.vertices]
    obtain ⟨g', hg'⟩ := ih (slot + 1) (h.extends hext fun e he => he ▸ hrel) (hnames ▸ hnode) fun v hv => by
      rw [hnames]
      exact hvs v hv
    refine ⟨g', ?_⟩
    unfold joinInputs
    rw [hp]
    dsimp only
    rw [if_neg hne]
    exact bind_eq_ok.2 ⟨mid, hmid, hg'⟩

end Acyclic

/-- The nodes of a graph can be joined when no variable is written twice, every variable that is read is written, and
nothing reads what depends on it. -/
lemma join_ok_of_acyclic (wf : g.WellFormed) (hf : g.frozen = false) (harcs : g.dag.arcs = [])
    (honce : (g.nodes.flatMap (·.outputs)).Nodup) (hdef : ∀ k ∈ g.nodes, ∀ v ∈ k.inputs, ∃ m ∈ g.nodes, v ∈ m.outputs)
    (hac : ∀ a, ¬ TransGen (Passes g.nodes) a a) : ∃ g', join g = .ok g' := by
  obtain ⟨ps, hps⟩ := producers_ok_iff.2 honce
  have hname : ∀ k ∈ g.nodes, k.name ∈ g.names := by
    intro k hk
    rw [wf.names_eq]
    exact List.mem_map_of_mem hk
  -- every node finds the graph as it needs it: its edges are those of the relation
  have hfold : ∀ {ns : List Node} {h : Graph}, (∀ k ∈ ns, k ∈ g.nodes) → Within (Passes g.nodes) h → h.names = g.names →
      ∃ h', ns.foldlM (fun h k => joinInputs ps k.name 0 h k.inputs) h = .ok h' := by
    intro ns
    induction ns with
    | nil => exact fun _ _ _ => ⟨_, rfl⟩
    | cons k ns ih =>
      intro h hns hw hnames
      rw [List.forall_mem_cons] at hns
      have hreads : ∀ v ∈ k.inputs, ∃ p, ps.get? v = some p ∧ p.node ∈ h.names ∧ Passes g.nodes p.node k.name := by
        intro v hv
        obtain ⟨m, hm, hvm⟩ := hdef k hns.1 v hv
        refine ⟨_, (get?_producers hps).2 ⟨m, hm, hvm, rfl⟩, ?_, m, hm, k, hns.1, rfl, rfl, v, hv, hvm⟩
        rw [hnames]
        exact hname m hm
      obtain ⟨mid, hmid⟩ := joinInputs_ok_of_acyclic hac 0 hw (hnames ▸ hname k hns.1) hreads
      have hext := (joinInputs_ok hmid).1
      have hmidw : Within (Passes g.nodes) mid := by
        refine hw.extends hext fun e he => ?_
        obtain ⟨hdst, hvar, p, hp, hsrc⟩ := he
        obtain ⟨q, hq, -, hpasses⟩ := hreads _ hvar
        rw [hp] at hq
        cases hq
        rwa [hdst, ← hsrc]
      have hmidn : mid.names = g.names := by
        rw [← hnames, names, names, Digraph.keys, Digraph.keys, hext.vertices]
      obtain ⟨h', hh'⟩ := ih hns.2 hmidw hmidn
      exact ⟨h', bind_eq_ok.2 ⟨mid, hmid, hh'⟩⟩
  have hnone : ∀ x y, ¬ g.dag.Adj x y := by
    intro x y hxy
    obtain ⟨a, ha, -⟩ := Digraph.hasArc_iff.1 hxy
    rw [harcs] at ha
    cases ha
  obtain ⟨g', hg'⟩ := hfold (fun _ hk => hk) ⟨wf.dag, hf, fun x y hxy => absurd hxy (hnone x y)⟩ rfl
  exact ⟨g', bind_eq_ok.2 ⟨ps, hps, hg'⟩⟩

end Network

end OpGraph
