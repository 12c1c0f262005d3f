import Mathlib
import OpGraph.Proofs.Sandbox.Border
import OpGraph.Proofs.Sandbox.Renames

/-!
# Committing a sandbox

The patch of a sandbox that edits led to is made for the graph it was taken from: every edge and node it takes out is
there, and every node it puts in is new. What can go wrong is that the edges it puts in close a cycle through nodes
outside of the region, and that the sandbox dangles: a registered edge was moved to where no edge is any more, or an
input or a fused node is gone. The first is reported, the second aborts, and otherwise the graph becomes the sandbox.
-/

namespace OpGraph.Sandbox

/-- What holds of a sandbox that edits made from the copy `o` of a graph. -/
structure Edited (g : Graph) (o s : Sandbox) : Prop where
  copied : Copied g o
  tracks : Tracks g o s
  settled : Settled g s
  bordered : Bordered g s
  recorded : Recorded g s
  retired : Retired o s

namespace Edited

variable {g : Graph} {o s t : Sandbox}

lemma copy {g : Graph} (hg : g.Regular) (region : Option (List String)) :
    Edited g (Sandbox.copy g region) (Sandbox.copy g region) :=
  ⟨copied_copy hg region, .copy hg region, .copy hg region, .copy hg region,
    .copy g region, by simp [Retired, Sandbox.copy]⟩

/-- A sandbox that one more edit succeeds on is still an edited one. -/
lemma edit (h : Edited g o s) {e : Edit} (haf : e.ArrowFree) (he : s.edit e = .ok t) : Edited g o t where
  copied := h.copied
  tracks := h.tracks.edit h.copied haf he
  settled := h.settled.edit h.tracks h.copied haf he
  bordered := h.bordered.edit h.tracks h.copied haf he
  recorded := h.recorded.edit h.tracks.toRoster h.copied.regular.sound he
  retired := h.retired.edit h.tracks.toRoster he

/-- A sandbox on which a list of edits was performed is still an edited one. -/
lemma performAll (h : Edited g o s) {es : List Edit} (haf : ∀ e ∈ es, e.ArrowFree) : Edited g o (s.performAll es) :=
  performAll_induct (fun _ e _ hmem h he => h.edit (haf e hmem) he) h

end Edited

/-! ### Nodes and edges -/

namespace Roster

variable {g : Graph} {o s : Sandbox}

/-- The nodes that the patch adds are those that were added to the sandbox. -/
lemma names_addNodes (h : Roster g o s) : s.patch.addNodes.map (·.node.name) = s.added := by
  have hmap : ∀ names : List String, (∀ k ∈ names, k ∈ s.dag.keys) →
      (names.filterMap fun k => (s.dag.vertex? k).map fun v => (⟨v.val, v.seq⟩ : PlacedNode)).map (·.node.name) =
        names := by
    intro names hk
    induction names with
    | nil => rfl
    | cons k names ih =>
      rw [List.forall_mem_cons] at hk
      obtain ⟨v, hv⟩ := Digraph.hasVertex_iff_exists.1 (Digraph.hasVertex_iff.2 hk.1)
      have hname : v.val.name = k :=
        (h.named v (Digraph.mem_of_vertex? hv)).trans (Digraph.key_of_vertex? hv)
      rw [List.filterMap_cons, hv, Option.map_some]
      dsimp only
      rw [List.map_cons, ih hk.2, hname]
  exact hmap s.added fun k hk => (h.added k hk).1

/-- What the patch puts in under a name. -/
lemma find?_addNodes (h : Roster g o s) (k : String) :
    ((s.patch.addNodes.find? (·.node.name == k)).map fun p => (⟨k, p.node, p.seq⟩ : Vertex Node)) =
      if k ∈ s.added then s.dag.vertex? k else none := by
  have hnd : (s.patch.addNodes.map (·.node.name)).Nodup := h.names_addNodes.symm ▸ h.added_nodup
  by_cases hk : k ∈ s.added
  · obtain ⟨v, hv⟩ := Digraph.hasVertex_iff_exists.1 (Digraph.hasVertex_iff.2 (h.added k hk).1)
    have hkey := Digraph.key_of_vertex? hv
    have hname : v.val.name = k := (h.named v (Digraph.mem_of_vertex? hv)).trans hkey
    have hmem : (⟨v.val, v.seq⟩ : PlacedNode) ∈ s.patch.addNodes :=
      List.mem_filterMap.2 ⟨k, hk, by rw [hv]; rfl⟩
    have hfind := Digraph.find?_eq_some_of_nodup (fun p : PlacedNode => p.node.name) hnd hmem
    dsimp only at hfind
    rw [hname] at hfind
    rw [hfind, if_pos hk, hv, ← hkey]
    rfl
  · rw [if_neg hk, List.find?_eq_none.2]
    · rfl
    · intro p hp he
      rw [← h.names_addNodes] at hk
      exact hk (List.mem_map.2 ⟨p, hp, by simpa using he⟩)

/-- The nodes that the patch replaces are those of the sandbox that were modified. -/
lemma names_replaceNodes (h : Roster g o s) :
    s.patch.replaceNodes.map (·.name) = s.dag.keys.filter fun k => s.modified.contains k := by
  rw [Digraph.keys, List.filter_map]
  simp only [patch, List.map_map]
  refine List.map_congr_left fun v hv => ?_
  exact h.named v (List.mem_of_mem_filter hv)

/-- What the patch puts in the place of a payload. -/
lemma find?_replaceNodes (h : Roster g o s) (k : String) :
    s.patch.replaceNodes.find? (·.name == k) = if s.modified.contains k then s.node? k else none := by
  have hnd : (s.patch.replaceNodes.map (·.name)).Nodup := h.names_replaceNodes.symm ▸ h.wellFormed.keys_nodup.filter _
  by_cases hk : s.modified.contains k
  · obtain ⟨v, hv⟩ := Digraph.hasVertex_iff_exists.1 (Digraph.hasVertex_iff.2 (h.modified k hk).1)
    have hkey := Digraph.key_of_vertex? hv
    have hname : v.val.name = k := (h.named v (Digraph.mem_of_vertex? hv)).trans hkey
    have hmem : v.val ∈ s.patch.replaceNodes :=
      List.mem_map.2 ⟨v, List.mem_filter.2 ⟨Digraph.mem_of_vertex? hv, by rw [hkey]; exact hk⟩, rfl⟩
    have hfind := Digraph.find?_eq_some_of_nodup (fun n : Node => n.name) hnd hmem
    rw [hname] at hfind
    rw [hfind, if_pos hk, node?, Digraph.val?, hv]
    rfl
  · rw [if_neg hk, List.find?_eq_none]
    intro n hn he
    have hmem : k ∈ s.patch.replaceNodes.map (·.name) := List.mem_map.2 ⟨n, hn, by simpa using he⟩
    rw [h.names_replaceNodes, List.mem_filter] at hmem
    exact hk hmem.2

end Roster

namespace Tracks

variable {g : Graph} {o s : Sandbox}

/-- An edge of the graph at a node that is taken out is taken out as well. -/
lemma removedEdges_of_removed (h : Tracks g o s) (hc : Copied g o) {a : Arc Edge} (ha : a ∈ g.dag.arcs)
    (hs : ¬ s.Stays a) : EdgeId.arc a.src a.dst ∈ s.removedEdges := by
  refine (h.removedEdges _).2 ⟨a, hc.complete a ha ?_, hs, rfl⟩
  rw [Stays, not_and_or, not_not, not_not] at hs
  exact hs.imp (fun hr => ⟨(h.removed _ hr).1, (h.removed _ hr).2.1⟩)
    fun hr => ⟨(h.removed _ hr).1, (h.removed _ hr).2.1⟩

/-- An edge of the sandbox is new exactly when the graph does not join its two nodes. -/
lemma baseEdges_iff (h : Tracks g o s) (hc : Copied g o) {a : Arc Edge} (ha : a ∈ s.dag.arcs) :
    s.baseEdges.contains (EdgeId.arc a.src a.dst) ↔ g.dag.hasArc a.src a.dst := by
  rw [h.baseEdges]
  constructor
  · rintro ⟨b, hb, -, he⟩
    obtain ⟨hs, hd⟩ := (EdgeId.arc_inj (h.arrowFree_live (h.wellFormed.src_mem a ha))
      (hc.regular.arrowFree_src (hc.arcs b hb))).1 he
    rw [hs, hd]
    exact Digraph.hasArc_of_mem (hc.arcs b hb)
  · intro hg
    obtain ⟨ho, hs⟩ := h.stays_of_mem_arcs ha hg
    exact ⟨a, ho, hs, rfl⟩

/-- The edges that the patch puts in. -/
lemma addEdges_eq (h : Tracks g o s) (hc : Copied g o) :
    s.patch.addEdges.map Edge.toArc = s.dag.arcsBySource.filter fun a => !g.dag.hasArc a.src a.dst := by
  have hpay : ∀ a ∈ s.dag.arcsBySource, a.val.toArc = a := fun a ha =>
    h.toArc_val (h.wellFormed.mem_arcsBySource.1 ha)
  have hedges : s.patch.addEdges = s.edges.filter fun e => !s.baseEdges.contains e.id := rfl
  rw [hedges, edges, List.filter_map, List.map_map]
  have hfilter : s.dag.arcsBySource.filter ((fun e => !s.baseEdges.contains e.id) ∘ fun a => a.val) =
      s.dag.arcsBySource.filter fun a => !g.dag.hasArc a.src a.dst := by
    refine List.filter_congr fun a ha => ?_
    have ha' := h.wellFormed.mem_arcsBySource.1 ha
    have hid : a.val.id = EdgeId.arc a.src a.dst := by
      rw [Edge.id, (h.payload a ha').1, (h.payload a ha').2]
    rw [Function.comp_apply, hid, Bool.eq_iff_iff]
    simp only [Bool.not_eq_true', Bool.eq_false_iff, ne_eq, h.baseEdges_iff hc ha']
  rw [hfilter]
  conv_rhs => rw [← List.map_id (List.filter _ _)]
  exact List.map_congr_left fun a ha => hpay a (List.mem_of_mem_filter ha)

/-- A node of the sandbox that was not made here is one of the graph, in its place and but for a change of its payload
that was noted. -/
lemma vertex_of_graph (h : Tracks g o s) (hc : Copied g o) {k : String} (hk : k ∈ s.dag.keys) (ha : k ∉ s.added) :
    ∃ v w, s.dag.vertex? k = some v ∧ g.dag.vertex? k = some w ∧ v = { w with val := v.val } ∧
      (¬ s.modified.contains k → v = w) := by
  obtain ⟨v, hv⟩ := Digraph.hasVertex_iff_exists.1 (Digraph.hasVertex_iff.2 hk)
  obtain ⟨w, hw, hseq, hval⟩ := h.vertex hv ha
  refine ⟨v, w, hv, hc.vertex hw, ?_, hval⟩
  have hkey : v.key = w.key := (Digraph.key_of_vertex? hv).trans (Digraph.key_of_vertex? hw).symm
  rw [← hkey, ← hseq]

/-- The node of a name once the patch has changed the nodes. -/
lemma patched_vertex (h : Tracks g o s) (hc : Copied g o) (k : String) :
    (((if k ∈ s.added then s.dag.vertex? k else none).or
      (if k ∈ s.removedNodes then none else g.dag.vertex? k)).map fun v =>
        { v with val := (if s.modified.contains k then s.node? k else none).getD v.val }) =
      if k ∈ s.removedNodes then none else (s.dag.vertex? k).or (g.dag.vertex? k) := by
  by_cases hk : k ∈ s.dag.keys
  · have hr : k ∉ s.removedNodes := fun hr => (h.removed k hr).2.2 hk
    by_cases ha : k ∈ s.added
    · have hm : ¬ s.modified.contains k := fun hm => (h.modified k hm).2 ha
      obtain ⟨v, hv⟩ := Digraph.hasVertex_iff_exists.1 (Digraph.hasVertex_iff.2 hk)
      simp [ha, hr, hm, hv]
    · obtain ⟨v, w, hv, hw, hvw, hsame⟩ := h.vertex_of_graph hc hk ha
      by_cases hm : s.modified.contains k
      · have hnode : s.node? k = some v.val := by rw [node?, Digraph.val?, hv, Option.map_some]
        simp [ha, hr, hm, hv, hw, hnode, ← hvw]
      · simp [ha, hr, hm, hv, hw, hsame hm]
  · have ha : k ∉ s.added := fun ha => hk (h.added k ha).1
    have hm : ¬ s.modified.contains k := fun hm => hk (h.modified k hm).1
    simp [ha, hm, Digraph.vertex?_eq_none_iff.2 hk]

/-- The patch takes out and puts in its nodes and takes out its edges without fail. What is left to do is to put in
the new edges. -/
lemma patchTopology_eq (h : Tracks g o s) (hc : Copied g o) :
    ∃ dag, dag.WellFormed ∧
      dag.arcs = (g.dag.arcs.filter fun a => EdgeId.arc a.src a.dst ∉ s.removedEdges) ∧
      (∀ k, dag.vertex? k = if k ∈ s.removedNodes then none else (s.dag.vertex? k).or (g.dag.vertex? k)) ∧
      Graph.patchTopology g.dag s.patch = s.patch.addEdges.foldlM Graph.patchInEdge dag := by
  have hg := hc.regular
  obtain ⟨dag₁, hok₁, hwf₁, harcs₁, hvertices₁⟩ := Graph.patchOutEdges_ok hg.dag (fun a ha => hg.arrowFree_src ha)
    h.removedEdges_nodup fun id hid => by
      obtain ⟨a, ha, -, rfl⟩ := (h.removedEdges id).1 hid
      exact ⟨a, hc.arcs a ha, rfl⟩
  have hkeys₁ : dag₁.keys = g.dag.keys := by rw [Digraph.keys, hvertices₁, Digraph.keys]
  obtain ⟨dag₂, hok₂, hwf₂, harcs₂, hvertex₂⟩ := Graph.patchOutNodes_ok hwf₁ h.removed_nodup
    (fun k hk => hkeys₁ ▸ hc.mem_keys (h.removed k hk).1) fun a ha => by
      rw [harcs₁, List.mem_filter] at ha
      by_contra hs
      exact of_decide_eq_true ha.2 (h.removedEdges_of_removed hc ha.1 hs)
  have hvertex₂ : ∀ k, dag₂.vertex? k = if k ∈ s.removedNodes then none else g.dag.vertex? k := by
    intro k
    rw [hvertex₂, Digraph.vertex?, hvertices₁, Digraph.vertex?]
  obtain ⟨dag₃, hok₃, hwf₃, harcs₃, hvertex₃⟩ := Graph.patchInNodes_ok hwf₂ (h.names_addNodes ▸ h.added_nodup)
    fun p hp hk => by
      have hadd : p.node.name ∈ s.added := h.names_addNodes ▸ List.mem_map.2 ⟨p, hp, rfl⟩
      obtain ⟨v, hv⟩ := Digraph.hasVertex_iff_exists.1 (Digraph.hasVertex_iff.2 hk)
      rw [hvertex₂] at hv
      split at hv
      · cases hv
      · exact (h.added _ hadd).2 (Digraph.hasVertex_iff.1 (Digraph.hasVertex_iff_exists.2 ⟨v, hv⟩))
  have hvertex₃ : ∀ k, dag₃.vertex? k =
      (if k ∈ s.added then s.dag.vertex? k else none).or (if k ∈ s.removedNodes then none else g.dag.vertex? k) := by
    intro k
    rw [hvertex₃, h.find?_addNodes, hvertex₂]
  obtain ⟨dag₄, hok₄, hwf₄, harcs₄, hvertex₄⟩ := Graph.patchNodes_ok hwf₃
    (h.names_replaceNodes ▸ h.wellFormed.keys_nodup.filter _) fun n hn => by
      have hmem : n.name ∈ s.patch.replaceNodes.map (·.name) := List.mem_map.2 ⟨n, hn, rfl⟩
      rw [h.names_replaceNodes, List.mem_filter] at hmem
      obtain ⟨v, w, -, hw, -⟩ := h.vertex_of_graph hc hmem.1 (h.modified _ hmem.2).2
      have hr : n.name ∉ s.removedNodes := fun hr => (h.removed _ hr).2.2 hmem.1
      rw [← Digraph.hasVertex_iff, Digraph.hasVertex, hvertex₃]
      simp [hr, hw]
  refine ⟨dag₄, hwf₄, by rw [harcs₄, harcs₃, harcs₂, harcs₁], fun k => ?_, ?_⟩
  · rw [hvertex₄, h.find?_replaceNodes, hvertex₃, h.patched_vertex hc]
  · have hout : s.patch.removeEdges.foldlM Graph.patchOutEdge g.dag = .ok dag₁ := hok₁
    have hoff : s.patch.removeNodes.foldlM Graph.patchOutNode dag₁ = .ok dag₂ := hok₂
    simp only [Graph.patchTopology, bind, Except.bind, hout, hoff, hok₃, hok₄]

end Tracks

/-- Two nodes are joined in the sandbox, or in the graph by an edge that the sandbox did not take out. -/
def Joins (s : Sandbox) (g : Graph) (x y : String) : Prop :=
  s.dag.hasArc x y ∨ (g.dag.hasArc x y ∧ EdgeId.arc x y ∉ s.removedEdges)

/-- Together with what is outside of its region, the sandbox has no cycle. -/
def Fits (s : Sandbox) (g : Graph) : Prop :=
  ∀ x, ¬ Relation.TransGen (s.Joins g) x x

/-- The nodes and edges that a graph has after a commit. -/
structure Landed (g : Graph) (s : Sandbox) (dag : Digraph Node Edge) : Prop where
  wellFormed : dag.WellFormed
  acyclic : dag.Acyclic
  vertex : ∀ k, dag.vertex? k = if k ∈ s.removedNodes then none else (s.dag.vertex? k).or (g.dag.vertex? k)
  arcs : dag.arcs = (g.dag.arcs.filter fun a => EdgeId.arc a.src a.dst ∉ s.removedEdges) ++
    s.dag.arcsBySource.filter fun a => !g.dag.hasArc a.src a.dst
  patched : Graph.patchTopology g.dag s.patch = .ok dag

namespace Tracks

variable {g : Graph} {o s : Sandbox} {dag : Digraph Node Edge}

/-- An edge of the graph that was not taken out and that the copy holds is an edge of the sandbox. -/
lemma removedEdges_iff (h : Tracks g o s) (hc : Copied g o) {a : Arc Edge} (ha : a ∈ o.dag.arcs) :
    EdgeId.arc a.src a.dst ∈ s.removedEdges ↔ ¬ s.Stays a := by
  constructor
  · intro hr hs
    exact h.not_baseEdges_of_removed hc hr ((h.baseEdges _).2 ⟨a, ha, hs, rfl⟩)
  · intro hs
    exact h.removedEdges_of_removed hc (hc.arcs a ha) hs

/-- The edges of the patched graph are those that the sandbox and what is around it join. -/
lemma hasArc_landed (h : Tracks g o s) (hc : Copied g o) (hl : Landed g s dag) {x y : String} :
    dag.hasArc x y ↔ s.Joins g x y := by
  simp only [Digraph.hasArc_iff, hl.arcs, Joins, List.mem_append, List.mem_filter, h.wellFormed.mem_arcsBySource]
  constructor
  · rintro ⟨a, ⟨ha, hr⟩ | ⟨ha, -⟩, rfl, rfl⟩
    · exact .inr ⟨⟨a, ha, rfl, rfl⟩, of_decide_eq_true hr⟩
    · exact .inl ⟨a, ha, rfl, rfl⟩
  · rintro (⟨a, ha, rfl, rfl⟩ | ⟨⟨a, ha, rfl, rfl⟩, hr⟩)
    · by_cases hg : g.dag.hasArc a.src a.dst
      · obtain ⟨ho, hs⟩ := h.stays_of_mem_arcs ha hg
        exact ⟨a, .inl ⟨hc.arcs a ho, decide_eq_true fun hr => (h.removedEdges_iff hc ho).1 hr hs⟩, rfl, rfl⟩
      · exact ⟨a, .inr ⟨ha, by simpa using hg⟩, rfl, rfl⟩
    · exact ⟨a, .inl ⟨ha, decide_eq_true hr⟩, rfl, rfl⟩

/-- The nodes of the landed digraph are those that the sandbox keeps. -/
lemma hasVertex_landed (h : Tracks g o s) (hl : Landed g s dag) {x : String} : dag.hasVertex x ↔ s.Keeps g x := by
  rw [Keeps, Digraph.hasVertex, hl.vertex, Graph.hasNode, Digraph.hasVertex, Digraph.hasVertex]
  by_cases hr : x ∈ s.removedNodes
  · have hx : x ∉ s.dag.keys := (h.removed x hr).2.2
    simp [hr, Digraph.vertex?_eq_none_iff.2 hx]
  · simp [hr]

/-- A patch of a tracked sandbox that can be applied gives what it means to land it. -/
lemma landed (h : Tracks g o s) (hc : Copied g o) (hok : Graph.patchTopology g.dag s.patch = .ok dag) :
    Landed g s dag := by
  obtain ⟨mid, hwf, harcs, hvertex, heq⟩ := h.patchTopology_eq hc
  have hac : mid.Acyclic := hc.regular.sound.acyclic.of_subset (harcs ▸ List.filter_subset_self _)
  obtain ⟨hv, ha, hwf', hac'⟩ := Graph.patchInEdges_ok (heq ▸ hok) hwf hac
  refine ⟨hwf', hac', ?_, ?_, hok⟩
  · intro k
    rw [← hvertex, Digraph.vertex?, hv, Digraph.vertex?]
  · rw [ha, harcs, ← h.addEdges_eq hc]
    rfl

/-- The patch changes nodes and edges without fail exactly when no cycle is closed. -/
lemma patchTopology_ok_iff (h : Tracks g o s) (hc : Copied g o) :
    (∃ dag, Graph.patchTopology g.dag s.patch = .ok dag) ↔ s.Fits g := by
  constructor
  · rintro ⟨dag, hok⟩ x hx
    have hl := h.landed hc hok
    exact hl.acyclic x (Relation.TransGen.mono (fun y z hyz => (h.hasArc_landed hc hl).2 hyz) x x hx)
  · intro hfits
    obtain ⟨mid, hwf, harcs, hvertex, heq⟩ := h.patchTopology_eq hc
    have hmid : ∀ x y, mid.hasArc x y → g.dag.hasArc x y ∧ EdgeId.arc x y ∉ s.removedEdges := by
      intro x y hxy
      obtain ⟨a, ha, rfl, rfl⟩ := Digraph.hasArc_iff.1 hxy
      rw [harcs, List.mem_filter] at ha
      exact ⟨Digraph.hasArc_of_mem ha.1, of_decide_eq_true ha.2⟩
    have hkeys : ∀ k ∈ s.dag.keys, k ∈ mid.keys := by
      intro k hk
      have hr : k ∉ s.removedNodes := fun hr => (h.removed k hr).2.2 hk
      rw [← Digraph.hasVertex_iff, Digraph.hasVertex, hvertex]
      obtain ⟨v, hv⟩ := Digraph.hasVertex_iff_exists.1 (Digraph.hasVertex_iff.2 hk)
      simp [hr, hv]
    have hnew : ∀ e ∈ s.patch.addEdges, e.toArc ∈ s.dag.arcs ∧ ¬ g.dag.hasArc e.src e.dst := by
      intro e he
      have hmem : e.toArc ∈ s.patch.addEdges.map Edge.toArc := List.mem_map_of_mem he
      rw [h.addEdges_eq hc, List.mem_filter, h.wellFormed.mem_arcsBySource] at hmem
      exact ⟨hmem.1, by simpa [Edge.toArc] using hmem.2⟩
    rw [heq]
    refine Graph.patchInEdges_of_acyclic hfits hwf (fun x y hxy => .inr (hmid x y hxy)) ?_ ?_
    · intro e he
      obtain ⟨ha, hn⟩ := hnew e he
      exact ⟨hkeys _ (h.wellFormed.src_mem _ ha), hkeys _ (h.wellFormed.dst_mem _ ha),
        .inl (Digraph.hasArc_of_mem ha), fun hm => hn (hmid _ _ hm).1⟩
    · have hmap : s.patch.addEdges.map (fun e => (e.src, e.dst)) =
          (s.patch.addEdges.map Edge.toArc).map fun a => (a.src, a.dst) := by
        rw [List.map_map]
        rfl
      rw [hmap, h.addEdges_eq hc]
      have hnd := ((h.wellFormed.arcsBySource_perm.map fun a => (a.src, a.dst)).nodup_iff).2 h.wellFormed.arcs_nodup
      exact hnd.sublist (List.filter_sublist.map _)

/-- A sandbox of the whole graph holds all that is joined, so it always fits. -/
lemma fits_of_whole (h : Tracks g o s) (hc : Copied g o) (hall : ∀ a ∈ g.dag.arcs, a ∈ o.dag.arcs) : s.Fits g := by
  intro x hx
  refine h.acyclic x (Relation.TransGen.mono ?_ x x hx)
  rintro y z (hyz | ⟨hyz, hr⟩)
  · exact hyz
  · obtain ⟨a, ha, rfl, rfl⟩ := Digraph.hasArc_iff.1 hyz
    rw [h.removedEdges_iff hc (hall a ha), not_not] at hr
    exact Digraph.hasArc_of_mem (h.mem_arcs_of_stays (hall a ha) hr)

end Tracks

/-! ### The patched graph -/

/-- The graph that the patch of a sandbox makes, given its nodes and edges. -/
def landing (g : Graph) (s : Sandbox) (dag : Digraph Node Edge) : Graph :=
  { g with
    dag
    registered := Graph.renameRegistered g.registered s.renamed
    ins := Graph.renameBoundary g.ins s.boundary
    outs := Graph.renameBoundary g.outs s.boundary
    merges := g.merges.filter (fun r => !s.supersedes.contains r.fused) ++ s.newMerges.filterMap s.mergeRecord?
    version := g.version + 1 }

/-- A registered edge of the graph was moved to where the sandbox has no edge. -/
def LosesEdge (s : Sandbox) (g : Graph) : Prop :=
  ∃ old ∈ g.registered.keys, ∃ new ∈ s.renamed.get? old, ¬ s.hasEdge new

/-- A node at the boundary of the sandbox is gone. -/
def LosesInput (s : Sandbox) (g : Graph) : Prop :=
  ∃ name ∈ s.ins.keys, ¬ s.Keeps g name

/-- A node that the sandbox has a record of is gone. -/
def LosesFused (s : Sandbox) (g : Graph) : Prop :=
  ∃ name ∈ s.merges.keys, ¬ s.Keeps g name

/-- The sandbox refers to what is no longer there. -/
def Dangles (s : Sandbox) (g : Graph) : Prop :=
  s.LosesEdge g ∨ s.LosesInput g ∨ s.LosesFused g

instance (s : Sandbox) (g : Graph) : Decidable (s.LosesEdge g) :=
  inferInstanceAs (Decidable (∃ old ∈ g.registered.keys, ∃ new ∈ s.renamed.get? old, ¬ s.hasEdge new))

instance (s : Sandbox) (g : Graph) : Decidable (s.LosesInput g) :=
  inferInstanceAs (Decidable (∃ name ∈ s.ins.keys, ¬ s.Keeps g name))

instance (s : Sandbox) (g : Graph) : Decidable (s.LosesFused g) :=
  inferInstanceAs (Decidable (∃ name ∈ s.merges.keys, ¬ s.Keeps g name))

instance (s : Sandbox) (g : Graph) : Decidable (s.Dangles g) :=
  inferInstanceAs (Decidable (_ ∨ _ ∨ _))

namespace Edited

variable {g : Graph} {o s : Sandbox} {dag : Digraph Node Edge}

/-- An edge is never moved to where another one was moved from. -/
lemma renamed_once (h : Edited g o s) {b id : EdgeId} (hb : s.renamed.get? b = some id) : s.renamed.get? id = none := by
  obtain ⟨u, v, rfl, hu, -, hn, -⟩ := h.settled.renames.renamed_place hb
  rw [Option.eq_none_iff_forall_ne_some]
  intro id' hid
  obtain ⟨a, ha, -, he⟩ := (h.tracks.removedEdges _).1 (h.settled.renames.renamed_removed hid)
  have ha := h.copied.arcs a ha
  obtain ⟨rfl, rfl⟩ := (EdgeId.arc_inj (h.tracks.arrowFree u hu) (h.copied.regular.arrowFree_src ha)).1 he
  exact hn (Digraph.hasArc_of_mem ha)

/-- An edge that is there was not moved away from where it is. -/
lemma renamed_of_hasArc (h : Edited g o s) {x y : String} (hxy : s.dag.hasArc x y) :
    s.renamed.get? (EdgeId.arc x y) = none := by
  by_contra hne
  obtain ⟨id, hid⟩ := Option.ne_none_iff_exists'.1 hne
  obtain ⟨a, ha, hstays, he⟩ := (h.tracks.removedEdges _).1 (h.settled.renames.renamed_removed hid)
  have hwf := h.tracks.wellFormed
  have hx := Digraph.hasVertex_iff.1 (hwf.hasVertex_src hxy)
  have hy := Digraph.hasVertex_iff.1 (hwf.hasVertex_dst hxy)
  have hsrc : ArrowFree a.src := h.copied.regular.arrowFree_src (h.copied.arcs a ha)
  obtain ⟨rfl, rfl⟩ := (EdgeId.arc_inj (h.tracks.arrowFree_live hx) hsrc).1 he
  exact hstays ⟨fun hr => (h.tracks.removed _ hr).2.2 hx, fun hr => (h.tracks.removed _ hr).2.2 hy⟩

/-- Different edges are called after different edges. -/
lemma baseId_inj (h : Edited g o s) {e e' : Edge} (he : s.dag.hasArc e.src e.dst) (he' : s.dag.hasArc e'.src e'.dst)
    (hbase : s.origin.getD e.id e.id = s.origin.getD e'.id e'.id) : e.id = e'.id := by
  have hnone : ∀ {e e' : Edge}, s.dag.hasArc e.src e.dst → s.origin.get? e'.id ≠ some e.id := by
    intro e e' he ho
    have hren := h.settled.renames.origin ho
    rw [Edge.id, h.renamed_of_hasArc he] at hren
    cases hren
  cases ho : s.origin.get? e.id with
  | none =>
    rw [Dict.getD_of_none ho] at hbase
    cases ho' : s.origin.get? e'.id with
    | none => rwa [Dict.getD_of_none ho'] at hbase
    | some b =>
      rw [Dict.getD_of_some ho'] at hbase
      exact absurd (hbase ▸ ho') (hnone he)
  | some b =>
    rw [Dict.getD_of_some ho] at hbase
    cases ho' : s.origin.get? e'.id with
    | none =>
      rw [Dict.getD_of_none ho'] at hbase
      exact absurd (hbase ▸ ho) (hnone he')
    | some b' =>
      rw [Dict.getD_of_some ho'] at hbase
      have hren := h.settled.renames.origin ho
      rw [hbase, h.settled.renames.origin ho'] at hren
      exact (Option.some.inj hren).symm

/-- A registered edge of the graph was moved exactly if it was taken out. -/
lemma renamed_eq_none_iff (h : Edited g o s) {b : EdgeId} (hb : g.isRegistered b) :
    s.renamed.get? b = none ↔ b ∉ s.removedEdges := by
  constructor
  · intro hn hr
    rcases h.settled.renames.moved b hb hr with ⟨⟨e, he, -⟩, -⟩ | ⟨id, hid, -⟩
    · cases he
    · rw [hn] at hid
      cases hid
  · intro hr
    rw [Option.eq_none_iff_forall_ne_some]
    intro id hid
    exact hr (h.settled.renames.renamed_removed hid)

/-- In whatever order the moved edges are taken up, the registered edges of the patched graph come to the same. -/
lemma registered_any_order (h : Edited g o s) {ps : List (EdgeId × EdgeId)} (hp : ps.Perm s.renamed.entries) :
    ps.foldl (fun r p => Graph.moveRegistration r p.1 p.2) g.registered = (landing g s dag).registered :=
  Graph.renameRegistered_any_order (fun hb => h.renamed_once hb) hp

/-- The registered edges of the patched graph. -/
lemma isRegistered_landing (h : Edited g o s) {id : EdgeId} :
    (landing g s dag).isRegistered id ↔
      (g.isRegistered id ∧ id ∉ s.removedEdges) ∨ ∃ b, g.isRegistered b ∧ s.renamed.get? b = some id := by
  rw [Graph.isRegistered, landing, Graph.contains_renameRegistered fun hb => h.renamed_once hb]
  exact or_congr_left (and_congr_right fun hid => h.renamed_eq_none_iff hid)

lemma mem_ins_landing (h : Edited g o s) {x : String} : x ∈ (landing g s dag).ins ↔ s.ins.contains x := by
  rw [h.bordered.redirected.ins]
  exact Graph.mem_renameBoundary

lemma mem_outs_landing (h : Edited g o s) {x : String} : x ∈ (landing g s dag).outs ↔ s.outs.contains x := by
  rw [h.bordered.redirected.outs]
  exact Graph.mem_renameBoundary

/-- The records of the landed graph are the old ones that were not superseded and the new ones. -/
lemma mem_merges_landing {r : MergeRecord} :
    r ∈ (landing g s dag).merges ↔
      (r ∈ g.merges ∧ r.fused ∉ s.supersedes) ∨ ∃ f ∈ s.newMerges, s.merges.get? f = some r := by
  simp [landing, mergeRecord?]

/-- The fused nodes of the patched graph are those the sandbox has records of. -/
lemma exists_mem_merges_landing (h : Edited g o s) {f : String} :
    (∃ r ∈ (landing g s dag).merges, r.fused = f) ↔ s.merges.contains f := by
  rw [Dict.contains_iff]
  constructor
  · rintro ⟨r, hr, rfl⟩
    by_cases hn : r.fused ∈ s.newMerges
    · obtain ⟨r', hr', -⟩ := h.recorded.new _ hn
      exact ⟨r', hr'⟩
    · rcases mem_merges_landing.1 hr with ⟨hg, hs⟩ | ⟨f, hf, hget⟩
      · rw [h.recorded.old _ hn, if_neg hs]
        exact Option.isSome_iff_exists.1 (lastRecord?_isSome.2 ⟨r, hg, rfl⟩)
      · obtain ⟨r', hr', hf'⟩ := h.recorded.new f hf
        rw [hget] at hr'
        cases hr'
        exact absurd (hf' ▸ hf) hn
  · rintro ⟨r, hr⟩
    by_cases hn : f ∈ s.newMerges
    · obtain ⟨r', hr', hf'⟩ := h.recorded.new f hn
      exact ⟨r', mem_merges_landing.2 (.inr ⟨f, hn, hr'⟩), hf'⟩
    · rw [h.recorded.old f hn] at hr
      split at hr
      · cases hr
      · rename_i hs
        obtain ⟨hg, rfl⟩ := fused_of_lastRecord? hr
        exact ⟨r, mem_merges_landing.2 (.inl ⟨hg, hs⟩), rfl⟩

/-- The landed graph is well-formed. -/
lemma wellFormed_landing (h : Edited g o s) (hl : Landed g s dag) : (landing g s dag).WellFormed := by
  refine ⟨hl.wellFormed, fun v hv => ?_⟩
  have hfind := hl.wellFormed.vertex?_eq_some_iff.2 ⟨hv, rfl⟩
  rw [hl.vertex] at hfind
  split at hfind
  · cases hfind
  · rw [Option.or_eq_some_iff] at hfind
    rcases hfind with hs | ⟨-, hg⟩
    · exact h.tracks.named v (Digraph.mem_of_vertex? hs)
    · exact h.copied.regular.wellFormed.named v (Digraph.mem_of_vertex? hg)

/-- The registered edges of the patched graph exist exactly if none was lost. -/
lemma registered_landing_iff (h : Edited g o s) (hl : Landed g s dag) :
    (∀ id, (landing g s dag).isRegistered id → ((landing g s dag).edgeById? id).isSome) ↔ ¬ s.LosesEdge g := by
  have hg := h.copied.regular
  constructor
  · rintro hall ⟨old, hold, new, hnew, hlost⟩
    have hreg : g.isRegistered old := Dict.mem_keys.1 hold
    have hsome := hall new (h.isRegistered_landing.2 (.inr ⟨old, hreg, hnew⟩))
    obtain ⟨u, v, rfl, hu, -, hn, -⟩ := h.settled.renames.renamed_place hnew
    rw [Graph.edgeById?_arc_isSome (h.tracks.arrowFree u hu)] at hsome
    rcases (h.tracks.hasArc_landed h.copied hl).1 hsome with harc | ⟨harc, -⟩
    · exact hlost (h.tracks.hasEdge_iff.2 ⟨u, v, harc, rfl⟩)
    · exact hn harc
  · intro hlost id hid
    rcases h.isRegistered_landing.1 hid with ⟨hreg, hr⟩ | ⟨b, hreg, hb⟩
    · obtain ⟨a, ha, rfl⟩ := hg.exists_arc_of_registered hreg
      rw [Graph.edgeById?_arc_isSome (hg.arrowFree_src ha)]
      exact (h.tracks.hasArc_landed h.copied hl).2 (.inr ⟨Digraph.hasArc_of_mem ha, hr⟩)
    · have hedge : s.hasEdge id := by
        by_contra hno
        exact hlost ⟨b, Dict.mem_keys.2 hreg, id, hb, hno⟩
      obtain ⟨x, y, hxy, rfl⟩ := h.tracks.hasEdge_iff.1 hedge
      rw [Graph.edgeById?_arc_isSome
        (h.tracks.arrowFree_live (Digraph.hasVertex_iff.1 (h.tracks.wellFormed.hasVertex_src hxy)))]
      exact (h.tracks.hasArc_landed h.copied hl).2 (.inl hxy)

/-- The patched graph keeps its rules exactly if the sandbox does not dangle. -/
lemma sound_landing_iff (h : Edited g o s) (hl : Landed g s dag) : (landing g s dag).Sound ↔ ¬ s.Dangles g := by
  have hkeeps : ∀ x, (landing g s dag).hasNode x ↔ s.Keeps g x := fun x => h.tracks.hasVertex_landed hl
  rw [Dangles, not_or, not_or, ← h.registered_landing_iff hl]
  constructor
  · intro hs
    refine ⟨hs.registered, ?_, ?_⟩
    · rintro ⟨x, hx, hno⟩
      exact hno ((hkeeps x).1 (hs.ins x (h.mem_ins_landing.2 (Dict.mem_keys.1 hx))))
    · rintro ⟨x, hx, hno⟩
      obtain ⟨r, hr, rfl⟩ := h.exists_mem_merges_landing.2 (Dict.mem_keys.1 hx)
      exact hno ((hkeeps _).1 (hs.merges r hr))
  · rintro ⟨hreg, hins, hrec⟩
    refine ⟨?_, hreg, ?_, ?_, ?_, hl.acyclic⟩
    · intro a ha
      have ha : a ∈ dag.arcs := ha
      rw [hl.arcs, List.mem_append] at ha
      rcases ha with ha | ha
      · exact h.copied.regular.sound.payload a (List.mem_of_mem_filter ha)
      · exact h.tracks.payload a (h.tracks.wellFormed.mem_arcsBySource.1 (List.mem_of_mem_filter ha))
    · intro x hx
      by_contra hno
      exact hins ⟨x, Dict.mem_keys.2 (h.mem_ins_landing.1 hx), fun hk => hno ((hkeeps x).2 hk)⟩
    · intro x hx
      exact (hkeeps x).2 (h.bordered.outs_kept (h.mem_outs_landing.1 hx))
    · intro r hr
      by_contra hno
      exact hrec ⟨r.fused, Dict.mem_keys.2 (h.exists_mem_merges_landing.1 ⟨r, hr, rfl⟩),
        fun hk => hno ((hkeeps _).2 hk)⟩

/-- A sandbox whose patch changes nothing does not dangle: no edge was moved, and all nodes are there. -/
lemma not_dangles_of_isEmpty (h : Edited g o s) (he : s.patch.isEmpty) : ¬ s.Dangles g := by
  have hsound := h.copied.regular.sound
  simp only [Patch.isEmpty, patch, Bool.and_eq_true, List.isEmpty_iff, and_assoc] at he
  obtain ⟨hedges, hnodes, -, -, -, hmerges⟩ := he
  have hkeeps : ∀ {x}, g.hasNode x → s.Keeps g x := fun hx => .inr ⟨hx, by simp [hnodes]⟩
  rintro (⟨old, -, new, hnew, -⟩ | ⟨x, hx, hno⟩ | ⟨x, hx, hno⟩)
  · have hold := h.settled.renames.renamed_removed hnew
    rw [hedges] at hold
    cases hold
  · obtain ⟨i, hi, hix⟩ := (h.bordered.redirected.ins x).1 (Dict.mem_keys.1 hx)
    have hnone : s.boundary.get? i = none :=
      Dict.get?_eq_none_iff.2 fun hb => (h.bordered.gone hb).2 (hkeeps (hsound.ins i hi))
    rw [Dict.getD_of_none hnone] at hix
    exact hno (hkeeps (hix ▸ hsound.ins i hi))
  · obtain ⟨r, hr⟩ := Dict.contains_iff.1 (Dict.mem_keys.1 hx)
    by_cases hn : x ∈ s.newMerges
    · have hmem : r ∈ s.newMerges.filterMap s.mergeRecord? := List.mem_filterMap.2 ⟨x, hn, hr⟩
      rw [hmerges] at hmem
      cases hmem
    · rw [h.recorded.old x hn] at hr
      split at hr
      · cases hr
      · obtain ⟨hg, rfl⟩ := fused_of_lastRecord? hr
        exact hno (hkeeps (hsound.merges r hg))

/-- What applying the patch of a sandbox can lead to. -/
lemma apply_cases {region : Option (List String)} (h : Edited g (Sandbox.copy g region) s) :
    (s.patch.isEmpty ∧ g.apply s.patch = .ok g) ∨
      (¬ s.patch.isEmpty ∧ ∃ e, Graph.patchTopology g.dag s.patch = .error e ∧ g.apply s.patch = .error e) ∨
      (¬ s.patch.isEmpty ∧ ∃ dag, Graph.patchTopology g.dag s.patch = .ok dag ∧ g.apply s.patch =
        match (landing g s dag).verify with
        | .ok () => .ok (landing g s dag)
        | .error violation => .error (.broken g.name violation)) := by
  have hversion : ¬ s.patch.baseVersion ≠ g.version := not_not.2 h.tracks.base
  have hfind : (s.patch.removeEdges.find? fun id => g.isRegistered id && !s.patch.renamed.contains id) = none := by
    refine List.find?_eq_none.2 fun id hid hreg => ?_
    simp only [Bool.and_eq_true, Bool.not_eq_true', Bool.eq_false_iff, ne_eq] at hreg
    exact (h.renamed_eq_none_iff hreg.1).1 (Dict.get?_eq_none_iff.2 hreg.2) hid
  rw [Graph.apply, if_neg hversion, hfind]
  by_cases he : s.patch.isEmpty
  · exact .inl ⟨he, if_pos he⟩
  · refine .inr ?_
    dsimp only
    rw [if_neg he]
    cases hp : Graph.patchTopology g.dag s.patch with
    | error e => exact .inl ⟨he, e, rfl, rfl⟩
    | ok dag => exact .inr ⟨he, dag, rfl, rfl⟩

end Edited

/-! ### The commit -/

/-- A call on a sandbox is aborted. -/
def Aborted {α : Type} (r : Except Error α) : Prop :=
  ∃ e message, r = .error e ∧ e.toFault = .abort message

section Commit

variable {g g' : Graph} {s s' : Sandbox} {region : Option (List String)} {c : Changes}

/-- A commit applies the patch of the sandbox. -/
lemma commit_ok (h : s.commit g = .ok (g', s', c)) : g.apply s.patch = .ok g' ∧ c = .ofPatch s.patch := by
  unfold commit at h
  split at h
  · cases h
  · split at h
    · cases h
    · split at h
      · cases h
        exact ⟨‹_›, rfl⟩
      · cases h

/-- Only the patch of a sandbox can keep it from being committed to the graph it was taken from. -/
lemma Roster.commit_eq (h : Roster g (Sandbox.copy g region) s) :
    s.commit g = match g.apply s.patch with
      | .ok g => .ok (g, { s with committed := true }, .ofPatch s.patch)
      | .error cause => .error (.rejected cause) := by
  have hopen : ¬ s.committed = true := by
    rw [h.committed]
    exact Bool.false_ne_true
  have hname : ¬ g.name ≠ s.name := not_not.2 h.name.symm
  refine (if_neg hopen).trans ((if_neg hname).trans ?_)
  cases g.apply s.patch with
  | ok g' => rfl
  | error cause => rfl

/-- How a commit ends: the sandbox does not fit, or it dangles, or the graph becomes what the patch makes of it. -/
lemma Edited.commit_cases (h : Edited g (Sandbox.copy g region) s) :
    (¬ s.Fits g ∧ ∃ e f, s.commit g = .error e ∧ e.toFault = .failure f) ∨
      (s.Fits g ∧ s.Dangles g ∧ Aborted (s.commit g)) ∨
      (s.Fits g ∧ ¬ s.Dangles g ∧ ∃ g', s.commit g = .ok (g', { s with committed := true }, .ofPatch s.patch) ∧
        ((s.patch.isEmpty ∧ g' = g) ∨ (¬ s.patch.isEmpty ∧ ∃ dag, Landed g s dag ∧ g' = landing g s dag))) := by
  rw [h.tracks.toRoster.commit_eq, ← h.tracks.patchTopology_ok_iff h.copied]
  rcases h.apply_cases with ⟨he, hok⟩ | ⟨he, e, herr, hok⟩ | ⟨he, dag, hdag, hok⟩
  · rw [hok]
    exact .inr (.inr ⟨⟨g.dag, Graph.patchTopology_of_isEmpty he⟩, h.not_dangles_of_isEmpty he, g, rfl, .inl ⟨he, rfl⟩⟩)
  · rw [hok]
    refine .inl ⟨?_, .rejected e, ?_⟩
    · rintro ⟨dag, hdag⟩
      rw [herr] at hdag
      cases hdag
    · obtain ⟨f, hf⟩ := Graph.fault_patchTopology herr
      exact ⟨_, rfl, by rw [Error.toFault, hf]⟩
  · rw [hok]
    have hl := h.tracks.landed h.copied hdag
    have hverify := (h.wellFormed_landing hl).verify_ok_iff.trans (h.sound_landing_iff hl)
    cases hv : (landing g s dag).verify with
    | ok u =>
      exact .inr (.inr ⟨⟨dag, hdag⟩, hverify.1 hv, landing g s dag, rfl, .inr ⟨he, dag, hl, rfl⟩⟩)
    | error violation =>
      refine .inr (.inl ⟨⟨dag, hdag⟩, ?_, _, _, rfl, rfl⟩)
      by_contra hd
      rw [hverify.2 hd] at hv
      cases hv

end Commit

end OpGraph.Sandbox
