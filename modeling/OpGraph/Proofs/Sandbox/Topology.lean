import Mathlib
import OpGraph.Proofs.Patch
import OpGraph.Sandbox.Commit

/-!
# The topology of a sandbox

A sandbox starts as a copy of a graph or of a region of it, and it notes how its nodes and edges come to differ from
that copy. `Tracks g o s` says that the notes of `s` are true: together with the copy `o` they describe the nodes and
edges of `s`. The small steps that changes are made of keep it that way.

Edges are noted by their identifiers, which tell them apart only if no name holds an arrow. What the notes say about
nodes does not depend on that: it is `Roster g o s`, on which `Tracks` builds.
-/

namespace OpGraph.Sandbox

variable {g : Graph} {k : String} {a : Arc Edge} {n : Node}

/-! ### Copies -/

/-- What a copy of a graph holds. Of the edges at a node inside the region none is missing. -/
structure Copied (g : Graph) (o : Sandbox) : Prop where
  regular : g.Regular
  wellFormed : o.dag.WellFormed
  vertex : ∀ {k v}, o.dag.vertex? k = some v → g.dag.vertex? k = some v
  arcs : ∀ a ∈ o.dag.arcs, a ∈ g.dag.arcs
  complete : ∀ a ∈ g.dag.arcs,
    (a.src ∈ o.dag.keys ∧ ¬ o.anchors.contains a.src) ∨ (a.dst ∈ o.dag.keys ∧ ¬ o.anchors.contains a.dst) →
      a ∈ o.dag.arcs

lemma Copied.mem_keys {o : Sandbox} (h : Copied g o) (hk : k ∈ o.dag.keys) : k ∈ g.dag.keys := by
  obtain ⟨v, hv⟩ := Digraph.hasVertex_iff_exists.1 (Digraph.hasVertex_iff.2 hk)
  exact Digraph.hasVertex_iff.1 (Digraph.hasVertex_iff_exists.2 ⟨v, h.vertex hv⟩)

lemma Copied.hasArc {o : Sandbox} (h : Copied g o) {x y : String} (hxy : o.dag.hasArc x y) : g.dag.hasArc x y := by
  obtain ⟨a, ha, rfl, rfl⟩ := Digraph.hasArc_iff.1 hxy
  exact Digraph.hasArc_of_mem (h.arcs a ha)

/-- The neighbours of a region are the nodes outside of it that share an edge with it. -/
lemma contains_anchorsOf (wf : g.dag.WellFormed) {region : List String} :
    (anchorsOf g region).contains k ↔ k ∉ region ∧ ∃ n ∈ region, g.dag.hasArc k n ∨ g.dag.hasArc n k := by
  simp only [anchorsOf, NameSet.contains_ofList, List.mem_flatMap, List.mem_filter, List.mem_append,
    wf.mem_preds, wf.mem_succs, Bool.not_eq_true', List.contains_eq_mem, decide_eq_false_iff_not]
  constructor
  · rintro ⟨n, hn, h, hk⟩
    exact ⟨hk, n, hn, h⟩
  · rintro ⟨hk, n, hn, h⟩
    exact ⟨n, hn, h, hk⟩

/-- The nodes of a copy are those of the region and its neighbours. -/
lemma mem_keys_copy {region : Option (List String)} : k ∈ (copy g region).dag.keys ↔
      k ∈ g.dag.keys ∧ ∀ names, region = some names → k ∈ names ∨ (anchorsOf g names).contains k := by
  cases region with
  | none => simp [copy, Digraph.keys]
  | some names =>
    simp only [copy, Digraph.keys, Digraph.vertices_ofArcs, List.mem_map, List.mem_filter, Bool.or_eq_true,
      List.contains_eq_mem,
      decide_eq_true_eq, Option.some.injEq, forall_eq']
    constructor
    · rintro ⟨v, ⟨hv, hi⟩, rfl⟩
      exact ⟨⟨v, hv, rfl⟩, hi⟩
    · rintro ⟨⟨v, hv, rfl⟩, hi⟩
      exact ⟨v, ⟨hv, hi⟩, rfl⟩

/-- The edges of a copy are those of the graph between its nodes, but for those between two neighbours. -/
lemma mem_arcs_copy (wf : g.dag.WellFormed) {region : Option (List String)} : a ∈ (copy g region).dag.arcs ↔
      a ∈ g.dag.arcs ∧ a.src ∈ (copy g region).dag.keys ∧ a.dst ∈ (copy g region).dag.keys ∧
        ¬ ((copy g region).anchors.contains a.src ∧ (copy g region).anchors.contains a.dst) := by
  rw [mem_keys_copy, mem_keys_copy]
  have hsrc : a ∈ g.dag.arcs → a.src ∈ g.dag.keys := wf.src_mem a
  have hdst : a ∈ g.dag.arcs → a.dst ∈ g.dag.keys := wf.dst_mem a
  cases region with
  | none => simp +contextual [copy, wf.mem_arcsBySource, hsrc, hdst]
  | some names =>
    simp only [copy, Digraph.arcs_ofArcs, List.mem_filter, wf.mem_arcsBySource, Bool.and_eq_true, Bool.or_eq_true,
      List.contains_eq_mem,
      decide_eq_true_eq, Bool.not_eq_true', Bool.and_eq_false_iff, Option.some.injEq, forall_eq', not_and_or,
      Bool.not_eq_true]
    constructor
    · rintro ⟨ha, ⟨hs, hd⟩, hn⟩
      exact ⟨ha, ⟨hsrc ha, hs⟩, ⟨hdst ha, hd⟩, hn⟩
    · rintro ⟨ha, ⟨-, hs⟩, ⟨-, hd⟩, hn⟩
      exact ⟨ha, ⟨hs, hd⟩, hn⟩

/-- A copy of a well-formed graph is well-formed. -/
lemma wellFormed_copy (wf : g.dag.WellFormed) (region : Option (List String)) : (copy g region).dag.WellFormed := by
  refine Digraph.wellFormed_ofArcs (wf.keys_nodup.sublist (List.filter_sublist.map _)) ?_ ?_ ?_
  · have hnd := ((wf.arcsBySource_perm.map fun a => (a.src, a.dst)).nodup_iff).2 wf.arcs_nodup
    exact hnd.sublist (List.filter_sublist.map _)
  · exact fun a ha => ((mem_arcs_copy wf).1 ha).2.1
  · exact fun a ha => ((mem_arcs_copy wf).1 ha).2.2.1

/-- A copy of a graph holds what it should. -/
lemma copied_copy (hg : g.Regular) (region : Option (List String)) : Copied g (copy g region) := by
  have hwf := wellFormed_copy hg.dag region
  refine ⟨hg, hwf, ?_, fun a ha => ((mem_arcs_copy hg.dag).1 ha).1, ?_⟩
  · intro k v hv
    obtain ⟨hv, hk⟩ := hwf.vertex?_eq_some_iff.1 hv
    exact hg.dag.vertex?_eq_some_iff.2 ⟨List.mem_of_mem_filter hv, hk⟩
  · intro a ha hin
    rw [mem_arcs_copy hg.dag]
    have hs := hg.dag.src_mem a ha
    have hd := hg.dag.dst_mem a ha
    rw [mem_keys_copy, mem_keys_copy] at *
    cases region with
    | none => simpa [copy] using ⟨ha, hs, hd⟩
    | some names =>
      have harc : g.dag.hasArc a.src a.dst := Digraph.hasArc_of_mem ha
      have hanchors : (copy g (some names)).anchors = anchorsOf g names := rfl
      simp only [hanchors, Option.some.injEq, forall_eq'] at hin ⊢
      rcases hin with ⟨⟨-, hk⟩, hn⟩ | ⟨⟨-, hk⟩, hn⟩
      · have hr : a.src ∈ names := hk.resolve_right hn
        refine ⟨ha, ⟨hs, hk⟩, ⟨hd, ?_⟩, fun h => hn h.1⟩
        rw [contains_anchorsOf hg.dag]
        exact (em _).imp_right fun hnot => ⟨hnot, a.src, hr, .inr harc⟩
      · have hr : a.dst ∈ names := hk.resolve_right hn
        refine ⟨ha, ⟨hs, ?_⟩, ⟨hd, hk⟩, fun h => hn h.2⟩
        rw [contains_anchorsOf hg.dag]
        exact (em _).imp_right fun hnot => ⟨hnot, a.dst, hr, .inl harc⟩

/-! ### The notes of a sandbox -/

/-- Neither end of an edge of the copy was taken out. -/
def Stays (s : Sandbox) (a : Arc Edge) : Prop :=
  a.src ∉ s.removedNodes ∧ a.dst ∉ s.removedNodes

instance (s : Sandbox) : DecidablePred s.Stays :=
  fun a => inferInstanceAs (Decidable (a.src ∉ s.removedNodes ∧ a.dst ∉ s.removedNodes))

/-- The notes of `s` say truly how its nodes differ from those of the copy `o` of `g`. -/
structure Roster (g : Graph) (o s : Sandbox) : Prop where
  name : s.name = o.name
  base : s.base = o.base
  anchors : s.anchors = o.anchors
  committed : s.committed = o.committed
  wellFormed : s.dag.WellFormed
  acyclic : s.dag.Acyclic
  named : ∀ v ∈ s.dag.vertices, v.val.name = v.key
  payload : ∀ a ∈ s.dag.arcs, a.val.src = a.src ∧ a.val.dst = a.dst
  within : ∀ k ∈ o.dag.keys, k ∈ g.dag.keys
  taken : ∀ k ∈ g.dag.keys, s.taken.contains k
  live_taken : ∀ k ∈ s.dag.keys, s.taken.contains k
  added_nodup : s.added.Nodup
  added : ∀ k ∈ s.added, k ∈ s.dag.keys ∧ k ∉ g.dag.keys
  removed_nodup : s.removedNodes.Nodup
  removed : ∀ k ∈ s.removedNodes, k ∈ o.dag.keys ∧ ¬ o.anchors.contains k ∧ k ∉ s.dag.keys
  present : ∀ k ∈ o.dag.keys, k ∉ s.removedNodes → k ∈ s.dag.keys
  modified : ∀ k, s.modified.contains k → k ∈ s.dag.keys ∧ k ∉ s.added
  vertex : ∀ {k v}, s.dag.vertex? k = some v → k ∉ s.added →
    ∃ w, o.dag.vertex? k = some w ∧ v.seq = w.seq ∧ (¬ s.modified.contains k → v = w)

/-- The notes of `s` say truly how its nodes and edges differ from those of the copy `o` of `g`. -/
structure Tracks (g : Graph) (o s : Sandbox) : Prop extends Roster g o s where
  arrowFree : ∀ k, s.taken.contains k → ArrowFree k
  arcs : ∃ fresh, s.dag.arcs = o.dag.arcs.filter s.Stays ++ fresh ∧ ∀ a ∈ fresh, ¬ g.dag.hasArc a.src a.dst
  baseEdges : ∀ id : EdgeId, s.baseEdges.contains id ↔ ∃ a ∈ o.dag.arcs, s.Stays a ∧ id = .arc a.src a.dst
  removedEdges_nodup : s.removedEdges.Nodup
  removedEdges : ∀ id : EdgeId, id ∈ s.removedEdges ↔ ∃ a ∈ o.dag.arcs, ¬ s.Stays a ∧ id = .arc a.src a.dst

/-- In a copy the names of all nodes of the graph are taken, and no others. -/
lemma contains_taken_copy {region : Option (List String)} : (copy g region).taken.contains k ↔ k ∈ g.dag.keys := by
  simp [copy, Graph.names]

namespace Roster

variable {g : Graph} {o s : Sandbox}

/-- The copy itself has nothing to note. -/
lemma copy_of_acyclic (wf : g.WellFormed) (hp : ∀ a ∈ g.dag.arcs, a.val.src = a.src ∧ a.val.dst = a.dst)
    (hac : g.dag.Acyclic) (region : Option (List String)) :
    Roster g (Sandbox.copy g region) (Sandbox.copy g region) where
  name := rfl
  base := rfl
  anchors := rfl
  committed := rfl
  wellFormed := wellFormed_copy wf.dag region
  acyclic := hac.of_subset fun _ ha => ((mem_arcs_copy wf.dag).1 ha).1
  named := fun v hv => wf.named v (List.mem_of_mem_filter hv)
  payload := fun a ha => hp a ((mem_arcs_copy wf.dag).1 ha).1
  within := fun k hk => (mem_keys_copy.1 hk).1
  taken := fun k hk => contains_taken_copy.2 hk
  live_taken := fun k hk => contains_taken_copy.2 (mem_keys_copy.1 hk).1
  added_nodup := List.nodup_nil
  added := by simp [Sandbox.copy]
  removed_nodup := List.nodup_nil
  removed := by simp [Sandbox.copy]
  present := fun k hk _ => hk
  modified := by simp [Sandbox.copy]
  vertex := fun hv _ => ⟨_, hv, rfl, fun _ => rfl⟩

lemma copy (wf : g.WellFormed) (hg : g.Sound) (region : Option (List String)) :
    Roster g (Sandbox.copy g region) (Sandbox.copy g region) :=
  copy_of_acyclic wf hg.payload hg.acyclic region

lemma live (h : Roster g o s) (hk : k ∈ s.dag.keys) : k ∈ s.added ∨ k ∈ o.dag.keys := by
  by_cases ha : k ∈ s.added
  · exact .inl ha
  · obtain ⟨v, hv⟩ := Digraph.hasVertex_iff_exists.1 (Digraph.hasVertex_iff.2 hk)
    obtain ⟨w, hw, -⟩ := h.vertex hv ha
    exact .inr (Digraph.hasVertex_iff.1 (Digraph.hasVertex_iff_exists.2 ⟨w, hw⟩))

/-- A node of the graph was not added. -/
lemma not_mem_added (h : Roster g o s) (hk : k ∈ g.dag.keys) : k ∉ s.added :=
  fun ha => (h.added k ha).2 hk

end Roster

namespace Tracks

variable {g : Graph} {o s : Sandbox}

/-- The copy itself has nothing to note. -/
lemma copy (hg : g.Regular) (region : Option (List String)) :
    Tracks g (Sandbox.copy g region) (Sandbox.copy g region) := by
  have hc := copied_copy hg region
  have hstays : ∀ a, (Sandbox.copy g region).Stays a := by
    intro a
    simp [Stays, Sandbox.copy]
  refine { Roster.copy hg.wellFormed hg.sound region with
    arrowFree := fun k hk => hg.arrowFree k (contains_taken_copy.1 hk)
    arcs := ⟨[], ?_, by simp⟩
    baseEdges := ?_
    removedEdges_nodup := List.nodup_nil
    removedEdges := ?_ }
  · rw [List.append_nil]
    exact (List.filter_eq_self.2 fun a _ => decide_eq_true (hstays a)).symm
  · intro id
    have hb : (Sandbox.copy g region).baseEdges =
        NameSet.ofList ((Sandbox.copy g region).dag.arcs.map fun a => a.val.id) := rfl
    rw [hb, NameSet.contains_ofList, List.mem_map]
    constructor
    · rintro ⟨a, ha, rfl⟩
      obtain ⟨hs, hd⟩ := hg.sound.payload a (hc.arcs a ha)
      exact ⟨a, ha, hstays a, by rw [Edge.id, hs, hd]⟩
    · rintro ⟨a, ha, -, rfl⟩
      obtain ⟨hs, hd⟩ := hg.sound.payload a (hc.arcs a ha)
      exact ⟨a, ha, by rw [Edge.id, hs, hd]⟩
  · intro id
    constructor
    · intro h
      cases h
    · rintro ⟨a, -, hn, -⟩
      exact absurd (hstays a) hn

/-- The nodes of a tracked sandbox have no arrow in their names. -/
lemma arrowFree_live (h : Tracks g o s) (hk : k ∈ s.dag.keys) : ArrowFree k :=
  h.arrowFree k (h.live_taken k hk)

/-- An edge of the copy that stays is an edge of the sandbox. -/
lemma mem_arcs_of_stays (h : Tracks g o s) (ha : a ∈ o.dag.arcs) (hs : s.Stays a) : a ∈ s.dag.arcs := by
  obtain ⟨fresh, he, -⟩ := h.arcs
  rw [he, List.mem_append, List.mem_filter]
  exact .inl ⟨ha, decide_eq_true hs⟩

/-- An edge of the sandbox that joins two nodes as the graph does is an edge of the copy that stays. -/
lemma stays_of_mem_arcs (h : Tracks g o s) (ha : a ∈ s.dag.arcs) (hg : g.dag.hasArc a.src a.dst) :
    a ∈ o.dag.arcs ∧ s.Stays a := by
  obtain ⟨fresh, he, hf⟩ := h.arcs
  rw [he, List.mem_append, List.mem_filter] at ha
  rcases ha with ⟨ha, hs⟩ | ha
  · exact ⟨ha, of_decide_eq_true hs⟩
  · exact absurd hg (hf a ha)

/-- An identifier of the copy is no longer there exactly when it was noted as removed. -/
lemma not_baseEdges_of_removed (h : Tracks g o s) (hc : Copied g o) {id : EdgeId} (hid : id ∈ s.removedEdges) :
    ¬ s.baseEdges.contains id := by
  intro hb
  obtain ⟨a, ha, hn, rfl⟩ := (h.removedEdges id).1 hid
  obtain ⟨b, hb, hs, he⟩ := (h.baseEdges _).1 hb
  have hab := (EdgeId.arc_inj (hc.regular.arrowFree_src (hc.arcs a ha))
    (hc.regular.arrowFree_src (hc.arcs b hb))).1 he
  rw [hc.wellFormed.arc_unique ha hb hab.1 hab.2] at hn
  exact hn hs

end Tracks

/-! ### Taking nodes out -/

/-- An edge that is forgotten moves from those that are still there to the removed ones. -/
lemma forgetEdge_eq (s : Sandbox) (id : EdgeId) : ∃ base removed,
    s.forgetEdge id = { s with baseEdges := base, removedEdges := removed } ∧
      (∀ j, base.contains j ↔ s.baseEdges.contains j ∧ j ≠ id) ∧
      (∀ j, j ∈ removed ↔ j ∈ s.removedEdges ∨ s.baseEdges.contains j ∧ j = id) ∧
      (s.removedEdges.Nodup → (∀ j ∈ s.removedEdges, ¬ s.baseEdges.contains j) → removed.Nodup) := by
  by_cases hid : s.baseEdges.contains id
  · refine ⟨s.baseEdges.erase id, s.removedEdges ++ [id], by rw [forgetEdge, if_pos hid], fun j => ?_, fun j => ?_,
      fun hn hdis => ?_⟩
    · rw [Dict.contains_erase, and_comm]
    · rw [List.mem_append, List.mem_singleton]
      refine or_congr_right ⟨?_, And.right⟩
      rintro rfl
      exact ⟨hid, rfl⟩
    · refine List.nodup_append.2 ⟨hn, List.nodup_singleton id, ?_⟩
      rintro j hj _ hb rfl
      rw [List.mem_singleton.1 hb] at hj
      exact hdis id hj hid
  · refine ⟨s.baseEdges, s.removedEdges, by rw [forgetEdge, if_neg hid], fun j => ?_, fun j => ?_, fun hn _ => hn⟩
    · refine (and_iff_left_of_imp ?_).symm
      rintro hj rfl
      exact hid hj
    · refine (or_iff_left ?_).symm
      rintro ⟨hj, rfl⟩
      exact hid hj

/-- So it is with all edges of a list. -/
lemma foldl_forgetEdge_eq :
    ∀ (ids : List EdgeId) (s : Sandbox), ∃ base removed,
      ids.foldl forgetEdge s = { s with baseEdges := base, removedEdges := removed } ∧
      (∀ id, base.contains id ↔ s.baseEdges.contains id ∧ id ∉ ids) ∧
      (∀ id, id ∈ removed ↔ id ∈ s.removedEdges ∨ s.baseEdges.contains id ∧ id ∈ ids) ∧
      (s.removedEdges.Nodup → (∀ id ∈ s.removedEdges, ¬ s.baseEdges.contains id) → removed.Nodup)
  | [], s => ⟨s.baseEdges, s.removedEdges, rfl, by simp, by simp, fun h _ => h⟩
  | id :: ids, s => by
    obtain ⟨base, removed, he, hbase, hremoved, hnd⟩ := s.forgetEdge_eq id
    obtain ⟨base', removed', he', hbase', hremoved', hnd'⟩ :=
      foldl_forgetEdge_eq ids { s with baseEdges := base, removedEdges := removed }
    refine ⟨base', removed', by rw [List.foldl_cons, he, he'], fun j => ?_, fun j => ?_, fun hn hdis => ?_⟩
    · rw [hbase', hbase, List.mem_cons, not_or, and_assoc]
    · rw [hremoved', hremoved, hbase, List.mem_cons]
      tauto
    · refine hnd' (hnd hn hdis) fun j hj hb => ?_
      obtain ⟨hb, hne⟩ := (hbase j).1 hb
      rcases (hremoved j).1 hj with hj | ⟨-, rfl⟩
      · exact hdis j hj hb
      · exact hne rfl

/-- An identifier belongs to an edge at a node. -/
def EdgeAt (s : Sandbox) (name : String) (id : EdgeId) : Prop :=
  ∃ a ∈ s.dag.inArcs name ++ s.dag.outArcs name, id = .arc a.src a.dst

/-- There is nothing to take out. -/
lemma removeNode_of_not_mem {s : Sandbox} {name : String} (h : name ∉ s.dag.keys) : s.removeNode name = s := by
  rw [← Digraph.hasVertex_iff] at h
  rw [removeNode, Digraph.removeVertex, if_neg h]

/-- What taking out a node does: its edges are forgotten, and so is the node if it was made here. -/
lemma removeNode_eq {s : Sandbox} {name : String} (h : name ∈ s.dag.keys) :
    ∃ base removed,
      s.removeNode name = (if name ∈ s.added then
        { s with
          dag := s.dag.dropVertex name, baseEdges := base, removedEdges := removed
          added := s.added.filter (· != name) }
      else
        { s with
          dag := s.dag.dropVertex name, baseEdges := base, removedEdges := removed
          removedNodes := s.removedNodes ++ [name], modified := s.modified.erase name }) ∧
      (∀ id, base.contains id ↔ s.baseEdges.contains id ∧ ¬ s.EdgeAt name id) ∧
      (∀ id, id ∈ removed ↔ id ∈ s.removedEdges ∨ s.baseEdges.contains id ∧ s.EdgeAt name id) ∧
      (s.removedEdges.Nodup → (∀ id ∈ s.removedEdges, ¬ s.baseEdges.contains id) → removed.Nodup) := by
  let ids := (s.dag.inArcs name ++ s.dag.outArcs name).map fun a => EdgeId.arc a.src a.dst
  obtain ⟨base, removed, he, hbase, hremoved, hnd⟩ :=
    foldl_forgetEdge_eq ids { s with dag := s.dag.dropVertex name }
  have hids : ∀ id, id ∈ ids ↔ s.EdgeAt name id := by
    intro id
    simp only [EdgeAt, ids, List.mem_map, @eq_comm _ id]
  refine ⟨base, removed, ?_, ?_, ?_, hnd⟩
  · rw [List.foldl_map] at he
    rw [removeNode, Digraph.removeVertex, if_pos (Digraph.hasVertex_iff.2 h)]
    simp only [he, List.contains_eq_mem, decide_eq_true_eq]
  · intro id
    rw [hbase, hids]
  · intro id
    rw [hremoved, hids]

namespace Roster

variable {g : Graph} {o s : Sandbox} {k : String}

/-- Taking out a node inside the region keeps the notes true. -/
lemma removeNode (h : Roster g o s) (hk : k ∈ s.dag.keys) (hn : ¬ o.anchors.contains k) :
    Roster g o (s.removeNode k) := by
  obtain ⟨base, removed, he, -⟩ := removeNode_eq hk
  have hacyclic : (s.dag.dropVertex k).Acyclic := h.acyclic.of_subset fun _ => Digraph.mem_of_mem_arcs_dropVertex
  have hvertex : ∀ {j v}, (s.dag.dropVertex k).vertex? j = some v → j ≠ k ∧ s.dag.vertex? j = some v := by
    intro j v hv
    rw [Digraph.vertex?_dropVertex] at hv
    split at hv
    · cases hv
    · exact ⟨‹_›, hv⟩
  rw [he]
  by_cases ha : k ∈ s.added
  · -- A node made here is not one of the copy.
    rw [if_pos ha]
    have hne : ∀ j ∈ o.dag.keys, j ≠ k := by
      rintro j hj rfl
      exact (h.added j ha).2 (h.within j hj)
    exact { h with
      wellFormed := h.wellFormed.dropVertex k
      acyclic := hacyclic
      named := fun v hv => h.named v (Digraph.mem_of_mem_vertices_dropVertex hv)
      payload := fun a haa => h.payload a (Digraph.mem_of_mem_arcs_dropVertex haa)
      live_taken := fun j hj => h.live_taken j (Digraph.mem_keys_dropVertex.1 hj).2
      added_nodup := h.added_nodup.filter _
      added := fun j hj => by
        obtain ⟨hj, hjk⟩ := List.mem_filter.1 hj
        exact ⟨Digraph.mem_keys_dropVertex.2 ⟨by simpa using hjk, (h.added j hj).1⟩, (h.added j hj).2⟩
      removed := fun j hj => ⟨(h.removed j hj).1, (h.removed j hj).2.1,
        fun hm => (h.removed j hj).2.2 (Digraph.mem_keys_dropVertex.1 hm).2⟩
      present := fun j hj hr => Digraph.mem_keys_dropVertex.2 ⟨hne j hj, h.present j hj hr⟩
      modified := fun j hj => by
        obtain ⟨hm, hja⟩ := h.modified j hj
        refine ⟨Digraph.mem_keys_dropVertex.2 ⟨?_, hm⟩, fun hf => hja (List.mem_of_mem_filter hf)⟩
        rintro rfl
        exact hja ha
      vertex := fun {j v} hv hj => by
        obtain ⟨hjk, hv⟩ := hvertex hv
        exact h.vertex hv fun hm => hj (List.mem_filter.2 ⟨hm, by simpa using hjk⟩) }
  · rw [if_neg ha]
    exact { h with
      wellFormed := h.wellFormed.dropVertex k
      acyclic := hacyclic
      named := fun v hv => h.named v (Digraph.mem_of_mem_vertices_dropVertex hv)
      payload := fun a haa => h.payload a (Digraph.mem_of_mem_arcs_dropVertex haa)
      live_taken := fun j hj => h.live_taken j (Digraph.mem_keys_dropVertex.1 hj).2
      added := fun j hj => by
        refine ⟨Digraph.mem_keys_dropVertex.2 ⟨?_, (h.added j hj).1⟩, (h.added j hj).2⟩
        rintro rfl
        exact ha hj
      removed_nodup := by
        refine List.nodup_append.2 ⟨h.removed_nodup, List.nodup_singleton k, ?_⟩
        rintro a haa b hb rfl
        rw [List.mem_singleton.1 hb] at haa
        exact (h.removed k haa).2.2 hk
      removed := fun j hj => by
        rcases List.mem_append.1 hj with hj | hj
        · exact ⟨(h.removed j hj).1, (h.removed j hj).2.1,
            fun hm => (h.removed j hj).2.2 (Digraph.mem_keys_dropVertex.1 hm).2⟩
        · rw [List.mem_singleton.1 hj]
          exact ⟨(h.live hk).resolve_left ha, hn, fun hm => (Digraph.mem_keys_dropVertex.1 hm).1 rfl⟩
      present := fun j hj hr => by
        rw [List.mem_append, List.mem_singleton, not_or] at hr
        exact Digraph.mem_keys_dropVertex.2 ⟨hr.2, h.present j hj hr.1⟩
      modified := fun j hj => by
        rw [Dict.contains_erase] at hj
        exact ⟨Digraph.mem_keys_dropVertex.2 ⟨hj.1, (h.modified j hj.2).1⟩, (h.modified j hj.2).2⟩
      vertex := fun {j v} hv hj => by
        obtain ⟨hjk, hv⟩ := hvertex hv
        obtain ⟨w, hw, hseq, hm⟩ := h.vertex hv hj
        exact ⟨w, hw, hseq, fun hmod => hm fun hmj => hmod (Dict.contains_erase.2 ⟨hjk, hmj⟩)⟩ }

end Roster

namespace Tracks

variable {g : Graph} {o s t : Sandbox} {k : String}

/-- Of the identifiers of the copy that stay, a node has those of its own edges. -/
lemma edgeAt_iff (h : Tracks g o s) (hc : Copied g o) (ha : a ∈ o.dag.arcs) (hs : s.Stays a) :
    s.EdgeAt k (.arc a.src a.dst) ↔ a.dst = k ∨ a.src = k := by
  constructor
  · rintro ⟨b, hb, he⟩
    rw [List.mem_append, h.wellFormed.mem_inArcs, h.wellFormed.mem_outArcs, ← and_or_left] at hb
    obtain ⟨hb, hk⟩ := hb
    have hab := (EdgeId.arc_inj (hc.regular.arrowFree_src (hc.arcs a ha))
      (h.arrowFree_live (h.wellFormed.src_mem b hb))).1 he
    rw [hab.1, hab.2]
    exact hk
  · intro hk
    refine ⟨a, ?_, rfl⟩
    rw [List.mem_append, h.wellFormed.mem_inArcs, h.wellFormed.mem_outArcs, ← and_or_left]
    exact ⟨h.mem_arcs_of_stays ha hs, hk⟩

/-- Of the edges of a sandbox without one of its nodes, those of the copy are the ones that stay. -/
lemma arcs_dropVertex (h : Tracks g o s)
    (hst : ∀ a ∈ o.dag.arcs, t.Stays a ↔ s.Stays a ∧ a.src ≠ k ∧ a.dst ≠ k) :
    ∃ fresh, (s.dag.dropVertex k).arcs = o.dag.arcs.filter t.Stays ++ fresh ∧
      ∀ a ∈ fresh, ¬ g.dag.hasArc a.src a.dst := by
  obtain ⟨fresh, he, hf⟩ := h.arcs
  refine ⟨fresh.filter fun a => a.src != k && a.dst != k, ?_, fun a ha => hf a (List.mem_of_mem_filter ha)⟩
  rw [h.wellFormed.arcs_dropVertex, he, List.filter_append, List.filter_filter]
  congr 1
  apply List.filter_congr
  intro a ha
  rw [Bool.eq_iff_iff]
  simp only [Bool.and_eq_true, bne_iff_ne, decide_eq_true_eq, hst a ha]
  tauto

/-- What taking out a node notes about the edges of the copy is true. -/
lemma edges_dropVertex (h : Tracks g o s) (hc : Copied g o)
    (hst : ∀ a ∈ o.dag.arcs, t.Stays a ↔ s.Stays a ∧ a.src ≠ k ∧ a.dst ≠ k)
    (hbase : ∀ id, t.baseEdges.contains id ↔ s.baseEdges.contains id ∧ ¬ s.EdgeAt k id)
    (hremoved : ∀ id, id ∈ t.removedEdges ↔ id ∈ s.removedEdges ∨ s.baseEdges.contains id ∧ s.EdgeAt k id) :
    (∀ id : EdgeId, t.baseEdges.contains id ↔ ∃ a ∈ o.dag.arcs, t.Stays a ∧ id = .arc a.src a.dst) ∧
      ∀ id : EdgeId, id ∈ t.removedEdges ↔ ∃ a ∈ o.dag.arcs, ¬ t.Stays a ∧ id = .arc a.src a.dst := by
  constructor
  · intro id
    rw [hbase, h.baseEdges]
    constructor
    · rintro ⟨⟨a, ha, hs, rfl⟩, hn⟩
      rw [h.edgeAt_iff hc ha hs, not_or] at hn
      exact ⟨a, ha, (hst a ha).2 ⟨hs, hn.2, hn.1⟩, rfl⟩
    · rintro ⟨a, ha, hs, rfl⟩
      obtain ⟨hs, hsrc, hdst⟩ := (hst a ha).1 hs
      exact ⟨⟨a, ha, hs, rfl⟩, by rw [h.edgeAt_iff hc ha hs, not_or]; exact ⟨hdst, hsrc⟩⟩
  · intro id
    rw [hremoved, h.removedEdges, h.baseEdges]
    constructor
    · rintro (⟨a, ha, hs, rfl⟩ | ⟨⟨a, ha, hs, rfl⟩, hk⟩)
      · exact ⟨a, ha, fun ht => hs ((hst a ha).1 ht).1, rfl⟩
      · rw [h.edgeAt_iff hc ha hs] at hk
        refine ⟨a, ha, fun ht => ?_, rfl⟩
        obtain ⟨-, hsrc, hdst⟩ := (hst a ha).1 ht
        exact hk.elim hdst hsrc
    · rintro ⟨a, ha, hn, rfl⟩
      by_cases hs : s.Stays a
      · refine .inr ⟨⟨a, ha, hs, rfl⟩, ?_⟩
        rw [h.edgeAt_iff hc ha hs]
        by_contra hk
        rw [not_or] at hk
        exact hn ((hst a ha).2 ⟨hs, hk.2, hk.1⟩)
      · exact .inl ⟨a, ha, hs, rfl⟩

/-- Taking out a node inside the region keeps the notes true. -/
lemma removeNode (h : Tracks g o s) (hc : Copied g o) (hk : k ∈ s.dag.keys) (hn : ¬ o.anchors.contains k) :
    Tracks g o (s.removeNode k) := by
  obtain ⟨base, removed, he, hbase, hremoved, hnd⟩ := removeNode_eq hk
  have hnd := hnd h.removedEdges_nodup fun id => h.not_baseEdges_of_removed hc
  have hroster := h.toRoster.removeNode hk hn
  rw [he] at hroster ⊢
  by_cases ha : k ∈ s.added
  · -- A node made here is not one of the copy, so all edges of the copy stay.
    rw [if_pos ha] at hroster ⊢
    set t : Sandbox := { s with
      dag := s.dag.dropVertex k, baseEdges := base, removedEdges := removed
      added := s.added.filter (· != k) } with ht
    have hne : ∀ j ∈ o.dag.keys, j ≠ k := by
      rintro j hj rfl
      exact (h.added j ha).2 (hc.mem_keys hj)
    have hst : ∀ a ∈ o.dag.arcs, t.Stays a ↔ s.Stays a ∧ a.src ≠ k ∧ a.dst ≠ k := by
      intro a haa
      exact ⟨fun hs => ⟨hs, hne _ (hc.wellFormed.src_mem a haa), hne _ (hc.wellFormed.dst_mem a haa)⟩, fun hs => hs.1⟩
    have hedges := h.edges_dropVertex hc hst hbase hremoved
    exact { hroster with
      arrowFree := h.arrowFree
      arcs := h.arcs_dropVertex hst
      baseEdges := hedges.1
      removedEdges_nodup := hnd
      removedEdges := hedges.2 }
  · rw [if_neg ha] at hroster ⊢
    set t : Sandbox := { s with
      dag := s.dag.dropVertex k, baseEdges := base, removedEdges := removed
      removedNodes := s.removedNodes ++ [k], modified := s.modified.erase k } with ht
    have hst : ∀ a ∈ o.dag.arcs, t.Stays a ↔ s.Stays a ∧ a.src ≠ k ∧ a.dst ≠ k := by
      intro a _
      simp only [Stays, t, List.mem_append, List.mem_singleton, not_or]
      tauto
    have hedges := h.edges_dropVertex hc hst hbase hremoved
    exact { hroster with
      arrowFree := h.arrowFree
      arcs := h.arcs_dropVertex hst
      baseEdges := hedges.1
      removedEdges_nodup := hnd
      removedEdges := hedges.2 }

end Tracks

/-! ### Putting nodes and edges in -/

/-- What adding a node of a new name does. -/
lemma addNode_eq {s : Sandbox} (h : n.name ∉ s.dag.keys) (seq : UInt64) :
    ∃ dag, s.dag.addVertexAt n.name n seq = .ok dag ∧
      s.addNode n seq = { s with dag, taken := s.taken.add n.name, added := s.added ++ [n.name] } := by
  rw [← Digraph.hasVertex_iff] at h
  refine ⟨_, Digraph.addVertexAt_ok_iff.2 ⟨h, rfl⟩, ?_⟩
  rw [addNode, Digraph.addVertexAt_ok_iff.2 ⟨h, rfl⟩]

/-- What moving an edge does, when its new ends are joined already and when they are not. -/
lemma rewire_eq (s : Sandbox) (old new : Edge) :
    (∃ dag, s.dag.addArc new.src new.dst new = .ok dag ∧ s.rewire old new = { s with
      dag
      renamed := s.renamed.insert (s.origin.getD old.id old.id) new.id
      registered := Graph.moveRegistration s.registered old.id new.id
      origin := (s.origin.erase old.id).insert new.id (s.origin.getD old.id old.id) }) ∨
    (s.dag.addArc new.src new.dst new = .error (.arcExists new.src new.dst) ∧ s.rewire old new = { s with
      renamed := s.renamed.insert (s.origin.getD old.id old.id) new.id
      registered := Graph.moveRegistration s.registered old.id new.id
      origin := s.origin.erase old.id }) ∨
    ((∀ dag, s.dag.addArc new.src new.dst new ≠ .ok dag) ∧
      s.dag.addArc new.src new.dst new ≠ .error (.arcExists new.src new.dst) ∧ s.rewire old new = s) := by
  unfold rewire
  cases he : s.dag.addArc new.src new.dst new with
  | ok dag => exact .inl ⟨dag, rfl, rfl⟩
  | error e =>
    unfold Digraph.addArc at he
    split_ifs at he
    all_goals cases he
    · exact .inr (.inr ⟨by simp, by simp, rfl⟩)
    · exact .inr (.inr ⟨by simp, by simp, rfl⟩)
    · exact .inr (.inr ⟨by simp, by simp, rfl⟩)
    · exact .inr (.inl ⟨rfl, rfl⟩)
    · exact .inr (.inr ⟨by simp, by simp, rfl⟩)

namespace Roster

variable {g : Graph} {o s t : Sandbox} {k : String}

/-- Adding a node of a new name keeps the notes true. -/
lemma addNode (h : Roster g o s) (hn : ¬ s.taken.contains n.name) (seq : UInt64) : Roster g o (s.addNode n seq) := by
  have hk : n.name ∉ s.dag.keys := fun hk => hn (h.live_taken _ hk)
  have hg : n.name ∉ g.dag.keys := fun hk => hn (h.taken _ hk)
  obtain ⟨dag, hdag, he⟩ := addNode_eq hk seq
  have hkeys : ∀ {j}, j ∈ dag.keys ↔ j = n.name ∨ j ∈ s.dag.keys := Digraph.mem_keys_addVertexAt hdag
  have harcs : dag.arcs = s.dag.arcs := Digraph.arcs_addVertexAt hdag
  have hwf := h.wellFormed.addVertexAt hdag
  have hvertex : ∀ {j v}, dag.vertex? j = some v → j ≠ n.name → s.dag.vertex? j = some v := by
    intro j v hv hj
    rwa [Digraph.vertex?_addVertexAt hdag, if_neg hj] at hv
  rw [he]
  exact { h with
    wellFormed := hwf
    acyclic := h.acyclic.of_subset fun _ ha => harcs ▸ ha
    named := fun v hv => by
      have hv := hwf.vertex?_eq_some_iff.2 ⟨hv, rfl⟩
      by_cases hj : v.key = n.name
      · rw [Digraph.vertex?_addVertexAt hdag, if_pos hj] at hv
        cases hv
        rfl
      · exact h.named v (Digraph.mem_of_vertex? (hvertex hv hj))
    payload := fun a ha => h.payload a (harcs ▸ ha)
    taken := fun j hj => NameSet.contains_add.2 (.inr (h.taken j hj))
    live_taken := fun j hj => NameSet.contains_add.2 ((hkeys.1 hj).imp_right (h.live_taken j))
    added_nodup := by
      refine List.nodup_append.2 ⟨h.added_nodup, List.nodup_singleton _, ?_⟩
      rintro a ha b hb rfl
      rw [List.mem_singleton.1 hb] at ha
      exact hk (h.added _ ha).1
    added := fun j hj => by
      rcases List.mem_append.1 hj with hj | hj
      · exact ⟨hkeys.2 (.inr (h.added j hj).1), (h.added j hj).2⟩
      · rw [List.mem_singleton.1 hj]
        exact ⟨hkeys.2 (.inl rfl), hg⟩
    removed := fun j hj => by
      obtain ⟨ho, ha, hd⟩ := h.removed j hj
      refine ⟨ho, ha, fun hm => ?_⟩
      rcases hkeys.1 hm with rfl | hm
      · exact hg (h.within _ ho)
      · exact hd hm
    present := fun j hj hr => hkeys.2 (.inr (h.present j hj hr))
    modified := fun j hj => by
      obtain ⟨hm, hna⟩ := h.modified j hj
      refine ⟨hkeys.2 (.inr hm), ?_⟩
      rw [List.mem_append, List.mem_singleton, not_or]
      refine ⟨hna, ?_⟩
      rintro rfl
      exact hk hm
    vertex := fun {j v} hv hj => by
      rw [List.mem_append, List.mem_singleton, not_or] at hj
      exact h.vertex (hvertex hv hj.2) hj.1 }

/-- Moving an edge keeps the notes true. -/
lemma rewire (h : Roster g o s) (old new : Edge) : Roster g o (s.rewire old new) := by
  rcases rewire_eq s old new with ⟨dag, hdag, he⟩ | ⟨-, he⟩ | ⟨-, -, he⟩
  · have hkeys : dag.keys = s.dag.keys := Digraph.keys_addArc hdag
    have harcs : dag.arcs = s.dag.arcs ++ [⟨new.src, new.dst, new⟩] := Digraph.arcs_addArc hdag
    rw [he]
    exact { h with
      wellFormed := h.wellFormed.addArc hdag
      acyclic := h.wellFormed.acyclic_addArc h.acyclic hdag
      named := fun v hv => h.named v (Digraph.vertices_addArc hdag ▸ hv)
      payload := fun a ha => by
        rw [harcs, List.mem_append, List.mem_singleton] at ha
        rcases ha with ha | rfl
        · exact h.payload a ha
        · exact ⟨rfl, rfl⟩
      live_taken := fun j hj => h.live_taken j (hkeys ▸ hj)
      added := fun j hj => ⟨hkeys.symm ▸ (h.added j hj).1, (h.added j hj).2⟩
      removed := fun j hj => ⟨(h.removed j hj).1, (h.removed j hj).2.1, hkeys.symm ▸ (h.removed j hj).2.2⟩
      present := fun j hj hr => hkeys.symm ▸ h.present j hj hr
      modified := fun j hj => ⟨hkeys.symm ▸ (h.modified j hj).1, (h.modified j hj).2⟩
      vertex := fun {j v} hv hj => h.vertex (Digraph.vertex?_addArc hdag j ▸ hv) hj }
  · rw [he]
    exact { h with }
  · rwa [he]

/-- Replacing the payload of a node keeps the notes true. -/
lemma updateNode (h : Roster g o s) (he : s.updateNode n = .ok t) : Roster g o t := by
  unfold Sandbox.updateNode at he
  split at he
  · cases he
  · rename_i dag hdag
    split at he
    · cases he
    · cases he
      have hkeys : dag.keys = s.dag.keys := Digraph.keys_setVertex hdag
      have harcs : dag.arcs = s.dag.arcs := Digraph.arcs_setVertex hdag
      have hname : n.name ∈ s.dag.keys := Digraph.hasVertex_iff.1 (Digraph.setVertex_ok_iff.1 hdag).1
      have hwf := h.wellFormed.setVertex hdag
      have hmodified : ∀ j, (if s.added.contains n.name then s.modified else s.modified.add n.name).contains j ↔
          (j = n.name ∧ n.name ∉ s.added) ∨ s.modified.contains j := by
        intro j
        by_cases ha : n.name ∈ s.added <;> simp [ha]
      exact { h with
        wellFormed := hwf
        acyclic := h.acyclic.of_subset fun _ ha => harcs ▸ ha
        named := fun v hv => by
          have hv := hwf.vertex?_eq_some_iff.2 ⟨hv, rfl⟩
          rw [Digraph.vertex?_setVertex hdag] at hv
          split at hv
          · obtain ⟨w, hw, rfl⟩ := Option.map_eq_some_iff.1 hv
            exact (Digraph.key_of_vertex? hw).symm
          · exact h.named v (Digraph.mem_of_vertex? hv)
        payload := fun a ha => h.payload a (harcs ▸ ha)
        live_taken := fun j hj => h.live_taken j (hkeys ▸ hj)
        added := fun j hj => ⟨hkeys.symm ▸ (h.added j hj).1, (h.added j hj).2⟩
        removed := fun j hj => ⟨(h.removed j hj).1, (h.removed j hj).2.1, hkeys.symm ▸ (h.removed j hj).2.2⟩
        present := fun j hj hr => hkeys.symm ▸ h.present j hj hr
        modified := fun j hj => by
          rw [hkeys]
          rcases (hmodified j).1 hj with ⟨rfl, hn⟩ | hj
          · exact ⟨hname, hn⟩
          · exact h.modified j hj
        vertex := fun {j v} hv hj => by
          rw [Digraph.vertex?_setVertex hdag] at hv
          split at hv
          · rename_i hjn
            subst hjn
            obtain ⟨u, hu, rfl⟩ := Option.map_eq_some_iff.1 hv
            obtain ⟨w, hw, hseq, -⟩ := h.vertex hu hj
            exact ⟨w, hw, hseq, fun hm => absurd ((hmodified _).2 (.inl ⟨rfl, hj⟩)) hm⟩
          · obtain ⟨w, hw, hseq, hm⟩ := h.vertex hv hj
            exact ⟨w, hw, hseq, fun hn => hm fun hmj => hn ((hmodified j).2 (.inr hmj))⟩ }

end Roster

namespace Tracks

variable {g : Graph} {o s t : Sandbox} {k : String}

/-- Adding a node of a new name keeps the notes true. -/
lemma addNode (h : Tracks g o s) (hn : ¬ s.taken.contains n.name) (haf : ArrowFree n.name) (seq : UInt64) :
    Tracks g o (s.addNode n seq) := by
  have hk : n.name ∉ s.dag.keys := fun hk => hn (h.live_taken _ hk)
  obtain ⟨dag, hdag, he⟩ := addNode_eq hk seq
  have hroster := h.toRoster.addNode hn seq
  rw [he] at hroster ⊢
  exact { hroster with
    arrowFree := fun j hj => (NameSet.contains_add.1 hj).elim (fun e => e ▸ haf) (h.arrowFree j)
    arcs := (Digraph.arcs_addVertexAt hdag).symm ▸ h.arcs
    baseEdges := h.baseEdges
    removedEdges_nodup := h.removedEdges_nodup
    removedEdges := h.removedEdges }

/-- Moving an edge to a place where the graph has none keeps the notes true. -/
lemma rewire (h : Tracks g o s) (old : Edge) {new : Edge} (hn : ¬ g.dag.hasArc new.src new.dst) :
    Tracks g o (s.rewire old new) := by
  have hroster := h.toRoster.rewire old new
  rcases rewire_eq s old new with ⟨dag, hdag, he⟩ | ⟨-, he⟩ | ⟨-, -, he⟩
  · rw [he] at hroster ⊢
    refine { hroster with
      arrowFree := h.arrowFree
      arcs := ?_
      baseEdges := h.baseEdges
      removedEdges_nodup := h.removedEdges_nodup
      removedEdges := h.removedEdges }
    obtain ⟨fresh, hf, hg⟩ := h.arcs
    refine ⟨fresh ++ [⟨new.src, new.dst, new⟩], ?_, ?_⟩
    · rw [Digraph.arcs_addArc hdag, hf, List.append_assoc]
      rfl
    · intro a ha
      rw [List.mem_append, List.mem_singleton] at ha
      rcases ha with ha | rfl
      · exact hg a ha
      · exact hn
  · rw [he]
    exact { h with }
  · rwa [he]

/-- Replacing the payload of a node keeps the notes true. -/
lemma updateNode (h : Tracks g o s) (he : s.updateNode n = .ok t) : Tracks g o t := by
  have hroster := h.toRoster.updateNode he
  unfold Sandbox.updateNode at he
  split at he
  · cases he
  · rename_i dag hdag
    split at he
    · cases he
    · cases he
      exact { hroster with
        arrowFree := h.arrowFree
        arcs := (Digraph.arcs_setVertex hdag).symm ▸ h.arcs
        baseEdges := h.baseEdges
        removedEdges_nodup := h.removedEdges_nodup
        removedEdges := h.removedEdges }

end Tracks

end OpGraph.Sandbox
