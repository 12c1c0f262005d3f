import Mathlib
import OpGraph.Graph.Patch
import OpGraph.Proofs.Verify

/-!
# What a patch does

The phases of a patch, one by one: edges out, nodes out, nodes in, payloads, edges in. Each but the last succeeds
under conditions that say only that it names what is there; an edge can also be refused for closing a cycle. Then the
registered edges and the boundary under their new names.
-/

namespace OpGraph.Graph

variable {dag dag' : Digraph Node Edge}

variable {id : EdgeId} {p : Patch} {k x : String} {names : List String}

/-! ### The phases -/

/-- An edge that is there can be patched out. -/
lemma patchOutEdge_ok {a : Arc Edge} (ha : a ∈ dag.arcs) (haf : ArrowFree a.src) :
    patchOutEdge dag (.arc a.src a.dst) = .ok (dag.dropArc a.src a.dst) := by
  obtain ⟨val, hok⟩ := Digraph.removeArc_ok (Digraph.hasArc_of_mem ha)
  rw [patchOutEdge, EdgeId.endpoints?_arc haf]
  dsimp only
  rw [hok]

/-- Edges that are there can be taken out, each once. -/
lemma patchOutEdges_ok :
    ∀ {ids : List EdgeId} {dag : Digraph Node Edge}, dag.WellFormed → (∀ a ∈ dag.arcs, ArrowFree a.src) → ids.Nodup →
      (∀ id ∈ ids, ∃ a ∈ dag.arcs, id = .arc a.src a.dst) →
      ∃ dag', ids.foldlM patchOutEdge dag = .ok dag' ∧ dag'.WellFormed ∧
        dag'.arcs = (dag.arcs.filter fun a => EdgeId.arc a.src a.dst ∉ ids) ∧ dag'.vertices = dag.vertices
  | [], dag, wf, _, _, _ => ⟨dag, rfl, wf, by simp, rfl⟩
  | id :: ids, dag, wf, haf, hnd, hids => by
    rw [List.nodup_cons] at hnd
    rw [List.forall_mem_cons] at hids
    obtain ⟨⟨a, ha, rfl⟩, hids⟩ := hids
    have hdrop : (dag.dropArc a.src a.dst).arcs =
        dag.arcs.filter fun b => EdgeId.arc b.src b.dst ≠ EdgeId.arc a.src a.dst := by
      rw [Digraph.arcs_dropArc]
      apply List.filter_congr
      intro b hb
      rw [Bool.eq_iff_iff]
      simp only [Bool.not_eq_true', Bool.and_eq_false_imp, beq_iff_eq, beq_eq_false_iff_ne, ne_eq, decide_eq_true_eq,
        EdgeId.arc_inj (haf b hb) (haf a ha), not_and]
    obtain ⟨dag', hfold, hwf, harcs, hvertices⟩ := patchOutEdges_ok (wf.dropArc a.src a.dst)
      (fun b hb => haf b (Digraph.mem_arcs_dropArc.1 hb).1) hnd.2 fun id hid => by
        obtain ⟨b, hb, rfl⟩ := hids id hid
        refine ⟨b, ?_, rfl⟩
        rw [hdrop, List.mem_filter]
        refine ⟨hb, decide_eq_true ?_⟩
        intro he
        exact hnd.1 (he ▸ hid)
    refine ⟨dag', ?_, hwf, ?_, hvertices.trans (Digraph.vertices_dropArc _ _ _)⟩
    · rw [List.foldlM_cons, patchOutEdge_ok ha (haf a ha)]
      exact hfold
    · rw [harcs, hdrop, List.filter_filter]
      apply List.filter_congr
      intro b _
      simp [Bool.and_comm]

/-- Nodes without edges can be taken out, each once. -/
lemma patchOutNodes_ok :
    ∀ {names : List String} {dag : Digraph Node Edge}, dag.WellFormed → names.Nodup → (∀ k ∈ names, k ∈ dag.keys) →
      (∀ a ∈ dag.arcs, a.src ∉ names ∧ a.dst ∉ names) →
      ∃ dag', names.foldlM patchOutNode dag = .ok dag' ∧ dag'.WellFormed ∧ dag'.arcs = dag.arcs ∧
        ∀ k, dag'.vertex? k = if k ∈ names then none else dag.vertex? k
  | [], dag, wf, _, _, _ => ⟨dag, rfl, wf, rfl, by simp⟩
  | k :: names, dag, wf, hnd, hmem, harcs => by
    rw [List.nodup_cons] at hnd
    rw [List.forall_mem_cons] at hmem
    have hends : ∀ a ∈ dag.arcs, a.src ≠ k ∧ a.dst ≠ k := fun a ha =>
      ⟨fun h => (harcs a ha).1 (List.mem_cons.2 (.inl h)), fun h => (harcs a ha).2 (List.mem_cons.2 (.inl h))⟩
    have hdrop : (dag.dropVertex k).arcs = dag.arcs := by
      rw [wf.arcs_dropVertex]
      exact List.filter_eq_self.2 fun a ha => by simpa using hends a ha
    have hstep : patchOutNode dag k = .ok (dag.dropVertex k) := by
      have hout : dag.succs k = [] := (wf.succs_eq k).trans (Digraph.ends_eq_nil fun a ha => (hends a ha).1)
      have hin : dag.preds k = [] := (wf.preds_eq k).trans (Digraph.ends_eq_nil fun a ha => (hends a ha).2)
      have hdeg : ¬ dag.inDegree k + dag.outDegree k > 0 := by
        simp [Digraph.inDegree, Digraph.outDegree, hin, hout]
      rw [patchOutNode, if_neg (by simp [Digraph.hasVertex_iff.2 hmem.1]), if_neg hdeg]
    obtain ⟨dag', hfold, hwf, harcs', hvertex⟩ := patchOutNodes_ok (wf.dropVertex k) hnd.2
      (fun j hj => Digraph.mem_keys_dropVertex.2 ⟨fun h => hnd.1 (h ▸ hj), hmem.2 j hj⟩) (fun a ha => by
        rw [hdrop] at ha
        exact ⟨fun h => (harcs a ha).1 (List.mem_cons_of_mem _ h), fun h => (harcs a ha).2 (List.mem_cons_of_mem _ h)⟩)
    refine ⟨dag', ?_, hwf, harcs'.trans hdrop, fun j => ?_⟩
    · rw [List.foldlM_cons, hstep]
      exact hfold
    · rw [hvertex, Digraph.vertex?_dropVertex]
      by_cases hj : j = k <;> simp [hj]

/-- Nodes of new names can be put in. -/
lemma patchInNodes_ok :
    ∀ {ps : List PlacedNode} {dag : Digraph Node Edge}, dag.WellFormed → (ps.map (·.node.name)).Nodup →
      (∀ p ∈ ps, p.node.name ∉ dag.keys) →
      ∃ dag', ps.foldlM patchInNode dag = .ok dag' ∧ dag'.WellFormed ∧ dag'.arcs = dag.arcs ∧
        ∀ k, dag'.vertex? k =
          ((ps.find? (·.node.name == k)).map fun p => ⟨k, p.node, p.seq⟩).or (dag.vertex? k)
  | [], dag, wf, _, _ => ⟨dag, rfl, wf, rfl, by simp⟩
  | p :: ps, dag, wf, hnd, hnew => by
    rw [List.map_cons, List.nodup_cons] at hnd
    rw [List.forall_mem_cons] at hnew
    obtain ⟨mid, hok⟩ : ∃ mid, dag.addVertexAt p.node.name p.node p.seq = .ok mid :=
      ⟨_, Digraph.addVertexAt_ok_iff.2 ⟨fun h => hnew.1 (Digraph.hasVertex_iff.1 h), rfl⟩⟩
    have hstep : patchInNode dag p = .ok mid := by
      rw [patchInNode, hok]
    obtain ⟨dag', hfold, hwf, harcs, hvertex⟩ := patchInNodes_ok (wf.addVertexAt hok) hnd.2 fun q hq hk => by
      rcases (Digraph.mem_keys_addVertexAt hok).1 hk with he | hk
      · exact hnd.1 (List.mem_map.2 ⟨q, hq, he⟩)
      · exact hnew.2 q hq hk
    refine ⟨dag', ?_, hwf, harcs.trans (Digraph.arcs_addVertexAt hok), fun k => ?_⟩
    · rw [List.foldlM_cons, hstep]
      exact hfold
    · rw [hvertex, Digraph.vertex?_addVertexAt hok]
      by_cases hk : p.node.name = k
      · subst hk
        have hnone : ps.find? (·.node.name == p.node.name) = none := by
          refine List.find?_eq_none.2 fun q hq he => ?_
          exact hnd.1 (List.mem_map.2 ⟨q, hq, by simpa using he⟩)
        simp [hnone]
      · simp [hk, Ne.symm hk]

/-- Payloads of nodes that are there can be replaced. -/
lemma patchNodes_ok :
    ∀ {ns : List Node} {dag : Digraph Node Edge}, dag.WellFormed → (ns.map (·.name)).Nodup →
      (∀ n ∈ ns, n.name ∈ dag.keys) →
      ∃ dag', ns.foldlM patchNode dag = .ok dag' ∧ dag'.WellFormed ∧ dag'.arcs = dag.arcs ∧
        ∀ k, dag'.vertex? k =
          (dag.vertex? k).map fun v => { v with val := (ns.find? (·.name == k)).getD v.val }
  | [], dag, wf, _, _ => ⟨dag, rfl, wf, rfl, by simp⟩
  | n :: ns, dag, wf, hnd, hmem => by
    rw [List.map_cons, List.nodup_cons] at hnd
    rw [List.forall_mem_cons] at hmem
    obtain ⟨mid, hok⟩ : ∃ mid, dag.setVertex n.name n = .ok mid :=
      ⟨_, Digraph.setVertex_ok_iff.2 ⟨Digraph.hasVertex_iff.2 hmem.1, rfl⟩⟩
    have hstep : patchNode dag n = .ok mid := by
      rw [patchNode, hok]
    obtain ⟨dag', hfold, hwf, harcs, hvertex⟩ := patchNodes_ok (wf.setVertex hok) hnd.2 fun m hm =>
      (Digraph.keys_setVertex hok).symm ▸ hmem.2 m hm
    refine ⟨dag', ?_, hwf, harcs.trans (Digraph.arcs_setVertex hok), fun k => ?_⟩
    · rw [List.foldlM_cons, hstep]
      exact hfold
    · rw [hvertex, Digraph.vertex?_setVertex hok]
      by_cases hk : n.name = k
      · subst hk
        have hnone : ns.find? (·.name == n.name) = none := by
          refine List.find?_eq_none.2 fun m hm he => ?_
          exact hnd.1 (List.mem_map.2 ⟨m, hm, by simpa using he⟩)
        rw [if_pos rfl, Option.map_map]
        simp [hnone, Function.comp_def]
      · simp [hk, Ne.symm hk]

/-- Patching an edge in adds its arc. -/
lemma patchInEdge_ok {e : Edge} (hok : patchInEdge dag e = .ok dag') : dag.addArc e.src e.dst e = .ok dag' := by
  unfold patchInEdge at hok
  split at hok
  · cases hok
    assumption
  · cases hok

/-- Edges that were put in stand behind the others, and they closed no cycle. -/
lemma patchInEdges_ok {es : List Edge} (h : es.foldlM patchInEdge dag = .ok dag') (wf : dag.WellFormed)
    (ac : dag.Acyclic) :
    dag'.vertices = dag.vertices ∧ dag'.arcs = dag.arcs ++ es.map (fun e => ⟨e.src, e.dst, e⟩) ∧ dag'.WellFormed ∧
      dag'.Acyclic := by
  induction es generalizing dag with
  | nil =>
    cases h
    exact ⟨rfl, by simp, wf, ac⟩
  | cons e es ih =>
    rw [List.foldlM_cons, bind_eq_ok] at h
    obtain ⟨mid, hstep, h⟩ := h
    have hok := patchInEdge_ok hstep
    obtain ⟨hv, ha, hwf, hac⟩ := ih h (wf.addArc hok) (wf.acyclic_addArc ac hok)
    refine ⟨hv.trans (Digraph.vertices_addArc hok), ?_, hwf, hac⟩
    rw [ha, Digraph.arcs_addArc hok, List.append_assoc, List.map_cons, List.singleton_append]

/-- New edges can be put in when all of them fit into a relation without cycles. -/
lemma patchInEdges_of_acyclic {r : String → String → Prop} (hr : ∀ x, ¬ Relation.TransGen r x x) :
    ∀ {es : List Edge} {dag : Digraph Node Edge}, dag.WellFormed → (∀ x y, dag.hasArc x y → r x y) →
      (∀ e ∈ es, e.src ∈ dag.keys ∧ e.dst ∈ dag.keys ∧ r e.src e.dst ∧ ¬ dag.hasArc e.src e.dst) →
      (es.map fun e => (e.src, e.dst)).Nodup → ∃ dag', es.foldlM patchInEdge dag = .ok dag'
  | [], dag, _, _, _, _ => ⟨dag, rfl⟩
  | e :: es, dag, wf, hsub, hes, hnd => by
    rw [List.forall_mem_cons] at hes
    rw [List.map_cons, List.nodup_cons] at hnd
    obtain ⟨⟨hs, hd, hre, hn⟩, hes⟩ := hes
    obtain ⟨mid, hok⟩ := ((wf.addArc_of_acyclic hr hsub (Digraph.hasVertex_iff.2 hs) (Digraph.hasVertex_iff.2 hd)
      hre e).resolve_left fun h => hn h.1).2
    have hstep : patchInEdge dag e = .ok mid := by
      rw [patchInEdge, hok]
    have hkeys := Digraph.keys_addArc hok
    obtain ⟨dag', hfold⟩ := patchInEdges_of_acyclic hr (wf.addArc hok) (fun x y hxy => by
      rcases (Digraph.hasArc_addArc hok).1 hxy with ⟨rfl, rfl⟩ | hxy
      · exact hre
      · exact hsub x y hxy) (fun e' he' => by
      obtain ⟨hs', hd', hr', hn'⟩ := hes e' he'
      refine ⟨hkeys ▸ hs', hkeys ▸ hd', hr', fun harc => ?_⟩
      rcases (Digraph.hasArc_addArc hok).1 harc with ⟨hse, hde⟩ | harc
      · exact hnd.1 (List.mem_map.2 ⟨e', he', by rw [hse, hde]⟩)
      · exact hn' harc) hnd.2
    exact ⟨dag', by rw [List.foldlM_cons, hstep]; exact hfold⟩

/-! ### What any patch leaves -/

/-- Patching an edge out drops the arc between its ends. -/
lemma patchOutEdge_eq (hok : patchOutEdge dag id = .ok dag') :
    ∃ src dst, id.endpoints? = some (src, dst) ∧ dag' = dag.dropArc src dst := by
  unfold patchOutEdge at hok
  split at hok
  · cases hok
  · rename_i src dst hid
    unfold Digraph.removeArc at hok
    split at hok
    · rename_i hrem
      split at hrem
      · cases hrem
        cases hok
        exact ⟨src, dst, hid, rfl⟩
      · cases hrem
    · cases hok

/-- Patching a node out drops its vertex. -/
lemma patchOutNode_eq {name : String} (hok : patchOutNode dag name = .ok dag') : dag' = dag.dropVertex name := by
  unfold patchOutNode at hok
  split_ifs at hok
  cases hok
  rfl

/-- Patching a node in adds its vertex with the number that the patch has for it. -/
lemma patchInNode_ok {q : PlacedNode} (hok : patchInNode dag q = .ok dag') :
    dag.addVertexAt q.node.name q.node q.seq = .ok dag' := by
  unfold patchInNode at hok
  split at hok
  · cases hok
    assumption
  · cases hok

/-- Patching a node sets its vertex. -/
lemma patchNode_ok {m : Node} (hok : patchNode dag m = .ok dag') : dag.setVertex m.name m = .ok dag' := by
  unfold patchNode at hok
  split at hok
  · cases hok
    assumption
  · cases hok

/-- What a patch makes of a digraph of nodes, whatever it says and whatever nodes are called. -/
structure Patched (dag : Digraph Node Edge) (p : Patch) (dag' : Digraph Node Edge) : Prop where
  wellFormed : dag'.WellFormed
  named : ∀ v ∈ dag'.vertices, v.val.name = v.key
  node : ∀ {k n}, dag'.val? k = some n → dag.val? k = some n ∨ (∃ q ∈ p.addNodes, q.node = n) ∨ n ∈ p.replaceNodes

namespace Patched

variable {p : Patch} {mid : Digraph Node Edge}

lemma of_vertices (h : Patched dag p mid) (wf : dag'.WellFormed) (hv : dag'.vertices = mid.vertices) :
    Patched dag p dag' := by
  refine ⟨wf, hv ▸ h.named, fun {k n} hn => h.node ?_⟩
  rwa [Digraph.val?, Digraph.vertex?, hv] at hn

/-- Patching out an edge is part of the patch. -/
lemma outEdge (h : Patched dag p mid) (hok : patchOutEdge mid id = .ok dag') : Patched dag p dag' := by
  obtain ⟨src, dst, -, rfl⟩ := patchOutEdge_eq hok
  exact h.of_vertices (h.wellFormed.dropArc src dst) (Digraph.vertices_dropArc _ _ _)

/-- Patching out a node is part of the patch. -/
lemma outNode (h : Patched dag p mid) {name : String} (hok : patchOutNode mid name = .ok dag') :
    Patched dag p dag' := by
  obtain rfl := patchOutNode_eq hok
  refine ⟨h.wellFormed.dropVertex name, fun v hv => h.named v (Digraph.mem_of_mem_vertices_dropVertex hv),
    fun {k n} hn => h.node ?_⟩
  rw [Digraph.val?, Digraph.vertex?_dropVertex] at hn
  split at hn
  · cases hn
  · exact hn

/-- Patching in a node of the patch is part of it. -/
lemma inNode (h : Patched dag p mid) {q : PlacedNode} (hq : q ∈ p.addNodes) (hok : patchInNode mid q = .ok dag') :
    Patched dag p dag' := by
  have hok := patchInNode_ok hok
  have hwf := h.wellFormed.addVertexAt hok
  refine ⟨hwf, fun v hv => ?_, fun {k n} hn => ?_⟩
  · have hget := hwf.vertex?_eq_some_iff.2 ⟨hv, rfl⟩
    rw [Digraph.vertex?_addVertexAt hok] at hget
    split at hget
    · cases hget
      rfl
    · exact h.named v (Digraph.mem_of_vertex? hget)
  · rw [Digraph.val?, Digraph.vertex?_addVertexAt hok] at hn
    split at hn
    · cases hn
      exact .inr (.inl ⟨q, hq, rfl⟩)
    · exact h.node hn

/-- Patching a node of the patch is part of it. -/
lemma replaceNode (h : Patched dag p mid) {m : Node} (hm : m ∈ p.replaceNodes) (hok : patchNode mid m = .ok dag') :
    Patched dag p dag' := by
  have hok := patchNode_ok hok
  have hwf := h.wellFormed.setVertex hok
  refine ⟨hwf, fun v hv => ?_, fun {k n} hn => ?_⟩
  · have hget := hwf.vertex?_eq_some_iff.2 ⟨hv, rfl⟩
    rw [Digraph.vertex?_setVertex hok] at hget
    split at hget
    · obtain ⟨w, hw, rfl⟩ := Option.map_eq_some_iff.1 hget
      exact (Digraph.key_of_vertex? hw).symm
    · exact h.named v (Digraph.mem_of_vertex? hget)
  · rw [Digraph.val?, Digraph.vertex?_setVertex hok] at hn
    split at hn
    · rw [Option.map_map] at hn
      obtain ⟨w, -, rfl⟩ := Option.map_eq_some_iff.1 hn
      exact .inr (.inr hm)
    · exact h.node hn

/-- Patching in an edge is part of the patch. -/
lemma inEdge (h : Patched dag p mid) {e : Edge} (hok : patchInEdge mid e = .ok dag') : Patched dag p dag' :=
  h.of_vertices (h.wellFormed.addArc (patchInEdge_ok hok)) (Digraph.vertices_addArc (patchInEdge_ok hok))

end Patched

/-- What every change of a patch keeps, the patch keeps. -/
lemma patchTopology_induct {P : Digraph Node Edge → Prop}
    (outEdge : ∀ d id d', id ∈ p.removeEdges → P d → patchOutEdge d id = .ok d' → P d')
    (outNode : ∀ d name d', name ∈ p.removeNodes → P d → patchOutNode d name = .ok d' → P d')
    (inNode : ∀ d q d', q ∈ p.addNodes → P d → patchInNode d q = .ok d' → P d')
    (replaceNode : ∀ d n d', n ∈ p.replaceNodes → P d → patchNode d n = .ok d' → P d')
    (inEdge : ∀ d e d', e ∈ p.addEdges → P d → patchInEdge d e = .ok d' → P d')
    (h₀ : P dag) (h : patchTopology dag p = .ok dag') : P dag' := by
  unfold patchTopology at h
  obtain ⟨d₁, h₁, h⟩ := bind_eq_ok.1 h
  obtain ⟨d₂, h₂, h⟩ := bind_eq_ok.1 h
  obtain ⟨d₃, h₃, h⟩ := bind_eq_ok.1 h
  obtain ⟨d₄, h₄, h₅⟩ := bind_eq_ok.1 h
  have hp₂ := foldlM_ok_induct outNode (foldlM_ok_induct outEdge h₀ h₁) h₂
  have hp₄ := foldlM_ok_induct replaceNode (foldlM_ok_induct inNode hp₂ h₃) h₄
  exact foldlM_ok_induct inEdge hp₄ h₅

/-- A patch that can be applied leaves a well-formed digraph in which every node is kept under its own name. -/
lemma patched_patchTopology (wf : dag.WellFormed) (named : ∀ v ∈ dag.vertices, v.val.name = v.key)
    (h : patchTopology dag p = .ok dag') : Patched dag p dag' :=
  patchTopology_induct (fun _ _ _ _ hp hok => hp.outEdge hok) (fun _ _ _ _ hp hok => hp.outNode hok)
    (fun _ _ _ hq hp hok => hp.inNode hq hok) (fun _ _ _ hm hp hok => hp.replaceNode hm hok)
    (fun _ _ _ _ hp hok => hp.inEdge hok) ⟨wf, named, fun hn => .inl hn⟩ h

/-- After nodes were patched out all others are there. -/
lemma mem_keys_patchOutNodes :
    ∀ {names : List String} {dag dag' : Digraph Node Edge}, names.foldlM patchOutNode dag = .ok dag' →
      (k ∈ dag'.keys ↔ k ∈ dag.keys ∧ k ∉ names)
  | [], dag, dag', h => by
    cases h
    simp
  | name :: names, dag, dag', h => by
    rw [List.foldlM_cons] at h
    obtain ⟨mid, hmid, h⟩ := bind_eq_ok.1 h
    obtain rfl := patchOutNode_eq hmid
    rw [mem_keys_patchOutNodes h, Digraph.mem_keys_dropVertex, List.mem_cons]
    tauto

/-- After nodes were patched in, they are there beside those that were there before. -/
lemma mem_keys_patchInNodes :
    ∀ {qs : List PlacedNode} {dag dag' : Digraph Node Edge}, qs.foldlM patchInNode dag = .ok dag' →
      (k ∈ dag'.keys ↔ k ∈ dag.keys ∨ ∃ q ∈ qs, q.node.name = k)
  | [], dag, dag', h => by
    cases h
    simp
  | q :: qs, dag, dag', h => by
    rw [List.foldlM_cons] at h
    obtain ⟨mid, hmid, h⟩ := bind_eq_ok.1 h
    rw [mem_keys_patchInNodes h, Digraph.mem_keys_addVertexAt (patchInNode_ok hmid), List.exists_mem_cons_iff,
      @eq_comm _ q.node.name]
    tauto

/-- The names that a patch leaves. -/
lemma mem_keys_patchTopology (h : patchTopology dag p = .ok dag') :
    k ∈ dag'.keys ↔ (k ∈ dag.keys ∧ k ∉ p.removeNodes) ∨ ∃ q ∈ p.addNodes, q.node.name = k := by
  unfold patchTopology at h
  obtain ⟨d₁, h₁, h⟩ := bind_eq_ok.1 h
  obtain ⟨d₂, h₂, h⟩ := bind_eq_ok.1 h
  obtain ⟨d₃, h₃, h⟩ := bind_eq_ok.1 h
  obtain ⟨d₄, h₄, h₅⟩ := bind_eq_ok.1 h
  have hk₁ : d₁.keys = dag.keys := foldlM_ok_induct (P := fun d => d.keys = dag.keys) (fun d id d' _ hd hok => by
    obtain ⟨src, dst, -, rfl⟩ := patchOutEdge_eq hok
    exact (Digraph.keys_dropArc _ _ _).trans hd) rfl h₁
  have hk₄ : d₄.keys = d₃.keys := foldlM_ok_induct (P := fun d => d.keys = d₃.keys)
    (fun d m d' _ hd hok => (Digraph.keys_setVertex (patchNode_ok hok)).trans hd) rfl h₄
  have hk₅ : dag'.keys = d₄.keys := foldlM_ok_induct (P := fun d => d.keys = d₄.keys)
    (fun d e d' _ hd hok => (Digraph.keys_addArc (patchInEdge_ok hok)).trans hd) rfl h₅
  rw [hk₅, hk₄, mem_keys_patchInNodes h₃, mem_keys_patchOutNodes h₂, hk₁]

/-- A node that a patch neither takes out nor puts in nor replaces stays as it is. -/
lemma vertex?_patchTopology (h : patchTopology dag p = .ok dag') (hout : k ∉ p.removeNodes)
    (hin : ∀ q ∈ p.addNodes, q.node.name ≠ k) (hrep : ∀ n ∈ p.replaceNodes, n.name ≠ k) :
    dag'.vertex? k = dag.vertex? k := by
  refine patchTopology_induct (P := fun d => d.vertex? k = dag.vertex? k) ?_ ?_ ?_ ?_ ?_ rfl h
  · intro d id d' _ hd hok
    obtain ⟨src, dst, -, rfl⟩ := patchOutEdge_eq hok
    exact (Digraph.vertex?_dropArc _ _ _ _).trans hd
  · intro d name d' hname hd hok
    obtain rfl := patchOutNode_eq hok
    have hk : k ≠ name := fun hk => hout (hk ▸ hname)
    rw [Digraph.vertex?_dropVertex, if_neg hk, hd]
  · intro d q d' hq hd hok
    rw [Digraph.vertex?_addVertexAt (patchInNode_ok hok), if_neg (hin q hq).symm, hd]
  · intro d n d' hn hd hok
    rw [Digraph.vertex?_setVertex (patchNode_ok hok), if_neg (hrep n hn).symm, hd]
  · exact fun d e d' _ hd hok => (Digraph.vertex?_addArc (patchInEdge_ok hok) k).trans hd

/-- An edge that a patch neither takes out nor puts in stays as it is, if its ends stay. -/
lemma arc?_patchTopology (h : patchTopology dag p = .ok dag') {y : String}
    (hout : ∀ id ∈ p.removeEdges, id ≠ .arc x y) (hx : x ∉ p.removeNodes) (hy : y ∉ p.removeNodes)
    (hin : ∀ e ∈ p.addEdges, ¬ (e.src = x ∧ e.dst = y)) : dag'.arc? x y = dag.arc? x y := by
  refine patchTopology_induct (P := fun d => d.arc? x y = dag.arc? x y) ?_ ?_ ?_ ?_ ?_ rfl h
  · intro d id d' hid hd hok
    obtain ⟨src, dst, hends, rfl⟩ := patchOutEdge_eq hok
    refine (Digraph.arc?_dropArc ?_).trans hd
    rintro ⟨rfl, rfl⟩
    exact hout id hid (EdgeId.eq_arc_of_endpoints? hends)
  · intro d name d' hname hd hok
    obtain rfl := patchOutNode_eq hok
    have hxn : x ≠ name := fun hk => hx (hk ▸ hname)
    have hyn : y ≠ name := fun hk => hy (hk ▸ hname)
    exact (Digraph.arc?_dropVertex hxn hyn).trans hd
  · intro d q d' _ hd hok
    rw [Digraph.arc?, Digraph.arcs_addVertexAt (patchInNode_ok hok)]
    exact hd
  · intro d n d' _ hd hok
    rw [Digraph.arc?, Digraph.arcs_setVertex (patchNode_ok hok)]
    exact hd
  · exact fun d e d' he hd hok => (Digraph.arc?_addArc (patchInEdge_ok hok) (hin e he)).trans hd

/-- What applying a patch that changes something makes of a graph. -/
structure Applies (g : Graph) (p : Patch) (g' : Graph) : Prop where
  topology : patchTopology g.dag p = .ok g'.dag
  patched : Patched g.dag p g'.dag
  names : ∀ {k}, k ∈ g'.names ↔ (k ∈ g.names ∧ k ∉ p.removeNodes) ∨ ∃ q ∈ p.addNodes, q.node.name = k
  merges : g'.merges = g.merges.filter (fun r : MergeRecord => !p.supersedes.contains r.fused) ++ p.merges
  registered : g'.registered = renameRegistered g.registered p.renamed
  sound : g'.Sound

lemma Applies.wellFormed {g g' : Graph} (h : Applies g p g') : g'.WellFormed :=
  ⟨h.patched.wellFormed, h.patched.named⟩

/-- A patch that can be applied changes nothing, or what it leaves is verified. -/
lemma apply_ok {g g' : Graph} (wf : g.WellFormed) (h : g.apply p = .ok g') : (p.isEmpty ∧ g' = g) ∨ Applies g p g' := by
  unfold apply at h
  split at h
  · cases h
  · split at h
    · cases h
    · split at h
      · cases h
        exact .inl ⟨‹_›, rfl⟩
      · obtain ⟨dag, hdag, h⟩ := bind_eq_ok.1 h
        dsimp only at h
        split at h
        · rename_i hverify
          cases h
          have hp := patched_patchTopology wf.dag wf.named hdag
          refine .inr ⟨hdag, hp, mem_keys_patchTopology hdag, rfl, rfl, (WellFormed.verify_ok_iff ?_).1 hverify⟩
          exact ⟨hp.wellFormed, hp.named⟩
        · cases h

/-- A patch is for one version of the graph, and what it changes makes another one. -/
lemma version_apply {g g' : Graph} (h : g.apply p = .ok g') :
    p.baseVersion = g.version ∧ (g' = g ∨ patchTopology g.dag p = .ok g'.dag ∧ g.version < g'.version) := by
  unfold apply at h
  split at h
  · cases h
  · rename_i hbase
    refine ⟨not_not.1 hbase, ?_⟩
    split at h
    · cases h
    · split at h
      · cases h
        exact .inl rfl
      · obtain ⟨dag, hdag, h⟩ := bind_eq_ok.1 h
        dsimp only at h
        split at h
        · cases h
          exact .inr ⟨hdag, Nat.lt_succ_self _⟩
        · cases h

/-- An empty patch leaves the digraph as it is. -/
lemma patchTopology_of_isEmpty (h : p.isEmpty) : patchTopology dag p = .ok dag := by
  simp only [Patch.isEmpty, Bool.and_eq_true, List.isEmpty_iff, and_assoc] at h
  obtain ⟨h₁, h₂, h₃, h₄, h₅, -⟩ := h
  rw [patchTopology, h₁, h₂, h₃, h₄, h₅]
  rfl

/-- Whatever keeps a patch from changing nodes and edges is reported. -/
lemma fault_patchTopology {e : Error} (h : patchTopology dag p = .error e) : ∃ f, e.toFault = .failure f := by
  have hout : ∀ {dag id}, patchOutEdge dag id = .error e → ∃ f, e.toFault = .failure f := by
    intro dag id h
    unfold patchOutEdge at h
    split at h
    · cases h
      exact ⟨_, rfl⟩
    · split at h <;> cases h
      exact ⟨_, rfl⟩
  have hoff : ∀ {dag name}, patchOutNode dag name = .error e → ∃ f, e.toFault = .failure f := by
    intro dag name h
    unfold patchOutNode at h
    split_ifs at h <;> cases h <;> exact ⟨_, rfl⟩
  have hin : ∀ {dag p}, patchInNode dag p = .error e → ∃ f, e.toFault = .failure f := by
    intro dag p h
    unfold patchInNode at h
    split at h <;> cases h
    exact ⟨_, rfl⟩
  have hval : ∀ {dag n}, patchNode dag n = .error e → ∃ f, e.toFault = .failure f := by
    intro dag n h
    unfold patchNode at h
    split at h <;> cases h
    exact ⟨_, rfl⟩
  have hedge : ∀ {dag e'}, patchInEdge dag e' = .error e → ∃ f, e.toFault = .failure f := by
    intro dag e' h
    unfold patchInEdge at h
    split at h <;> cases h
    exact ⟨_, rfl⟩
  unfold patchTopology at h
  simp only [bind_eq_error] at h
  rcases h with h | ⟨_, -, h | ⟨_, -, h | ⟨_, -, h | ⟨_, -, h⟩⟩⟩⟩
  · obtain ⟨_, _, -, h⟩ := foldlM_error h
    exact hout h
  · obtain ⟨_, _, -, h⟩ := foldlM_error h
    exact hoff h
  · obtain ⟨_, _, -, h⟩ := foldlM_error h
    exact hin h
  · obtain ⟨_, _, -, h⟩ := foldlM_error h
    exact hval h
  · obtain ⟨_, _, -, h⟩ := foldlM_error h
    exact hedge h

/-! ### New names -/

/-- After a registration was moved, the new edge is registered if the old one was, and the old one no longer is. -/
lemma contains_moveRegistration {r : NameSet} {old new : EdgeId} :
    (moveRegistration r old new).contains id ↔ (r.contains id ∧ id ≠ old) ∨ (id = new ∧ r.contains old) := by
  unfold moveRegistration
  split
  · rename_i h
    simp only [NameSet.contains_add, Dict.contains_erase, h, and_true]
    tauto
  · rename_i h
    constructor
    · intro hid
      refine .inl ⟨hid, ?_⟩
      rintro rfl
      exact h hid
    · rintro (⟨hid, -⟩ | ⟨-, ho⟩)
      · exact hid
      · exact absurd ho h

/-- Registrations that are moved one after the other, when none is moved to where another one is moved from. -/
lemma contains_foldl_moveRegistration : ∀ {ps : List (EdgeId × EdgeId)} {registered : NameSet}, (ps.map (·.1)).Nodup →
      (∀ p ∈ ps, ∀ q ∈ ps, p.2 ≠ q.1) → ((ps.foldl (fun s p => moveRegistration s p.1 p.2) registered).contains id ↔
        (registered.contains id ∧ ∀ p ∈ ps, p.1 ≠ id) ∨ ∃ p ∈ ps, p.2 = id ∧ registered.contains p.1)
  | [], _, _, _ => by simp
  | p :: ps, registered, hnd, hne => by
    rw [List.map_cons, List.nodup_cons] at hnd
    rw [List.foldl_cons, contains_foldl_moveRegistration hnd.2 fun q hq q' hq' =>
      hne q (List.mem_cons_of_mem _ hq) q' (List.mem_cons_of_mem _ hq')]
    have hother : ∀ q ∈ ps, ((moveRegistration registered p.1 p.2).contains q.1 ↔ registered.contains q.1) := by
      intro q hq
      have h₁ : q.1 ≠ p.1 := fun h => hnd.1 (List.mem_map.2 ⟨q, hq, h⟩)
      have h₂ : q.1 ≠ p.2 := fun h => hne p List.mem_cons_self q (List.mem_cons_of_mem _ hq) h.symm
      simp [contains_moveRegistration, h₁, h₂]
    have hnot : ∀ q ∈ ps, q.1 ≠ p.2 := fun q hq h =>
      hne p List.mem_cons_self q (List.mem_cons_of_mem _ hq) h.symm
    rw [contains_moveRegistration]
    simp only [List.mem_cons, forall_eq_or_imp, exists_eq_or_imp]
    constructor
    · rintro (⟨⟨hr, hne'⟩ | ⟨rfl, hr⟩, hps⟩ | ⟨q, hq, he, hr⟩)
      · exact .inl ⟨hr, Ne.symm hne', hps⟩
      · exact .inr (.inl ⟨rfl, hr⟩)
      · exact .inr (.inr ⟨q, hq, he, (hother q hq).1 hr⟩)
    · rintro (⟨hr, hne', hps⟩ | ⟨rfl, hr⟩ | ⟨q, hq, he, hr⟩)
      · exact .inl ⟨.inl ⟨hr, Ne.symm hne'⟩, hps⟩
      · exact .inl ⟨.inr ⟨rfl, hr⟩, hnot⟩
      · exact .inr ⟨q, hq, he, (hother q hq).2 hr⟩

section NewIdentifiers

variable {registered : NameSet} {renamed : Dict EdgeId}
  (h : ∀ {b id}, renamed.get? b = some id → renamed.get? id = none)

include h in
/-- No new identifier is one that is to be replaced. -/
lemma entries_apart : ∀ p ∈ renamed.entries, ∀ q ∈ renamed.entries, p.2 ≠ q.1 := by
  intro p hp q hq he
  have hnone := h ((Dict.get?_eq_some_iff renamed p.1 p.2).2 hp)
  rw [he, (Dict.get?_eq_some_iff renamed q.1 q.2).2 hq] at hnone
  cases hnone

include h in
/-- The order in which new identifiers are taken up does not matter, provided none is one that is to be replaced. -/
lemma renameRegistered_any_order {ps : List (EdgeId × EdgeId)} (hp : ps.Perm renamed.entries) :
    ps.foldl (fun s p => moveRegistration s p.1 p.2) registered = renameRegistered registered renamed := by
  have hnd : (renamed.entries.map (·.1)).Nodup := Dict.keys_nodup renamed
  have hne := entries_apart h
  have hnd' : (ps.map (·.1)).Nodup := (hp.map _).nodup_iff.2 hnd
  have hne' : ∀ p ∈ ps, ∀ q ∈ ps, p.2 ≠ q.1 := fun p hmem q hmem' => hne p (hp.mem_iff.1 hmem) q (hp.mem_iff.1 hmem')
  refine NameSet.ext fun id => ?_
  rw [renameRegistered, contains_foldl_moveRegistration hnd' hne', contains_foldl_moveRegistration hnd hne]
  simp only [hp.mem_iff]

include h in
/-- Registered edges that have a new identifier are registered under it, the others under their own, provided no new
identifier is one that is to be replaced. -/
lemma contains_renameRegistered : (renameRegistered registered renamed).contains id ↔
      (registered.contains id ∧ renamed.get? id = none) ∨ ∃ b, registered.contains b ∧ renamed.get? b = some id := by
  have hnd : (renamed.entries.map (·.1)).Nodup := Dict.keys_nodup renamed
  rw [renameRegistered, contains_foldl_moveRegistration hnd (entries_apart h)]
  refine or_congr (and_congr_right fun _ => ?_) ?_
  · rw [Option.eq_none_iff_forall_ne_some]
    constructor
    · intro hall v hv
      exact hall (id, v) ((Dict.get?_eq_some_iff _ _ _).1 hv) rfl
    · rintro hall p hp rfl
      exact hall p.2 ((Dict.get?_eq_some_iff _ _ _).2 hp)
  · constructor
    · rintro ⟨p, hp, rfl, hr⟩
      exact ⟨p.1, hr, (Dict.get?_eq_some_iff _ _ _).2 hp⟩
    · rintro ⟨b, hr, hb⟩
      exact ⟨(b, id), (Dict.get?_eq_some_iff _ _ _).1 hb, rfl, hr⟩

end NewIdentifiers

/-- After a name was added once, it is there beside those that were there before. -/
lemma mem_addOnce {name : String} : x ∈ addOnce names name ↔ x ∈ names ∨ x = name := by
  unfold addOnce
  split
  · rename_i h
    have h : name ∈ names := by simpa using h
    constructor
    · exact .inl
    · rintro (hx | rfl)
      · exact hx
      · exact h
  · simp

/-- After names were added once each, they are there beside those that were there before. -/
lemma mem_foldl_addOnce {α : Type} (f : α → String) : ∀ {xs : List α} {names : List String},
      x ∈ xs.foldl (fun out a => addOnce out (f a)) names ↔ x ∈ names ∨ ∃ a ∈ xs, f a = x
  | [], names => by simp
  | a :: xs, names => by
    rw [List.foldl_cons, mem_foldl_addOnce f, mem_addOnce, or_assoc]
    simp only [List.mem_cons, exists_eq_or_imp, @eq_comm _ x (f a)]

/-- The boundary under its new names. -/
lemma mem_renameBoundary {boundary : Dict String} :
    x ∈ renameBoundary names boundary ↔ ∃ i ∈ names, boundary.getD i i = x := by
  unfold renameBoundary
  split
  · rename_i h
    have hget : ∀ i, boundary.getD i i = i := fun i =>
      Dict.getD_of_none (Dict.get?_eq_none_iff.2 (Dict.isEmpty_iff.1 h i))
    simp [hget]
  · rw [mem_foldl_addOnce fun n => boundary.getD n n]
    simp

/-- Names that are different stay in their places. -/
lemma foldl_addOnce_eq {α : Type} (f : α → String) {xs : List α} (h : (names ++ xs.map f).Nodup) :
    xs.foldl (fun out a => addOnce out (f a)) names = names ++ xs.map f := by
  induction xs generalizing names with
  | nil => exact (List.append_nil names).symm
  | cons a xs ih =>
    have hnew : f a ∉ names := fun ha => (List.nodup_append.1 h).2.2 _ ha _ List.mem_cons_self rfl
    have honce : addOnce names (f a) = names ++ [f a] := by
      rw [addOnce, if_neg]
      simpa using hnew
    rw [List.map_cons, List.append_cons] at h
    rw [List.foldl_cons, honce, ih h]
    exact List.append_assoc names [f a] (xs.map f)

/-- The boundary under its new names, if they are different. -/
lemma renameBoundary_eq {boundary : Dict String} (h : (names.map fun i => boundary.getD i i).Nodup) :
    renameBoundary names boundary = names.map fun i => boundary.getD i i := by
  unfold renameBoundary
  split
  · rename_i hempty
    have hget : ∀ i, boundary.getD i i = i := fun i =>
      Dict.getD_of_none (Dict.get?_eq_none_iff.2 (Dict.isEmpty_iff.1 hempty i))
    simp [hget]
  · exact foldl_addOnce_eq _ h

end OpGraph.Graph
