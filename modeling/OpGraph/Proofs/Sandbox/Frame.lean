import Mathlib
import OpGraph.Proofs.Sandbox.Refine

/-!
# What a commit of a region leaves as it was

A sandbox of a region has the neighbours of the region as anchors, and edits rewire the edges between the region and
them. Whatever is merged, dropped or replaced, no edit deals with an edge between two nodes outside the region, and no
edit touches a node there. So a commit leaves all of that as it was: `commit_framed`.

The argument holds for any set of outer nodes that edits can not change, the empty one included. It does not need fused
nodes to have names without arrows: an identifier made of two names without arrows is made of no others.
-/

namespace OpGraph.Sandbox

/-! ### Identifiers of edges inside -/

/-- The identifier of an edge that does not join two outer nodes. -/
def Inner (outer : String → Prop) (id : EdgeId) : Prop :=
  ∃ x y, id = .arc x y ∧ ¬ (outer x ∧ outer y)

/-- The identifier of an edge inside is not that of an edge between two outer nodes. -/
lemma Inner.ne_arc {outer : String → Prop} {id : EdgeId} (h : Inner outer id) {x y : String} (hx : outer x)
    (hy : outer y) (hxf : ArrowFree x) (hyf : ArrowFree y) : id ≠ .arc x y := by
  obtain ⟨a, b, rfl, hn⟩ := h
  intro he
  obtain ⟨rfl, rfl⟩ := (EdgeId.arc_inj_of_ends hxf hyf).1 he
  exact hn ⟨hx, hy⟩

/-- The outer nodes are nodes of the graph, and of these the copy has none but anchors. -/
def Fenced (g : Graph) (o : Sandbox) (outer : String → Prop) : Prop :=
  ∀ k, outer k → k ∈ g.dag.keys ∧ (k ∈ o.dag.keys → o.anchors.contains k)

namespace Fenced

variable {g : Graph} {o s : Sandbox} {outer : String → Prop} {k : String}

/-- A node that can be changed is not an outer one. -/
lemma not_outer (h : Fenced g o outer) (hs : Roster g o s) (hk : k ∈ s.dag.keys) (ha : ¬ s.anchors.contains k) :
    ¬ outer k := by
  intro hout
  obtain ⟨hg, hanchor⟩ := h k hout
  rw [hs.anchors] at ha
  exact ha (hanchor ((hs.live hk).resolve_left (hs.not_mem_added hg)))

/-- A free name is not that of an outer node. -/
lemma not_outer_of_free (h : Fenced g o outer) (hs : Roster g o s) (hk : ¬ s.taken.contains k) : ¬ outer k :=
  fun hout => hk (hs.taken k (h k hout).1)

end Fenced

/-! ### The edges an edit deals with -/

/-- Whatever edge a sandbox has, noted or moved does not join two outer nodes, and no outer node has a new payload. -/
structure Confined (outer : String → Prop) (s : Sandbox) : Prop where
  arcs : ∀ a ∈ s.dag.arcs, ¬ (outer a.src ∧ outer a.dst)
  baseEdges : ∀ id : EdgeId, s.baseEdges.contains id → Inner outer id
  removedEdges : ∀ id ∈ s.removedEdges, Inner outer id
  origin : ∀ {id b : EdgeId}, s.origin.get? id = some b → Inner outer b
  renamed : ∀ {b id : EdgeId}, s.renamed.get? b = some id → Inner outer b ∧ Inner outer id
  modified : ∀ k, s.modified.contains k → ¬ outer k

namespace Confined

variable {g : Graph} {o s t : Sandbox} {outer : String → Prop}

/-- A copy has no edge between two anchors. -/
lemma copy {region : Option (List String)} (wf : g.WellFormed) (hg : g.Sound)
    (hk : Fenced g (Sandbox.copy g region) outer) : Confined outer (Sandbox.copy g region) := by
  have harcs : ∀ a ∈ (Sandbox.copy g region).dag.arcs, ¬ (outer a.src ∧ outer a.dst) := by
    intro a ha hout
    obtain ⟨-, hsrc, hdst, hn⟩ := (mem_arcs_copy wf.dag).1 ha
    exact hn ⟨(hk _ hout.1).2 hsrc, (hk _ hout.2).2 hdst⟩
  refine ⟨harcs, ?_, ?_, ?_, ?_, ?_⟩
  · intro id hid
    have hb : (Sandbox.copy g region).baseEdges =
        NameSet.ofList ((Sandbox.copy g region).dag.arcs.map fun a => a.val.id) := rfl
    rw [hb, NameSet.contains_ofList] at hid
    obtain ⟨a, ha, rfl⟩ := List.mem_map.1 hid
    obtain ⟨hsrc, hdst⟩ := hg.payload a ((mem_arcs_copy wf.dag).1 ha).1
    exact ⟨a.src, a.dst, by rw [Edge.id, hsrc, hdst], harcs a ha⟩
  · intro id hid
    cases hid
  · intro id b hb
    cases hb
  · intro b id hid
    cases hid
  · intro k hm
    cases hm

/-- Only the edges, the notes on them and the nodes with new payloads matter. -/
lemma congr (h : Confined outer s) (htop : t.topology = s.topology) (hmoves : t.moves = s.moves) :
    Confined outer t := by
  obtain ⟨-, horigin, hrenamed⟩ := moves_eq_iff.1 hmoves
  rw [eq_of_topology htop, horigin, hrenamed]
  exact { h with }

/-- The edges of a node that is taken out are noted as removed. -/
lemma removeNode (h : Confined outer s) (k : String) : Confined outer (s.removeNode k) := by
  by_cases hk : k ∈ s.dag.keys
  · obtain ⟨base, removed, he, hbase, hremoved, -⟩ := removeNode_eq hk
    have harcs : ∀ a ∈ (s.dag.dropVertex k).arcs, ¬ (outer a.src ∧ outer a.dst) :=
      fun a ha => h.arcs a (Digraph.mem_of_mem_arcs_dropVertex ha)
    have hbaseEdges : ∀ id : EdgeId, base.contains id → Inner outer id :=
      fun id hid => h.baseEdges id ((hbase id).1 hid).1
    have hremovedEdges : ∀ id ∈ removed, Inner outer id :=
      fun id hid => ((hremoved id).1 hid).elim (h.removedEdges id) fun hid => h.baseEdges id hid.1
    rw [he]
    split_ifs
    · exact { h with arcs := harcs, baseEdges := hbaseEdges, removedEdges := hremovedEdges }
    · exact { h with
        arcs := harcs
        baseEdges := hbaseEdges
        removedEdges := hremovedEdges
        modified := fun j hj => h.modified j (Dict.contains_erase.1 hj).2 }
  · rwa [removeNode_of_not_mem hk]

/-- Adding a node keeps a sandbox confined. -/
lemma addNode (h : Confined outer s) (n : Node) (seq : UInt64) : Confined outer (s.addNode n seq) := by
  have harcs : (s.addNode n seq).dag.arcs = s.dag.arcs := by
    unfold Sandbox.addNode
    cases hadd : s.dag.addVertexAt n.name n seq with
    | ok dag => exact Digraph.arcs_addVertexAt hadd
    | error e => rfl
  exact { h with arcs := harcs ▸ h.arcs }

/-- An edge that does not join two outer nodes is moved to one that does not either. -/
lemma rewire (h : Confined outer s) {old new : Edge} (hold : Inner outer old.id)
    (hnew : ¬ (outer new.src ∧ outer new.dst)) : Confined outer (s.rewire old new) := by
  have hbase : Inner outer (s.origin.getD old.id old.id) := by
    cases ho : s.origin.get? old.id with
    | none => rwa [Dict.getD_of_none ho]
    | some b =>
      rw [Dict.getD_of_some ho]
      exact h.origin ho
  have hid : Inner outer new.id := ⟨new.src, new.dst, rfl, hnew⟩
  have hrenamed : ∀ {b id : EdgeId}, (s.renamed.insert (s.origin.getD old.id old.id) new.id).get? b = some id →
      Inner outer b ∧ Inner outer id := by
    intro b id hb
    rw [Dict.get?_insert] at hb
    split at hb
    · rename_i heq
      cases hb
      exact ⟨heq ▸ hbase, hid⟩
    · exact h.renamed hb
  have herase : ∀ {id b : EdgeId}, (s.origin.erase old.id).get? id = some b → Inner outer b := by
    intro id b hb
    rw [Dict.get?_erase] at hb
    split at hb
    · cases hb
    · exact h.origin hb
  rcases rewire_eq s old new with ⟨dag, hdag, he⟩ | ⟨-, he⟩ | ⟨-, -, he⟩
  · rw [he]
    exact { h with
      arcs := fun a ha => by
        rw [Digraph.arcs_addArc hdag, List.mem_append, List.mem_singleton] at ha
        cases ha with
        | inl ha => exact h.arcs a ha
        | inr ha => exact ha ▸ hnew
      origin := fun {id b} hb => by
        rw [Dict.get?_insert] at hb
        split at hb
        · cases hb
          exact hbase
        · exact herase hb
      renamed := hrenamed }
  · rw [he]
    exact { h with origin := herase, renamed := hrenamed }
  · rwa [he]

/-- Moving edges inside to edges inside keeps a sandbox confined. -/
lemma rewireAll (h : Confined outer s) {ms : List (Edge × Edge)} (hold : ∀ m ∈ ms, Inner outer m.1.id)
    (hnew : ∀ m ∈ ms, ¬ (outer m.2.src ∧ outer m.2.dst)) : Confined outer (s.rewireAll ms) :=
  List.foldlRecOn _ _ h fun _ h m hm => h.rewire (hold m hm) (hnew m hm)

/-- Forgetting moves that came to nothing keeps a sandbox confined. -/
lemma pruneRenames (h : Confined outer s) : Confined outer s.pruneRenames :=
  { h with
    origin := fun hb => h.origin (get?_origin_pruneRenames.1 hb).1
    renamed := fun hb => h.renamed (get?_renamed_pruneRenames.1 hb).1 }

/-- An update that succeeds keeps a sandbox confined, for anchors cannot be updated. -/
lemma updateNode (h : Confined outer s) (hs : Roster g o s) (hk : Fenced g o outer) {n : Node}
    (he : s.updateNode n = .ok t) : Confined outer t := by
  obtain ⟨dag, hdag, ha, rfl⟩ := updateNode_ok_iff.1 he
  have hname : ¬ outer n.name :=
    hk.not_outer hs (Digraph.hasVertex_iff.1 (Digraph.setVertex_ok_iff.1 hdag).1) ha
  exact { h with
    arcs := Digraph.arcs_setVertex hdag ▸ h.arcs
    modified := fun j hj => by
      split_ifs at hj
      · exact h.modified j hj
      · cases NameSet.contains_add.1 hj with
        | inl hj => exact hj ▸ hname
        | inr hj => exact h.modified j hj }

/-- The identifier of an edge that is there. -/
lemma inner_id (h : Confined outer s) {e : Edge} (he : e.toArc ∈ s.dag.arcs) : Inner outer e.id :=
  ⟨e.src, e.dst, rfl, h.arcs _ he⟩

/-- A merge moves edges to the fused node, which is new. -/
lemma contract (h : Confined outer s) (hs : Roster g o s) (hk : Fenced g o outer) {names : List String} {fused : Node}
    (hm : s.Contractible names fused.name) (record : MergeRecord) :
    Confined outer (s.contract names fused record) := by
  have hfused : ¬ outer fused.name := hk.not_outer_of_free hs hm.free
  have h₁ : Confined outer (names.foldl Sandbox.retire s) := h.congr (topology_foldl_retire s names)
    (foldl_eq_of_step (fun s name => (s.retire_frame name).2.1) names s)
  have h₂ : Confined outer (s.replaced names fused) :=
    (List.foldlRecOn names Sandbox.removeNode h₁ fun _ h name _ => h.removeNode name).addNode fused _
  have h₃ : Confined outer ((s.replaced names fused).rewireAll (s.crossings names fused)) := by
    apply h₂.rewireAll
    · intro m hmem
      rcases mem_crossings.1 hmem with ⟨e, he, rfl⟩ | ⟨e, he, rfl⟩
      · exact h.inner_id (hs.mem_inbound.1 he).1
      · exact h.inner_id (hs.mem_outbound.1 he).1
    · intro m hmem
      rcases mem_crossings.1 hmem with ⟨e, -, rfl⟩ | ⟨e, -, rfl⟩
      · exact fun hout => hfused hout.2
      · exact fun hout => hfused hout.1
  have h₄ := h₃.congr
    (@foldl_eq_of_step _ _ _ _ topology (fun s name => (s.moveBoundary_frame name fused.name).1) names _)
    (@foldl_eq_of_step _ _ _ _ moves (fun s name => (s.moveBoundary_frame name fused.name).2.1) names _)
  rw [contract_eq]
  apply Confined.pruneRenames
  exact { h₄ with }

/-- A drop feeds consumers that are not anchors. -/
lemma foldl_bypass (hk : Fenced g o outer) {src : Edge} :
    ∀ {es : List Edge} {s : Sandbox}, Roster g o s → Confined outer s → (∀ e ∈ es, Inner outer e.id) →
      (∀ e ∈ es, ¬ outer e.dst) → Confined outer (es.foldl (bypass src) s)
  | [], _, _, h, _, _ => h
  | e :: es, s, hs, h, hold, hnew => by
    rw [List.forall_mem_cons] at hold hnew
    have hread : Roster g o (reread src s e) ∧ Confined outer (reread src s e) :=
      reread_induct (P := fun t => Roster g o t ∧ Confined outer t)
        (fun _ _ _ ht => ⟨hs.updateNode ht, h.updateNode hs hk ht⟩) ⟨hs, h⟩
    exact foldl_bypass hk (s := bypass src s e) (hread.1.rewire e (movedPast src e))
      (hread.2.rewire hold.1 fun hout => hnew.1 hout.2) hold.2 hnew.2

/-- An edit does not deal with edges between outer nodes. -/
lemma edit (h : Confined outer s) (hs : Roster g o s) (hk : Fenced g o outer) {e : Edit} (he : s.edit e = .ok t) :
    Confined outer t := by
  cases e with
  | merge names f type pattern =>
    obtain ⟨n, rfl, hm, -, rfl⟩ := edit_merge_ok he
    exact h.contract hs hk hm _
  | drop name =>
    obtain ⟨src, hd, rfl⟩ := drop_ok_iff.1 he
    apply Confined.pruneRenames
    apply foldl_bypass hk (hs.removeNode hd.live (hs.anchors ▸ hd.inside)) (h.removeNode name)
    · intro e hmem
      exact h.inner_id (hs.mem_outEdges.1 hmem).1
    · intro e hmem
      exact hk.not_outer hs (hs.wellFormed.dst_mem _ (hs.mem_outEdges.1 hmem).1) (hd.consumers e hmem).1
  | update n => exact h.updateNode hs hk he

end Confined

/-! ### What a patch says about outer nodes -/

section Patch

variable {g : Graph} {o s : Sandbox} {outer : String → Prop} {k x y : String}

/-- No outer node is removed by the patch. -/
lemma Roster.not_mem_removedNodes (hs : Roster g o s) (hk : Fenced g o outer) (hout : outer k) :
    k ∉ s.patch.removeNodes := by
  intro hr
  obtain ⟨ho, ha, -⟩ := hs.removed k hr
  exact ha ((hk k hout).2 ho)

/-- No outer node is added by the patch. -/
lemma Roster.addNodes_ne (hs : Roster g o s) (hk : Fenced g o outer) (hout : outer k) :
    ∀ q ∈ s.patch.addNodes, q.node.name ≠ k := by
  intro q hq hname
  have hadded : q.node.name ∈ s.added := hs.names_addNodes ▸ List.mem_map_of_mem hq
  exact hs.not_mem_added (hk k hout).1 (hname ▸ hadded)

/-- No outer node is replaced by the patch. -/
lemma Confined.replaceNodes_ne (h : Confined outer s) (hs : Roster g o s) (hout : outer k) :
    ∀ n ∈ s.patch.replaceNodes, n.name ≠ k := by
  intro n hn hname
  obtain ⟨v, hv, rfl⟩ := List.mem_map.1 hn
  obtain ⟨hv, hm⟩ := List.mem_filter.1 hv
  rw [hs.named v hv] at hname
  exact h.modified v.key hm (hname ▸ hout)

/-- No edge that the patch adds joins two outer nodes. -/
lemma Confined.addEdges_ne (h : Confined outer s) (hs : Roster g o s) (hx : outer x) (hy : outer y) :
    ∀ e ∈ s.patch.addEdges, ¬ (e.src = x ∧ e.dst = y) := by
  intro e he hends
  obtain ⟨a, ha, rfl⟩ := List.mem_map.1 (List.mem_of_mem_filter he)
  rw [hs.wellFormed.mem_arcsBySource] at ha
  obtain ⟨hsrc, hdst⟩ := hs.payload a ha
  rw [hsrc, hdst] at hends
  obtain ⟨rfl, rfl⟩ := hends
  exact h.arcs a ha ⟨hx, hy⟩

/-- An identifier that is neither moved nor moved to is registered after the moves if it was before. -/
lemma isRegistered_renameRegistered {registered : NameSet} {renamed : Dict EdgeId} {id : EdgeId}
    (h : ∀ {b b' : EdgeId}, renamed.get? b = some b' → b ≠ id ∧ b' ≠ id) :
    (Graph.renameRegistered registered renamed).contains id = registered.contains id := by
  have hstep : ∀ p ∈ renamed.entries, p.1 ≠ id ∧ p.2 ≠ id :=
    fun p hp => h ((Dict.get?_eq_some_iff renamed p.1 p.2).2 hp)
  unfold Graph.renameRegistered
  generalize renamed.entries = ps at hstep
  induction ps generalizing registered with
  | nil => rfl
  | cons p ps ih =>
    rw [List.forall_mem_cons] at hstep
    rw [List.foldl_cons, ih hstep.2, Bool.eq_iff_iff, Graph.contains_moveRegistration]
    constructor
    · intro hid
      cases hid with
      | inl hid => exact hid.1
      | inr hid => exact absurd hid.1.symm hstep.1.2
    · exact fun hid => .inl ⟨hid, hstep.1.1.symm⟩

end Patch

/-! ### Regions -/

/-- A node of the graph that is not in the region. -/
def Outside (g : Graph) (region : Option (List String)) (k : String) : Prop :=
  k ∈ g.names ∧ ∃ names ∈ region, k ∉ names

instance (g : Graph) (region : Option (List String)) : DecidablePred (Outside g region) :=
  fun k => inferInstanceAs (Decidable (k ∈ g.names ∧ ∃ names ∈ region, k ∉ names))

/-- Nodes outside the region are copied as anchors or not at all. -/
lemma fenced_outside (g : Graph) (region : Option (List String)) : Fenced g (copy g region) (Outside g region) := by
  intro k hk
  obtain ⟨hg, names, hregion, hn⟩ := hk
  rw [Option.mem_def] at hregion
  subst hregion
  refine ⟨hg, fun ho => ?_⟩
  have hanchors : (copy g (some names)).anchors = anchorsOf g names := rfl
  rw [hanchors]
  exact ((mem_keys_copy.1 ho).2 names rfl).resolve_left hn

/-- What is outside the region is in `g'` as it is in `g`. -/
structure Framed (g : Graph) (region : Option (List String)) (g' : Graph) : Prop where
  nodes : ∀ k, Outside g region k → g'.dag.vertex? k = g.dag.vertex? k
  edges : ∀ x y, Outside g region x → Outside g region y → g'.dag.arc? x y = g.dag.arc? x y
  registered : ∀ x y, Outside g region x → Outside g region y →
    g'.isRegistered (.arc x y) = g.isRegistered (.arc x y)
  merges : g'.merges.filter (fun r => Outside g region r.fused) = g.merges.filter fun r => Outside g region r.fused

lemma Framed.refl (g : Graph) (region : Option (List String)) : Framed g region g :=
  ⟨fun _ _ => rfl, fun _ _ _ _ => rfl, fun _ _ _ _ => rfl, rfl⟩

/-- The records of fused nodes outside the region are neither superseded nor made anew. -/
lemma filter_merges_outside {g g' : Graph} {s : Sandbox} {region : Option (List String)}
    (hs : Roster g (copy g region) s) (hrec : Recorded g s) (hret : Retired (copy g region) s)
    (ha : g.Applies s.patch g') :
    g'.merges.filter (fun r => Outside g region r.fused) = g.merges.filter fun r => Outside g region r.fused := by
  have hk := fenced_outside g region
  have hnew : s.patch.merges.filter (fun r => Outside g region r.fused) = [] := by
    rw [List.filter_eq_nil_iff]
    intro r hr hout
    obtain ⟨f, hf, hget⟩ := List.mem_filterMap.1 hr
    obtain ⟨r', hr', rfl⟩ := hrec.new f hf
    cases hr'.symm.trans hget
    exact (hrec.new_taken _ hf).2 (of_decide_eq_true hout).1
  rw [ha.merges, List.filter_append, hnew, List.append_nil, List.filter_filter]
  apply List.filter_congr
  intro r _
  rw [Bool.eq_iff_iff]
  simp only [Bool.and_eq_true, decide_eq_true_eq, Bool.not_eq_true', List.contains_eq_mem, decide_eq_false_iff_not,
    and_iff_left_iff_imp]
  intro hout hsup
  obtain ⟨ho, hgone⟩ := hret r.fused hsup
  have hmem : r.fused ∈ s.removedNodes := by
    by_contra hnot
    exact hgone (hs.present _ ho hnot)
  exact (hs.removed _ hmem).2.1 ((hk _ hout).2 ho)

/-- A commit leaves all that is outside the region of the sandbox as it was, whatever edits were made. -/
theorem commit_framed {g : Graph} (wf : g.WellFormed) (ok : g.verify = .ok ())
    (af : ∀ name ∈ g.names, ArrowFree name) {region : Option (List String)} {s₀ : Sandbox}
    (hs : snapshot g region = .ok s₀) {es : List Edit} {g' : Graph} {s' : Sandbox} {c : Changes}
    (hcommit : (s₀.performAll es).commit g = .ok (g', s', c)) : Framed g region g' := by
  have hsound : g.Sound := wf.verify_ok_iff.1 ok
  have hk := fenced_outside g region
  obtain rfl : s₀ = copy g region := by
    unfold snapshot at hs
    split at hs
    · cases hs
    · cases hs
      rfl
  obtain ⟨hroster, hconf, hrec, hret⟩ : Roster g (copy g region) ((copy g region).performAll es) ∧
      Confined (Outside g region) ((copy g region).performAll es) ∧ Recorded g ((copy g region).performAll es) ∧
      Retired (copy g region) ((copy g region).performAll es) := by
    apply performAll_induct (P := fun s => Roster g (copy g region) s ∧ Confined (Outside g region) s ∧ Recorded g s ∧
      Retired (copy g region) s)
    · intro s e t _ h he
      obtain ⟨hr, hc, hrec, hret⟩ := h
      exact ⟨hr.edit he, hc.edit hr hk he, hrec.edit hr hsound he, hret.edit hr he⟩
    · exact ⟨.copy wf hsound region, .copy wf hsound hk, .copy g region, fun f hf => by cases hf⟩
  cases Graph.apply_ok wf (commit_ok hcommit).1 with
  | inl h => exact h.2 ▸ .refl g region
  | inr h =>
    refine ⟨fun k hout => ?_, fun x y hx hy => ?_, fun x y hx hy => ?_, filter_merges_outside hroster hrec hret h⟩
    · exact Graph.vertex?_patchTopology h.topology (hroster.not_mem_removedNodes hk hout) (hroster.addNodes_ne hk hout)
        (hconf.replaceNodes_ne hroster hout)
    · apply Graph.arc?_patchTopology h.topology
      · exact fun id hid => (hconf.removedEdges id hid).ne_arc hx hy (af x hx.1) (af y hy.1)
      · exact hroster.not_mem_removedNodes hk hx
      · exact hroster.not_mem_removedNodes hk hy
      · exact hconf.addEdges_ne hroster hx hy
    · rw [Graph.isRegistered, h.registered]
      apply isRegistered_renameRegistered
      intro b b' hb
      obtain ⟨hin, hin'⟩ := hconf.renamed hb
      exact ⟨hin.ne_arc hx hy (af x hx.1) (af y hy.1), hin'.ne_arc hx hy (af x hx.1) (af y hy.1)⟩

/-- Merges the first two operators under the identifier of the edge between the other two, and tries to change one of
these. -/
def headEdits : List Edit :=
  [.merge ["a", "b"] "c->d" "cr" "cr", .drop "c", .update { name := "c", type := "relu" }]

/-- What is outside of the region stays as it was, although the fused operator has the identifier of an edge there as
its name and changes of an operator there were tried. -/
theorem commit_framed_fourInRow :
    Outside fourInRow (some ["a", "b"]) "c" ∧ Outside fourInRow (some ["a", "b"]) "d" ∧ ∃ g' s' c,
      ((copy fourInRow (some ["a", "b"])).performAll headEdits).commit fourInRow = .ok (g', s', c) ∧
      Framed fourInRow (some ["a", "b"]) g' ∧ g'.names = ["c->d", "c", "d"] := by
  have hwf : fourInRow.WellFormed :=
    ⟨Digraph.wellFormed_ofArcs (by decide) (by decide) (by decide) (by decide), by decide⟩
  exact ⟨by decide, by decide, _, _, _, rfl,
    @commit_framed fourInRow hwf rfl (by decide) (some ["a", "b"]) _ rfl headEdits _ _ _ rfl, rfl⟩

end OpGraph.Sandbox
