import Mathlib
import OpGraph.Proofs.Fusion.Sketch
import OpGraph.Proofs.Network.Layouts
import OpGraph.Proofs.Network.VarScales

/-!
# Assigning layouts first

Layouts can be assigned and pins respelled before nodes are fused and dropped. The network that this makes has the same
sketch, so the engine does the same to it. What differs is where the layout of a moved edge comes from.
-/

namespace OpGraph

open Sandbox

/-! ### Networks whose pins are respelled -/

/-- A patch that replaces payloads leaves the names of nodes and the edges as they are. -/
lemma Graph.patchTopology_payloads {dag dag' : Digraph Node Edge} {p : Patch} (h : patchTopology dag p = .ok dag')
    (hout : p.removeEdges = []) (hoff : p.removeNodes = []) (hin : p.addNodes = []) (hon : p.addEdges = []) :
    dag'.keys = dag.keys ∧ dag'.arcs = dag.arcs := by
  have hfold : p.replaceNodes.foldlM patchNode dag = .ok dag' := by
    rw [patchTopology, hout, hoff, hin, hon] at h
    simp only [List.foldlM_nil, pure_bind] at h
    obtain ⟨mid, hmid, hend⟩ := bind_eq_ok.1 h
    cases hend
    exact hmid
  refine foldlM_ok_induct (P := fun d => d.keys = dag.keys ∧ d.arcs = dag.arcs) ?_ ⟨rfl, rfl⟩ hfold
  intro d n d' _ hd hn
  unfold patchNode at hn
  split at hn
  · rename_i hset
    cases hn
    exact ⟨(Digraph.keys_setVertex hset).trans hd.1, (Digraph.arcs_setVertex hset).trans hd.2⟩
  · cases hn

namespace Sandbox

/-- The sketch of a copy is made of sketches of the nodes. -/
lemma sketch_copy (g : Graph) : (copy g none).sketch = {
    name := g.name
    base := 0
    dag := .ofArcs (g.dag.dress Node.sketch).vertices g.dag.arcsBySource
      ((g.dag.dress Node.sketch).vertices.foldl (fun n v => if v.seq ≥ n then v.seq + 1 else n) 0)
    taken := NameSet.ofList g.names
    registered := g.registered
    ins := NameSet.ofList g.ins
    outs := NameSet.ofList g.outs
    merges := Dict.ofList (g.merges.map fun r => (r.fused, r))
    baseEdges := NameSet.ofList (g.dag.arcsBySource.map fun a => a.val.id) } := by
  have hnone (k : String) : (∅ : NameSet).contains k = false := rfl
  have hseq : g.dag.vertices.foldl (fun n v => if v.seq ≥ n then v.seq + 1 else n) 0 =
      (g.dag.dress Node.sketch).vertices.foldl (fun n v => if v.seq ≥ n then v.seq + 1 else n) 0 := by
    rw [Digraph.dress, List.foldl_map]
    rfl
  simp only [sketch, copy, hnone, Bool.and_self, Bool.not_false, List.filter_true, hseq, Digraph.dress_ofArcs]
  rfl

/-- The sketch of a copy depends on the sketches of the nodes, on their order, and on the other parts of the graph. -/
lemma sketch_copy_congr {g g' : Graph} (hname : g'.name = g.name)
    (wf : g.dag.WellFormed) (wf' : g'.dag.WellFormed)
    (hvertices : (g'.dag.dress Node.sketch).vertices = (g.dag.dress Node.sketch).vertices)
    (harcs : g'.dag.arcs = g.dag.arcs)
    (hregistered : g'.registered = g.registered) (hins : g'.ins = g.ins) (houts : g'.outs = g.outs)
    (hmerges : g'.merges = g.merges) : (copy g' none).sketch = (copy g none).sketch := by
  have hnames : g'.names = g.names := by
    rw [Graph.names, Graph.names, ← g'.dag.keys_dress Node.sketch, Digraph.keys, hvertices, ← Digraph.keys,
      Digraph.keys_dress]
  have hsource : g'.dag.arcsBySource = g.dag.arcsBySource := by
    rw [Digraph.arcsBySource, Digraph.arcsBySource, ← Graph.names, hnames, funext wf'.outArcs_eq, funext wf.outArcs_eq]
    unfold Digraph.arcsFrom
    rw [harcs]
    rfl
  rw [sketch_copy, sketch_copy, hname, hvertices, hsource, hnames, hregistered, hins, houts, hmerges]

end Sandbox

namespace Network

variable {ok : Node → Prop} {l : Library} {n m : Network} {d : Draft} {t : Sandbox} {layouts : Dict Layout} {g : Graph}

/-- Respelling a layout leaves the sketch of a node. -/
lemma sketch_respelled (v : Node) : (respelled v).sketch = v.sketch := by
  have hblank : (respelled v).attrs.blank = v.attrs.blank := Attribute.Store.blank_congr (shape_respelled v)
  rcases respelled_cases v with h | ⟨old, text, -, -, h⟩
  · rw [h]
  · rw [h] at hblank ⊢
    rw [Node.sketch, hblank]
    rfl

/-- Without fusion a draft is a copy. -/
lemma Drafted.unchanged (h : Drafted n l false d) : d.sandbox = Sandbox.copy n.graph none := by
  have hrun := h.run
  rw [if_neg Bool.false_ne_true] at hrun
  exact hrun.1

/-- The draft of a copy that was not changed replaces payloads only. -/
lemma Landing.untouched (h : Landing n d t layouts g) (hd : d.sandbox = Sandbox.copy n.graph none) :
    t.removedEdges = [] ∧ t.removedNodes = [] ∧ t.added = [] ∧ t.patch.addEdges = [] := by
  have ht := h.edited.tracks
  have hkeys : t.dag.keys = n.graph.dag.keys := by
    rw [h.normalized.respells.keys, hd, keys_copy_none]
  have hremoved : t.removedNodes = [] := List.eq_nil_iff_forall_not_mem.2 fun k hk => by
    obtain ⟨ho, -, hno⟩ := ht.removed k hk
    exact hno (hkeys ▸ keys_copy_none n.graph ▸ ho)
  have hadded : t.added = [] := List.eq_nil_iff_forall_not_mem.2 fun k hk => by
    obtain ⟨hk, hno⟩ := ht.added k hk
    exact hno (hkeys ▸ hk)
  have hedges : t.removedEdges = [] := List.eq_nil_iff_forall_not_mem.2 fun id hid => by
    obtain ⟨a, -, hno, -⟩ := (ht.removedEdges id).1 hid
    rw [Sandbox.Stays, hremoved] at hno
    exact hno ⟨List.not_mem_nil, List.not_mem_nil⟩
  refine ⟨hedges, hremoved, hadded, List.map_eq_nil_iff.1 ((ht.addEdges_eq h.edited.copied).trans ?_)⟩
  refine List.filter_eq_nil_iff.2 fun a ha => ?_
  have ha := ht.wellFormed.mem_arcsBySource.1 ha
  rw [h.normalized.respells.arcs, hd] at ha
  simp [Digraph.hasArc_of_mem (h.edited.copied.arcs a ha)]

/-- A network whose pins were respelled has the same sketch. -/
lemma Landing.sketch_copy (h : Landing n d t layouts g) (hd : d.sandbox = Sandbox.copy n.graph none)
    (hone : n.graph.OneRecord) : (Sandbox.copy g none).sketch = (Sandbox.copy n.graph none).sketch := by
  rcases h.patched with ⟨-, rfl⟩ | ⟨-, dag, hl, hg⟩
  · rfl
  obtain ⟨hout, hoff, hadd, hon⟩ := h.untouched hd
  have hin : t.patch.addNodes = [] := by
    rw [Sandbox.patch, hadd]
    rfl
  obtain ⟨hkeys, harcs⟩ := Graph.patchTopology_payloads hl.patched hout hoff hin hon
  have hresp := h.normalized.respells
  rw [hd] at hresp
  have hnode : ∀ k, (g.dag.dress Node.sketch).vertex? k = (n.graph.dag.dress Node.sketch).vertex? k := by
    intro k
    have hcopy : (Sandbox.copy n.graph none).dag.vertices = n.graph.dag.vertices := List.filter_eq_self.2 fun _ _ => rfl
    rw [Digraph.vertex?_dress, Digraph.vertex?_dress, (h.refines hone).nodes, hresp.vertex, Digraph.vertex?, hcopy,
      ← Digraph.vertex?, Option.map_map]
    refine congrArg (Option.map · (n.graph.dag.vertex? k)) (funext fun v => ?_)
    rw [Function.comp_apply]
    split
    · rw [Vertex.dress, Vertex.dress, sketch_respelled]
    · rfl
  have hrenamed : t.renamed = {} := (moves_eq_iff.1 hresp.moves).2.2
  have hboundary : t.boundary = {} := (border_eq_iff.1 hresp.border).2.2
  have hnew : t.newMerges = [] := (records_eq_iff.1 hresp.records).2.1
  have hsup : t.supersedes = [] := (records_eq_iff.1 hresp.records).2.2
  subst hg
  refine sketch_copy_congr rfl h.edited.copied.regular.dag hl.wellFormed ?_ harcs ?_ ?_ ?_ ?_
  · show (dag.dress Node.sketch).vertices = _
    rw [hl.wellFormed.vertices_dress, h.edited.copied.regular.dag.vertices_dress, hkeys]
    exact List.filterMap_congr fun k _ => hnode k
  · show Graph.renameRegistered _ t.renamed = _
    rw [hrenamed]
    rfl
  · show Graph.renameBoundary _ t.boundary = _
    rw [hboundary]
    rfl
  · show Graph.renameBoundary _ t.boundary = _
    rw [hboundary]
    rfl
  · show List.filter _ _ ++ _ = _
    rw [hnew, hsup]
    simp

/-! ### The two ways -/

section Ahead

variable {k : Network} {ord ord₀ ord₁ : RenameOrder} {st : Stats}

/-- Assigning layouts leaves the edges as they are. -/
lemma mem_edges_normalized (h : Reached ok l n) (hk : n.optimize l false ord₀ = (k, .done st)) {e : Edge} :
    e ∈ k.graph.edges ↔ e ∈ n.graph.edges := by
  have hc := h.coherent
  obtain ⟨hs, d, t, layouts, g, c, order, hd, hl, -, rfl, -⟩ := optimize_of_done hc.regular hc.library hk
  have hg := hc.regular hs
  refine hl.mem_edges.trans ?_
  rw [hd.unchanged, arcs_copy_none, hg.dag.mem_arcsBySource, hg.mem_edges]

/-- Assigning layouts gives each edge what its producer gives, if nothing is recorded for it. -/
lemma layouts_normalized (h : Reached ok l n) (hk : n.optimize l false ord₀ = (k, .done st)) {f : Edge}
    (hf : f ∈ n.graph.edges) :
    k.calibration.layouts.get? f.id = n.layoutOf f := by
  have hf' := (mem_edges_normalized h hk).2 hf
  have hc := h.coherent
  obtain ⟨hs, d, t, layouts, g, c, order, hd, hl, hrec, rfl, -⟩ := optimize_of_done hc.regular hc.library hk
  have hrenamed : t.renamed = {} := by
    rw [(moves_eq_iff.1 hl.normalized.respells.moves).2.2, hd.unchanged]
    rfl
  refine (hl.get?_layouts hc.oneRecord hd.known hrec hf').trans ?_
  have hempty : (({} : Dict EdgeId).entries) = [] := rfl
  rw [hl.map_nodeLayout hc.oneRecord, hd.unchanged, node?_copy, hrenamed, hempty, Calibration.arrange_nil]
  rfl

/-- Once layouts are assigned, the engine does the same. -/
lemma drafted_alike (h : Reached ok l n) (hk : n.optimize l false ord₀ = (k, .done st)) {d d' : Draft}
    (hd : Drafted n l true d) (hd' : Drafted k l true d') : d'.sandbox.sketch = d.sandbox.sketch := by
  have hc := h.coherent
  obtain ⟨hs, d₀, t, layouts, g, c, order, hd₀, hl, hrec, rfl, -⟩ := optimize_of_done hc.regular hc.library hk
  have hrun := hd.run
  have hrun' := hd'.run
  rw [if_pos rfl] at hrun hrun'
  obtain ⟨hsame, -⟩ := (n.engine l).run_alike (hl.sketch_copy hd₀.unchanged hc.oneRecord)
  have hengine : (n.engine l).run (Sandbox.copy g none) = ((d'.sandbox, d'.stats), none) := hrun'
  rw [hrun, hengine] at hsame
  exact (Prod.mk.inj hsame).1

/-- The edges of a producer are those it has in the draft, in their order. -/
lemma Landing.outArcs (h : Landing n d t layouts g) (hone : n.graph.OneRecord) (src : String) :
    g.dag.outArcs src = d.sandbox.dag.arcsFrom src := by
  rw [← arcsFrom_copy g h.regular.dag, (h.redressed hone).arcsFrom]

variable {a b : Network} {st₀ st₁ : Stats}

/-- The edges are the same if layouts are assigned first. -/
lemma edges_ahead (h : Reached ok l n) (ha : n.optimize l true ord = (a, .done st))
    (hk : n.optimize l false ord₀ = (k, .done st₀)) (hb : k.optimize l true ord₁ = (b, .done st₁)) :
    b.graph.edges.Perm a.graph.edges ∧ ∀ src, b.graph.outEdges src = a.graph.outEdges src := by
  have hc := h.coherent
  have hc' := h.coherent.optimize false ord₀
  rw [hk] at hc'
  obtain ⟨-, d, t, layouts, g, c, order, hd, hl, -, rfl, -⟩ := optimize_of_done hc.regular hc.library ha
  obtain ⟨-, d', t', layouts', g', c', order', hd', hl', -, rfl, -⟩ := optimize_of_done hc'.regular hc'.library hb
  have hout : ∀ src, g'.dag.outArcs src = g.dag.outArcs src := by
    intro src
    rw [hl'.outArcs hc'.oneRecord, hl.outArcs hc.oneRecord, Digraph.arcsFrom, Digraph.arcsFrom,
      arcs_of_sketch (drafted_alike h hk hd hd')]
  have hwf := hl.regular.dag
  have hwf' := hl'.regular.dag
  have harcs : g'.dag.arcs.Perm g.dag.arcs := by
    refine (List.perm_ext_iff_of_nodup (.of_map _ hwf'.arcs_nodup) (.of_map _ hwf.arcs_nodup)).2 fun x => ?_
    have hx : x ∈ g'.dag.outArcs x.src ↔ x ∈ g.dag.outArcs x.src := by rw [hout]
    rwa [hwf'.mem_outArcs, hwf.mem_outArcs, and_iff_left rfl, and_iff_left rfl] at hx
  refine ⟨?_, fun src => congrArg (List.map Arc.val) (hout src)⟩
  exact ((hwf'.arcsBySource_perm.trans harcs).trans hwf.arcsBySource_perm.symm).map Arc.val

/-- If layouts are assigned first, an edge has the layout of an edge that stands for it. -/
lemma layouts_ahead (h : Reached ok l n) (ha : n.optimize l true ord = (a, .done st))
    (hk : n.optimize l false ord₀ = (k, .done st₀)) (hb : k.optimize l true ord₁ = (b, .done st₁)) {e : Edge}
    (he : e ∈ a.graph.edges) :
    ∃ f, Origin n a f e ∧ b.calibration.layouts.get? e.id = n.layoutOf f := by
  have he' := (edges_ahead h ha hk hb).1.mem_iff.2 he
  have hc := h.coherent
  have hahead := h.optimize false ord₀
  rw [hk] at hahead
  have hc' := hahead.coherent
  obtain ⟨hs, d, t, layouts, g, c, order, hd, hl, -, rfl, -⟩ := optimize_of_done hc.regular hc.library ha
  obtain ⟨hs', d', t', layouts', g', c', order', hd', hl', hrec', rfl, -⟩ := optimize_of_done hc'.regular hc'.library hb
  have hdesc := descent_landing h hs hd hl
  have hrenamed : t'.renamed = t.renamed := by
    rw [(moves_eq_iff.1 hl'.normalized.respells.moves).2.2, (moves_eq_iff.1 hl.normalized.respells.moves).2.2]
    exact renamed_of_sketch (drafted_alike h hk hd hd')
  have hget := hl'.get?_layouts hc'.oneRecord hd'.known hrec' he'
  rw [hrenamed] at hget
  have hknown : ∀ id, k.calibration.layouts.contains id → ∃ f ∈ n.graph.edges, f.id = id := by
    intro id hid
    obtain ⟨f, hf, hfid⟩ := hahead.laid.exists_edge (hc'.regular hs') hid
    exact ⟨f, (mem_edges_normalized h hk).1 hf, hfid⟩
  have hgiven : ∀ f ∈ n.graph.edges, ∃ L, n.layoutOf f = some L ∧ k.calibration.layouts.get? f.id = some L := by
    intro f hf
    obtain ⟨L, hL⟩ := exists_layoutOf (hc.regular hs) hf
    exact ⟨L, hL, (layouts_normalized h hk hf).trans hL⟩
  rcases hdesc.get?_moveAll hknown he with ⟨f, hf, hfe, -, hmoved⟩ | ⟨⟨f, hf, -, hno⟩, -⟩
  · obtain ⟨L, hL, hLk⟩ := hgiven f hf
    refine ⟨f, ⟨hf, hdesc.stands f hf e he hfe⟩, hget.trans ?_⟩
    rw [hmoved, hLk, hL, Option.some_or]
  · obtain ⟨L, -, hLk⟩ := hgiven f hf
    exact absurd (Dict.contains_iff.2 ⟨L, hLk⟩) hno

end Ahead

/-- Fusing and dropping nodes after layouts were assigned ends with the same edges as without that, those of each
producer in the same order, and exactly these edges have layouts either way. The layout of an edge that was there before
is the same. An edge that was moved gets the layout of an edge that stands for it if layouts were assigned first;
otherwise it gets what was recorded for such an edge, or what the producer gives that it has then. So its layout is the
same if all edges that stand for it have one layout, and this is recorded for all of them or given by the producer. -/
theorem optimize_layouts_first (h : Reached (fun _ => True) l n) {a k b : Network}
    {ord ord₀ ord₁ : RenameOrder} {st st₀ st₁ : Stats} (ha : n.optimize l true ord = (a, .done st))
    (hk : n.optimize l false ord₀ = (k, .done st₀)) (hb : k.optimize l true ord₁ = (b, .done st₁)) :
    b.graph.edges.Perm a.graph.edges ∧ (∀ src, b.graph.outEdges src = a.graph.outEdges src) ∧
    (∀ id, (a.calibration.layouts.contains id ↔ ∃ e ∈ a.graph.edges, e.id = id) ∧
      (b.calibration.layouts.contains id ↔ ∃ e ∈ a.graph.edges, e.id = id)) ∧
    ∀ e ∈ a.graph.edges,
      (∀ f ∈ n.graph.edges, f.id = e.id →
        a.calibration.layouts.get? e.id = n.layoutOf f ∧ b.calibration.layouts.get? e.id = n.layoutOf f) ∧
      (∃ f, Origin n a f e ∧ b.calibration.layouts.get? e.id = n.layoutOf f) ∧
      ((∃ f, Origin n a f e ∧ n.calibration.layouts.contains f.id ∧ a.calibration.layouts.get? e.id = n.layoutOf f) ∨
        (∃ f, Origin n a f e ∧ ¬ n.calibration.layouts.contains f.id) ∧
          a.calibration.layouts.get? e.id = (a.graph.node? e.src).map nodeLayout) ∧
      ∀ L, (∀ f, Origin n a f e → n.layoutOf f = some L) →
        ((∀ f, Origin n a f e → n.calibration.layouts.contains f.id) ∨ (a.graph.node? e.src).map nodeLayout = some L) →
        a.calibration.layouts.get? e.id = some L ∧ b.calibration.layouts.get? e.id = some L := by
  have hahead : Reached (fun _ => True) l k := by
    have hreached := h.optimize false ord₀
    rwa [hk] at hreached
  obtain ⟨hedges, hout⟩ := edges_ahead h ha hk hb
  refine ⟨hedges, hout, fun id => ⟨contains_layouts_iff h ha, ?_⟩, fun e he => ⟨fun f hf hid => ?_,
    layouts_ahead h ha hk hb he, layouts_optimized h ha he, fun L hall hsame => ?_⟩⟩
  · simp only [contains_layouts_iff hahead hb, hedges.mem_iff]
  · have hf' := (mem_edges_normalized h hk).2 hf
    refine ⟨layouts_unmoved h ha he hf hid, (layouts_unmoved hahead hb (hedges.mem_iff.2 he) hf' hid).trans ?_⟩
    obtain ⟨L, hL⟩ := exists_layoutOf (h.coherent.regular (optimize_of_done h.coherent.regular h.coherent.library ha).1)
      hf
    rw [layoutOf, layouts_normalized h hk hf, hL, Option.some_or]
  · obtain ⟨f, hf, hbf⟩ := layouts_ahead h ha hk hb he
    refine ⟨?_, hbf.trans (hall f hf)⟩
    rcases layouts_optimized h ha he with ⟨f, hf, -, haf⟩ | ⟨⟨f, hf, hno⟩, haf⟩
    · exact haf.trans (hall f hf)
    · exact haf.trans (hsame.resolve_left fun hrec => hno (hrec f hf))

/-- The layout that is recorded for the edge from `r` to `y` is found at the edge from the fused chain to `y` either
way, and the edge to `z` has the usual one. -/
theorem optimize_layouts_first_forked : ∃ a k b st st₀ st₁,
    ((assemble forked []).adjust [.layout "r" "y" "NHWC"]).optimize .standard true .ascending = (a, .done st) ∧
    ((assemble forked []).adjust [.layout "r" "y" "NHWC"]).optimize .standard false .ascending = (k, .done st₀) ∧
    k.optimize .standard true .ascending = (b, .done st₁) ∧
    (∃ e ∈ a.graph.edges, e.src = "fused_cr" ∧ e.dst = "y" ∧
      a.calibration.layouts.get? e.id = some .nhwc ∧ b.calibration.layouts.get? e.id = some .nhwc) ∧
    ∃ e ∈ a.graph.edges, e.src = "fused_cr" ∧ e.dst = "z" ∧
      a.calibration.layouts.get? e.id = some .nchw ∧ b.calibration.layouts.get? e.id = some .nchw := by
  have hreached : Reached (fun _ => True) .standard ((assemble forked []).adjust [.layout "r" "y" "NHWC"]) :=
    reached_forked.adjust _
  generalize hn : (assemble forked []).adjust [.layout "r" "y" "NHWC"] = n at hreached
  have ha : n.optimize .standard true .ascending =
      ((n.optimize .standard true .ascending).1, .done { iterations := 2, fused := 1, dropped := 1 }) :=
    optimize_eq_of_done? (by rw [← hn]; decide +kernel)
  have hk : n.optimize .standard false .ascending = ((n.optimize .standard false .ascending).1, .done {}) :=
    optimize_eq_of_done? (by rw [← hn]; decide +kernel)
  have hb : (n.optimize .standard false .ascending).1.optimize .standard true .ascending =
      (((n.optimize .standard false .ascending).1.optimize .standard true .ascending).1,
      .done { iterations := 2, fused := 1, dropped := 1 }) :=
    optimize_eq_of_done? (by rw [← hn]; decide +kernel)
  generalize ham : (n.optimize .standard true .ascending).1 = a at ha
  have hy : ∃ e ∈ a.graph.edges, e.src = "fused_cr" ∧ e.dst = "y" := by
    rw [← ham, ← hn]
    decide +kernel
  have hz : ∃ e ∈ a.graph.edges, e.src = "fused_cr" ∧ e.dst = "z" := by
    rw [← ham, ← hn]
    decide +kernel
  have hproducer : (a.graph.node? "fused_cr").map nodeLayout = some .nchw := by
    rw [← ham, ← hn]
    decide +kernel
  have horigin : ∀ f ∈ n.graph.edges,
      (n.graph.Moved a.graph f.dst "y" → n.layoutOf f = some .nhwc ∧ n.calibration.layouts.contains f.id) ∧
        (n.graph.Moved a.graph f.dst "z" → n.layoutOf f = some .nchw) := by
    rw [← ham, ← hn]
    decide +kernel
  obtain ⟨e, he, hsrc, hey⟩ := hy
  obtain ⟨e', he', hsrc', hez⟩ := hz
  obtain ⟨-, -, -, hall⟩ := optimize_layouts_first hreached ha hk hb
  have hlayout := (hall e he).2.2.2 .nhwc (fun f hf => ((horigin f hf.1).1 (hey ▸ hf.2.dst)).1)
    (.inl fun f hf => ((horigin f hf.1).1 (hey ▸ hf.2.dst)).2)
  have hlayout' := (hall e' he').2.2.2 .nchw (fun f hf => (horigin f hf.1).2 (hez ▸ hf.2.dst))
    (.inr (hsrc' ▸ hproducer))
  exact ⟨a, _, _, _, _, _, ha, hk, hb, ⟨e, he, hsrc, hey, hlayout⟩, e', he', hsrc', hez, hlayout'⟩

/-- A chain before a dense operator, and an operator after it that is dropped. The last operator of the chain is
pinned. -/
def tapered : Network :=
  adjust (assemble [
      { name := "c", type := "conv", outputs := ["c0"] },
      { name := "r", type := "relu", inputs := ["c0"], outputs := ["r0"] },
      { name := "e", type := "dense", inputs := ["r0"], outputs := ["e0"] },
      { name := "d", type := "Dropout", inputs := ["e0"], outputs := ["d0"] },
      { name := "z", type := "softmax", inputs := ["d0"] }] [])
    [.attr "r" "layout" (.string "NHWC")]

/-- The edge from the fused chain has the layout that `r` is pinned to, and the one from `e` that of what `d` wrote,
only if layouts are assigned first: the fused node is not pinned, and without `d` the edge from `e` leads further. -/
theorem optimize_layouts_first_tapered : ∃ a k b st st₀ st₁, Reached (fun _ => True) .standard tapered ∧
    tapered.optimize .standard true .ascending = (a, .done st) ∧ tapered.optimize .standard false .ascending =
    (k, .done st₀) ∧
    k.optimize .standard true .ascending = (b, .done st₁) ∧
    a.calibration.layouts.get? (EdgeId.arc "fused_cr" "e") = some .nchw ∧
    b.calibration.layouts.get? (EdgeId.arc "fused_cr" "e") = some .nhwc ∧
    a.calibration.layouts.get? (EdgeId.arc "e" "z") = some .nc ∧
    b.calibration.layouts.get? (EdgeId.arc "e" "z") = some .nchw :=
  ⟨_, _, _, { iterations := 2, fused := 1, dropped := 1 }, {}, { iterations := 2, fused := 1, dropped := 1 },
    (reached_assemble (by decide) (by decide) []).adjust _, optimize_eq_of_done? (by decide +kernel),
    optimize_eq_of_done? (by decide +kernel),
      optimize_eq_of_done? (by decide +kernel), by decide +kernel, by decide +kernel,
    by decide +kernel, by decide +kernel⟩

end Network

end OpGraph
