import Mathlib
import OpGraph.Proofs.Network.Descent
import OpGraph.Proofs.Network.Freeze

/-!
# Layouts of optimized networks

Layouts are recorded for the edges of a network only, and after an optimization each of its edges has one: what was
recorded for an edge that it stands for, or what its producer gives. The producer is the one that is there after nodes
were fused and dropped.
-/

namespace OpGraph

open Sandbox

namespace Network

variable {ok : Node → Prop} {l : Library} {n m : Network} {d : Draft} {t : Sandbox} {layouts : Dict Layout} {g : Graph}
  {c : Calibration} {ord : RenameOrder}

/-! ### Edges with layouts -/

/-- Layouts are recorded for edges only. -/
def Laid (n : Network) : Prop :=
  ∀ id, n.calibration.layouts.contains id → ∃ x y, n.graph.dag.hasArc x y ∧ id = EdgeId.arc x y

/-- Where no nodes are joined, no layout is recorded. -/
lemma Laid.unlaid (h : Laid n) (harcs : n.graph.dag.arcs = []) (id : EdgeId) : ¬ n.calibration.layouts.contains id := by
  intro hid
  obtain ⟨x, y, hxy, -⟩ := h id hid
  obtain ⟨a, ha, -⟩ := Digraph.hasArc_iff.1 hxy
  rw [harcs] at ha
  cases ha

/-- Settings record layouts for edges only. -/
lemma Laid.set (h : Laid n) {setting : Setting} (he : n.set setting = .ok m) : Laid m := by
  have hdag : m.graph.dag.hasArc = n.graph.dag.hasArc := by
    rcases set_cases he with ⟨op, f, -, rfl⟩ | ⟨calibration, varScales, rfl⟩ <;> rfl
  intro id hid
  rw [hdag]
  rcases layouts_set he with hsame | ⟨src, dst, layout, hedge, hinsert⟩
  · exact h id (hsame ▸ hid)
  · rw [hinsert] at hid
    rcases Dict.contains_insert.1 hid with rfl | hid
    · exact ⟨src, dst, hedge, rfl⟩
    · exact h id hid

/-- The scales of variables that wait until a network is frozen do not matter to layouts. -/
lemma layouts_resolve {order : List String} (h : n.resolve = .ok (g, order, c)) :
    c.layouts = n.calibration.layouts := by
  obtain ⟨added, joined, listed, h⟩ := resolve_ok_iff.1 h
  exact foldlM_ok_induct (P := fun c => c.layouts = n.calibration.layouts)
    (fun c x c' _ hc hx => (layouts_scaleVar hx).trans hc) rfl h.scales

/-- Landing a draft leaves layouts of edges only. -/
lemma Landing.laid (hn : Laid n) (h : Landing n d t layouts g)
    (hc : Recalibrated n.calibration g ord t.renamed layouts c)
    {id : EdgeId} (hid : c.layouts.contains id) : ∃ x y, g.dag.hasArc x y ∧ id = EdgeId.arc x y := by
  rcases hc.stays_layouts hid with hsynthetic | hedge
  · -- Nothing is recorded for an identifier that is not that of an edge, and nothing is moved there.
    have hne : ∀ x y, EdgeId.arc x y ≠ id := fun x y he => EdgeId.not_isSynthetic_arc x y (he ▸ hsynthetic)
    have hmoved : ∀ {b b'}, t.renamed.get? b = some b' → b ≠ id ∧ b' ≠ id := by
      intro b b' hb
      obtain ⟨a, -, -, rfl⟩ := (h.edited.tracks.removedEdges _).1 (h.edited.settled.renames.renamed_removed hb)
      obtain ⟨u, v, rfl, -⟩ := h.edited.settled.renames.renamed_place hb
      exact ⟨hne _ _, hne _ _⟩
    have hbefore : n.calibration.layouts.get? id = none := Dict.get?_eq_none_iff.2 fun hid => by
      obtain ⟨x, y, -, he⟩ := hn id hid
      exact hne x y he.symm
    have hgiven : layouts.get? id = none := Dict.get?_eq_none_iff.2 fun hid => by
      obtain ⟨-, e, -, he⟩ := h.normalized.assigned.1 hid
      exact hne e.src e.dst he
    have hget := hc.layouts_unmoved (.inl hsynthetic) hmoved
    rw [hbefore, hgiven] at hget
    exact absurd hid (Dict.get?_eq_none_iff.1 hget)
  · exact Graph.exists_hasArc hedge

/-- Layouts are recorded for the edges of a network that is reached only. -/
lemma Reached.laid (h : Reached ok l n) : Laid n := by
  induction h with
  | new => exact fun id hid => by cases hid
  | addOp h _ _ he ih =>
    obtain ⟨hs, graph, -, rfl⟩ := addOp_ok he
    exact fun id hid => absurd hid (ih.unlaid (h.coherent.unjoined hs).1 id)
  | declareVar _ _ _ he ih =>
    obtain ⟨-, -, rfl⟩ := declareVar_ok he
    exact ih
  | declareOut _ he ih =>
    have he := failing_ok he
    split_ifs at he
    · cases he
    · cases he
      exact ih
  | declareAllOuts _ he ih =>
    have he := failing_ok he
    split_ifs at he
    · cases he
    · cases he
      exact ih
  | set _ he ih => exact ih.set he
  | refer _ _ ih => exact ih
  | register _ _ _ ih => exact ih
  | relocate _ _ _ ih => exact ih
  | @freeze l n m h he ih =>
    obtain ⟨hs, graph, order, calibration, hres, rfl⟩ := freeze_eq he
    intro id hid
    rw [layouts_resolve hres] at hid
    exact absurd hid (ih.unlaid (h.coherent.unjoined hs).1 id)
  | @optimize l n h fusion ord ih =>
    have hc := h.coherent
    cases hr : n.optimize l fusion ord with
    | mk m outcome =>
      have ho := optimizes_optimize hc.regular hc.library fusion ord
      rw [hr] at ho
      cases ho with
      | unfrozen => exact ih
      | diverges => exact ih
      | lands _ _ hl =>
        cases hl with
        | illegible => exact ih
        | stale => exact ih
        | aborted => exact ih
        | done _ hl _ hrec _ =>
          intro id hid
          obtain ⟨x, y, hxy, rfl⟩ := hl.laid ih hrec hid
          refine ⟨x, y, ?_, rfl⟩
          rw [settled]
          dsimp only
          split
          · exact hxy
          · exact hxy

/-! ### Nodes that stay -/

/-- A node that is still there has the type and the attributes it had before. -/
lemma type_attrs_drafted (hg : n.graph.Regular) (hl : l.ArrowFree) {fusion : Bool} (hd : Drafted n l fusion d)
    {k : String} {v w : Node} (hv : n.graph.node? k = some v) (hw : d.sandbox.node? k = some w) :
    w.type = v.type ∧ w.attrs = v.attrs := by
  obtain ⟨trace, hrun, -⟩ := hd.runs
  have hk : k ∈ n.graph.dag.keys := by
    obtain ⟨x, hx, -⟩ := Option.map_eq_some_iff.1 hv
    exact Digraph.hasVertex_iff.1 (Digraph.hasVertex_iff_exists.2 ⟨x, hx⟩)
  refine (hrun.induct_effect (P := fun s => ∀ w, s.node? k = some w → w.type = v.type ∧ w.attrs = v.attrs)
    (.copy hg none) (arrowFree_engine hl n) ?_ ?_).2 w hw
  · intro w hw
    rw [node?_copy, hv] at hw
    cases hw
    exact ⟨rfl, rfl⟩
  · intro s t hs _ ih heff w hw
    obtain ⟨x, hx, rfl⟩ := Option.map_eq_some_iff.1 hw
    cases heff with
    | dropped _ h =>
      rw [h.vertex] at hx
      split at hx
      · cases hx
      · split at hx
        · exact ih _ (Option.map_eq_some_iff.2 ⟨x, hx, rfl⟩)
        · obtain ⟨y, hy, rfl⟩ := Option.map_eq_some_iff.1 hx
          exact ih y.val (Option.map_eq_some_iff.2 ⟨y, hy, rfl⟩)
    | fused _ h =>
      rw [h.merged.vertex] at hx
      split at hx
      · rename_i he
        exact absurd (hs.tracks.taken k hk) (he ▸ h.contractible.free)
      · split at hx
        · cases hx
        · exact ih _ (Option.map_eq_some_iff.2 ⟨x, hx, rfl⟩)

/-! ### What an edge is given -/

/-- The layout that is recorded for an edge, or else the one that its producer gives. -/
def layoutOf (n : Network) (e : Edge) : Option Layout :=
  (n.calibration.layouts.get? e.id).or ((n.graph.node? e.src).map nodeLayout)

/-- The nodes of a landed draft give the layouts that those of its sandbox give. -/
lemma Landing.map_nodeLayout (h : Landing n d t layouts g) (hone : n.graph.OneRecord) (k : String) :
    (g.node? k).map nodeLayout = (d.sandbox.node? k).map nodeLayout := by
  rw [← node?_copy, (h.mirrors hone).node, Option.map_map]
  exact congrArg (Option.map · (d.sandbox.node? k)) (funext nodeLayout_respelled)

/-- An edge of a landed draft has the layout that was moved to it, or else the one that its producer gives. -/
lemma Landing.get?_layouts (h : Landing n d t layouts g) (hone : n.graph.OneRecord)
    (hknown : d.known = n.calibration.layouts)
    (hc : Recalibrated n.calibration g ord t.renamed layouts c) {e : Edge} (he : e ∈ g.edges) :
    c.layouts.get? e.id = ((Calibration.moveAll n.calibration.layouts (ord.arrange t.renamed.entries)).get? e.id).or
      ((g.node? e.src).map nodeLayout) := by
  have harc : e.toArc ∈ t.dag.arcs := by
    rw [h.normalized.respells.arcs]
    exact h.mem_edges.1 he
  rw [hc.layouts, if_pos (stays_of_mem_edges h.regular he), Calibration.rename, Calibration.layouts_renameAll]
  by_cases hk : n.calibration.layouts.contains e.id
  · have hunmoved : t.renamed.get? e.id = none := h.edited.renamed_of_hasArc (Digraph.hasArc_of_mem harc)
    obtain ⟨v, hv⟩ := Dict.contains_iff.1 (Calibration.contains_moveAll ord hunmoved hk)
    rw [hv, Option.some_or, Option.some_or]
  · have hmem : e ∈ t.edges := List.mem_map.2 ⟨e.toArc, h.edited.tracks.wellFormed.mem_arcsBySource.2 harc, rfl⟩
    rw [h.normalized.given e hmem (hknown ▸ hk), h.map_nodeLayout hone]

/-- What is recorded for edges is found at an edge that one of them became, unless nothing is recorded for one of
these. -/
lemma Descent.get?_moveAll {g' : Graph} {renamed : Dict EdgeId} (hd : Descent g g' renamed) {α : Type}
    {recorded : Dict α} (hrec : ∀ id, recorded.contains id → ∃ f ∈ g.edges, f.id = id) {e : Edge} (he : e ∈ g'.edges) :
    (∃ f ∈ g.edges, Became renamed f e ∧ recorded.contains f.id ∧
      (Calibration.moveAll recorded (ord.arrange renamed.entries)).get? e.id = recorded.get? f.id) ∨
    (∃ f ∈ g.edges, Became renamed f e ∧ ¬ recorded.contains f.id) ∧
      (Calibration.moveAll recorded (ord.arrange renamed.entries)).get? e.id = none := by
  rcases Calibration.get?_moveAll_arrange (d := recorded) hd.once (hd.unmoved e he) with
    ⟨b, hb, hcontains, hget⟩ | ⟨hnone, hget⟩
  · obtain ⟨f, hf, rfl⟩ := hd.edge hb
    exact .inl ⟨f, hf, .inr hb, hcontains, hget⟩
  · by_cases hid : recorded.contains e.id
    · obtain ⟨f, hf, hfe⟩ := hrec e.id hid
      exact .inl ⟨f, hf, .inl hfe, hfe ▸ hid, hfe ▸ hget⟩
    · obtain ⟨f, hf, hfe, -⟩ := hd.origin e he
      refine .inr ⟨⟨f, hf, hfe, ?_⟩, hget.trans (Dict.get?_eq_none_iff.2 hid)⟩
      rcases hfe with hfe | hfe
      · rwa [hfe]
      · exact hnone f.id hfe

/-! ### Optimizations -/

/-- An edge of a network stands for an edge of what an optimization made of the network. -/
def Origin (n m : Network) (f e : Edge) : Prop :=
  f ∈ n.graph.edges ∧ StandsFor n.graph.dag.Adj (n.graph.Moved m.graph) f.src f.dst e.src e.dst

/-- The producer of an edge gives a layout. -/
lemma exists_layoutOf (hg : n.graph.Regular) {f : Edge} (hf : f ∈ n.graph.edges) : ∃ L, n.layoutOf f = some L := by
  obtain ⟨v, hv⟩ := Digraph.hasVertex_iff_exists.1 (Digraph.hasVertex_iff.2 (hg.dag.src_mem _ (hg.mem_edges.1 hf)))
  have hnode : n.graph.node? f.src = some v.val := Option.map_eq_some_iff.2 ⟨v, hv, rfl⟩
  rw [layoutOf, hnode]
  cases n.calibration.layouts.get? f.id with
  | none => exact ⟨_, rfl⟩
  | some L => exact ⟨_, rfl⟩

/-- The edges that have layouts are the edges. -/
lemma Laid.exists_edge (h : Laid n) (hg : n.graph.Regular) {id : EdgeId} (hid : n.calibration.layouts.contains id) :
    ∃ e ∈ n.graph.edges, e.id = id := by
  obtain ⟨x, y, hxy, rfl⟩ := h id hid
  exact hg.exists_edge hxy

/-- An identifier that stays without being that of weights is that of an edge. -/
lemma Landing.exists_edge (h : Landing n d t layouts g) {id : EdgeId} (hid : Stays g id) (hsyn : ¬ id.isSynthetic) :
    ∃ e ∈ g.edges, e.id = id := by
  obtain ⟨x, y, hxy, rfl⟩ := Graph.exists_hasArc (hid.resolve_left hsyn)
  exact h.regular.exists_edge hxy

/-- Landing a draft leaves layouts of exactly the edges, unless it leaves some of weights. -/
lemma Landing.contains_layouts_iff (h : Landing n d t layouts g) (hknown : d.known = n.calibration.layouts)
    (hc : Recalibrated n.calibration g ord t.renamed layouts c)
    (hsyn : ∀ id : EdgeId, id.isSynthetic → ¬ c.layouts.contains id) {id : EdgeId} :
    c.layouts.contains id ↔ ∃ e ∈ g.edges, e.id = id := by
  constructor
  · exact fun hid => h.exists_edge (hc.stays_layouts hid) fun hs => hsyn id hs hid
  · rintro ⟨e, he, rfl⟩
    exact h.contains_layouts (fun id hid => hknown ▸ hid) hc (Digraph.hasArc_of_mem (h.regular.mem_edges.1 he))

variable {fusion : Bool} {st : Stats}

/-- After an optimization exactly the edges have layouts. -/
lemma contains_layouts_iff (h : Reached ok l n) (ho : n.optimize l fusion ord = (m, .done st)) {id : EdgeId} :
    m.calibration.layouts.contains id ↔ ∃ e ∈ m.graph.edges, e.id = id := by
  have hc := h.coherent
  have hm := h.optimize fusion ord
  rw [ho] at hm
  obtain ⟨hs, d, t, layouts, g, c, order, hd, hl, hrec, rfl, -⟩ := optimize_of_done hc.regular hc.library ho
  have hedges : (n.settled g c order st fusion).graph.edges = g.edges := by
    cases fusion <;> rfl
  rw [hedges]
  refine hl.contains_layouts_iff hd.known hrec fun id hsyn hid => ?_
  obtain ⟨x, y, -, rfl⟩ := hm.laid id hid
  exact EdgeId.not_isSynthetic_arc x y hsyn

/-- An edge that is there before and after is not moved, and none is moved to it: edges are moved to new ones. -/
lemma Landing.unmoved (h : Landing n d t layouts g) {x y : String} (hxy : n.graph.dag.hasArc x y)
    (hxy' : g.dag.hasArc x y)
    {b id : EdgeId} (hb : t.renamed.get? b = some id) : b ≠ EdgeId.arc x y ∧ id ≠ EdgeId.arc x y := by
  constructor
  · rintro rfl
    rw [h.edited.renamed_of_hasArc (h.hasArc_iff.1 hxy')] at hb
    cases hb
  · rintro rfl
    have hg := h.edited.copied.regular
    obtain ⟨u, v, hid, hu, -, hno, -⟩ := h.edited.settled.renames.renamed_place hb
    obtain ⟨rfl, rfl⟩ := (EdgeId.arc_inj (hg.arrowFree_of_hasArc hxy) (h.edited.tracks.arrowFree u hu)).1 hid
    exact hno hxy

/-- The layout of a node depends on its type and its attributes only. -/
lemma nodeLayout_congr {v w : Node} (htype : w.type = v.type) (hattrs : w.attrs = v.attrs) :
    nodeLayout w = nodeLayout v := by
  rw [nodeLayout, nodeLayout, pinned?, pinned?, pin?, pin?, hattrs, htype]

/-- An edge that was there before has the layout that was recorded for it, or else the one that its producer gave. -/
lemma layouts_unmoved (h : Reached ok l n) (ho : n.optimize l true ord = (m, .done st)) {e f : Edge}
    (he : e ∈ m.graph.edges)
    (hf : f ∈ n.graph.edges) (hid : f.id = e.id) : m.calibration.layouts.get? e.id = n.layoutOf f := by
  have hc := h.coherent
  obtain ⟨hs, d, t, layouts, g, c, order, hd, hl, hrec, rfl, -⟩ := optimize_of_done hc.regular hc.library ho
  have hg := hc.regular hs
  have hfarc := hg.mem_edges.1 hf
  have hearc := hl.mem_edges.1 he
  have hlanded := hl.regular.mem_edges.1 he
  obtain ⟨hsrc, hdst⟩ : f.src = e.src ∧ f.dst = e.dst :=
    (EdgeId.arc_inj (hg.arrowFree_src hfarc) (hl.regular.arrowFree_src hlanded)).1 hid
  -- The producer is still there, with its type and its attributes.
  obtain ⟨v, hv⟩ := Digraph.hasVertex_iff_exists.1 (Digraph.hasVertex_iff.2 (hg.dag.src_mem _ hfarc))
  obtain ⟨w, hw⟩ := Digraph.hasVertex_iff_exists.1 (Digraph.hasVertex_iff.2
    ((hd.edited hg hc.library).tracks.wellFormed.src_mem _ hearc))
  have hvnode : n.graph.node? f.src = some v.val := Option.map_eq_some_iff.2 ⟨v, hv, rfl⟩
  have hwnode : d.sandbox.node? e.src = some w.val := Option.map_eq_some_iff.2 ⟨w, hw, rfl⟩
  obtain ⟨htype, hattrs⟩ := type_attrs_drafted hg hc.library hd hvnode (hsrc ▸ hwnode)
  have hbefore : n.graph.dag.hasArc e.src e.dst := hsrc ▸ hdst ▸ Digraph.hasArc_of_mem hfarc
  have hget : (Calibration.moveAll n.calibration.layouts (ord.arrange t.renamed.entries)).get? e.id =
    n.calibration.layouts.get? f.id := by
    rw [hid]
    exact Calibration.get?_moveAll_unmoved (hl.unmoved hbefore (Digraph.hasArc_of_mem hlanded)) _
  refine (hl.get?_layouts hc.oneRecord hd.known hrec he).trans ?_
  rw [hget, hl.map_nodeLayout hc.oneRecord, hwnode, layoutOf, hvnode, Option.map_some, Option.map_some,
    nodeLayout_congr htype hattrs]

/-- An edge has the layout that was recorded for an edge that stands for it, or else the one that its producer gives. -/
lemma layouts_optimized (h : Reached ok l n) (ho : n.optimize l true ord = (m, .done st)) {e : Edge}
    (he : e ∈ m.graph.edges) :
    (∃ f, Origin n m f e ∧ n.calibration.layouts.contains f.id ∧ m.calibration.layouts.get? e.id = n.layoutOf f) ∨
    (∃ f, Origin n m f e ∧ ¬ n.calibration.layouts.contains f.id) ∧
      m.calibration.layouts.get? e.id = (m.graph.node? e.src).map nodeLayout := by
  have hc := h.coherent
  obtain ⟨hs, d, t, layouts, g, c, order, hd, hl, hrec, rfl, -⟩ := optimize_of_done hc.regular hc.library ho
  have hdesc := descent_landing h hs hd hl
  have hget := hl.get?_layouts hc.oneRecord hd.known hrec he
  rcases hdesc.get?_moveAll (fun id hid => h.laid.exists_edge (hc.regular hs) hid) he with
    ⟨f, hf, hfe, hcontains, hmoved⟩ | ⟨⟨f, hf, hfe, hno⟩, hmoved⟩
  · obtain ⟨L, hL⟩ := Dict.contains_iff.1 hcontains
    refine .inl ⟨f, ⟨hf, hdesc.stands f hf e he hfe⟩, hcontains, hget.trans ?_⟩
    rw [hmoved, layoutOf, hL, Option.some_or, Option.some_or]
  · refine .inr ⟨⟨f, ⟨hf, hdesc.stands f hf e he hfe⟩, hno⟩, hget.trans ?_⟩
    rw [hmoved, Option.none_or]
    rfl

end Network

end OpGraph
