import Mathlib
import OpGraph.Proofs.Network.Carryover

/-!
# Where edges come from

The edges of an optimized network come from edges of the network before. An edge whose ends are still there is one of
these; any other edge has a new identifier, and the notes on moved edges say which edges were moved there. What an edge
is called after is an edge that carries the same variable, unless the producer of that edge was dropped: past a dropped
node an edge carries what the node has read.
-/

namespace OpGraph

open Sandbox

namespace Graph.Regular

variable {g : Graph}

/-- The edges of a graph are what its arcs hold. -/
lemma mem_edges (h : g.Regular) {e : Edge} : e ∈ g.edges ↔ e.toArc ∈ g.dag.arcs := by
  rw [Graph.edges, List.mem_map]
  constructor
  · rintro ⟨a, ha, rfl⟩
    have ha := h.dag.mem_arcsBySource.1 ha
    obtain ⟨hsrc, hdst⟩ := h.sound.payload a ha
    rwa [Edge.toArc, hsrc, hdst]
  · exact fun he => ⟨e.toArc, h.dag.mem_arcsBySource.2 he, rfl⟩

/-- Where two nodes are joined there is an edge. -/
lemma exists_edge (h : g.Regular) {x y : String} (hxy : g.dag.hasArc x y) :
    ∃ e ∈ g.edges, e.id = EdgeId.arc x y := by
  obtain ⟨a, ha, rfl, rfl⟩ := Digraph.hasArc_iff.1 hxy
  obtain ⟨hsrc, hdst⟩ := h.sound.payload a ha
  have hval : a.val.toArc = a := by rw [Edge.toArc, hsrc, hdst]
  exact ⟨a.val, h.mem_edges.2 (hval ▸ ha), congrArg₂ EdgeId.arc hsrc hdst⟩

/-- Edges are told apart by their identifiers. -/
lemma eq_of_id (h : g.Regular) {e f : Edge} (he : e ∈ g.edges) (hf : f ∈ g.edges) (hid : e.id = f.id) : e = f := by
  have he := h.mem_edges.1 he
  have hf := h.mem_edges.1 hf
  obtain ⟨hsrc, hdst⟩ := (EdgeId.arc_inj (h.arrowFree_src he) (h.arrowFree_src hf)).1 hid
  exact congrArg Arc.val (h.dag.arc_unique he hf hsrc hdst)

end Graph.Regular

/-! ### Runs -/

namespace Sandbox

variable {g : Graph} {o s t : Sandbox}

/-- Every edge carries the variable of an edge of `o`, and it is called after an edge of `o` that carries the same
variable or whose producer is gone. -/
structure Labelled (o s : Sandbox) : Prop where
  carried : ∀ a ∈ s.dag.arcs, ∃ b ∈ o.dag.arcs, b.val.var = a.val.var
  called : ∀ a ∈ s.dag.arcs, ∃ b ∈ o.dag.arcs, s.baseId a.val = b.val.id ∧
    (b.val.var = a.val.var ∨ Gone (Moved o s) b.src)

namespace Labelled

lemma refl (h : ∀ id, o.origin.get? id = none) : Labelled o o :=
  ⟨fun a ha => ⟨a, ha, rfl⟩, fun a ha => ⟨a, ha, Dict.getD_of_none (h _), .inl rfl⟩⟩

/-- A merge moves edges with their variables. -/
lemma fuses (h : Labelled (Sandbox.copy g none) s) (hs : Tracks g (Sandbox.copy g none) s) {p : Pattern}
    {members : List String} {n : Node} (hf : Engine.Fuses s p members n t) : Labelled (Sandbox.copy g none) t := by
  have hcrossing : ∀ m ∈ s.crossings members n, m.1.toArc ∈ s.dag.arcs ∧ m.2.var = m.1.var := by
    intro m hm
    rcases mem_crossings.1 hm with ⟨e, he, rfl⟩ | ⟨e, he, rfl⟩
    · exact ⟨(hs.mem_inbound.1 he).1, rfl⟩
    · exact ⟨(hs.mem_outbound.1 he).1, rfl⟩
  refine ⟨fun a ha => ?_, fun a ha => ?_⟩
  · rcases hf.merged.called a ha with ⟨ha, -⟩ | ⟨m, hm, -, rfl, -⟩
    · exact h.carried a ha
    · obtain ⟨hmem, hvar⟩ := hcrossing m hm.mem
      obtain ⟨b, hb, hbv⟩ := h.carried _ hmem
      exact ⟨b, hb, hbv.trans hvar.symm⟩
  · simp only [gone_fuses hs hf]
    rcases hf.merged.called a ha with ⟨ha, hbase⟩ | ⟨m, hm, -, rfl, hbase⟩
    · rw [hbase]
      exact h.called a ha
    · obtain ⟨hmem, hvar⟩ := hcrossing m hm.mem
      obtain ⟨b, hb, hid, hbv⟩ := h.called _ hmem
      exact ⟨b, hb, hbase.trans hid, hbv.imp_left fun hbv => hbv.trans hvar.symm⟩

/-- An edge past a dropped node is called after an edge whose producer is gone. -/
lemma dropped (h : Labelled (Sandbox.copy g none) s) (hs : Edited g (Sandbox.copy g none) s)
    (hp : Populated (Sandbox.copy g none)) (htr : Traced (Sandbox.copy g none) s) {name : String} {src : Edge}
    (hdrop : s.Droppable name src) (hd : Dropped s name src t) : Labelled (Sandbox.copy g none) t := by
  have hmem : ∀ {e}, e ∈ s.outEdges name → e.toArc ∈ s.dag.arcs ∧ e.src = name := hs.tracks.mem_outEdges.1
  refine ⟨fun a ha => ?_, fun a ha => ?_⟩
  · rcases hd.arcs a ha with ⟨ha, -⟩ | ⟨e, -, rfl⟩
    · exact h.carried a ha
    · exact h.carried src.toArc (hs.tracks.mem_inEdges.1 (hdrop.source ▸ List.mem_singleton_self src)).1
  · rcases hd.called a ha with ⟨ha, hbase⟩ | ⟨m, hm, -, rfl, hbase⟩
    · obtain ⟨b, hb, hid, hbv⟩ := h.called a ha
      exact ⟨b, hb, hbase.trans hid, hbv.imp_right fun hgone => (htr.gone_dropped hd).2 (.inl hgone)⟩
    · obtain ⟨e, he, rfl⟩ := List.mem_map.1 hm.mem
      obtain ⟨harc, hsrc⟩ := hmem he
      obtain ⟨b, hb, hid, -⟩ := h.called _ harc
      -- What the edge out of the dropped node is called after stands for it.
      obtain ⟨x, y, hbase', hst⟩ := htr.exists_baseId hs hp (Digraph.hasArc_of_mem harc)
      have hcopy := (Edited.copy hs.copied.regular none).tracks
      have hbarc := Digraph.hasArc_of_mem hb
      obtain ⟨rfl, -⟩ := (EdgeId.arc_inj (hs.arrowFree_copy hst.arc) (hs.arrowFree_copy hbarc)).1
        (hbase'.symm.trans (hid.trans (hcopy.id_of_mem hb)))
      exact ⟨b, hb, hbase.trans hid, .inr ((htr.gone_dropped hd).2 (hsrc ▸ hst.src.symm.imp_left And.left))⟩

end Labelled

end Sandbox

/-! ### Optimizations -/

namespace Network

/-- What is recorded for an edge of the graph stays. -/
lemma stays_of_mem_edges {g : Graph} (h : g.Regular) {e : Edge} (he : e ∈ g.edges) : Stays g e.id :=
  stays_of_hasArc h (Digraph.hasArc_of_mem (h.mem_edges.1 he))

/-- An edge of the graph before became an edge: they are one, or the first was moved to the second. -/
def Became (renamed : Dict EdgeId) (f e : Edge) : Prop :=
  f.id = e.id ∨ renamed.get? f.id = some e.id

/-- Where the edges of the graph `g'` come from if those of `g` were moved as noted in `renamed`. -/
structure Descent (g g' : Graph) (renamed : Dict EdgeId) : Prop where
  once : ∀ {b id}, renamed.get? b = some id → renamed.get? id = none
  unmoved : ∀ e ∈ g'.edges, renamed.get? e.id = none
  edge : ∀ {b id}, renamed.get? b = some id → ∃ f ∈ g.edges, f.id = b
  stands : ∀ f ∈ g.edges, ∀ e ∈ g'.edges, Became renamed f e →
    StandsFor g.dag.Adj (g.Moved g') f.src f.dst e.src e.dst
  origin : ∀ e ∈ g'.edges, ∃ f ∈ g.edges, Became renamed f e ∧ (f.var = e.var ∨ Gone (g.Moved g') f.src)
  carried : ∀ e ∈ g'.edges, ∃ f ∈ g.edges, f.var = e.var

variable {ok : Node → Prop} {l : Library} {n m : Network}

/-- The edges after a run are called after edges that carry the same variable, or whose producer is gone. -/
lemma labelled_drafted (h : Reached ok l n) (hs : n.state ≠ .building) {fusion : Bool} {d : Draft}
    (hd : Drafted n l fusion d) : Labelled (Sandbox.copy n.graph none) d.sandbox := by
  refine (induct_traced h hs hd (.refl fun id => rfl) ?_).2
  intro s t hs _ hp htr hlab heff
  cases heff with
  | dropped hdrop hd => exact hlab.dropped hs hp htr hdrop hd
  | fused _ hf => exact hlab.fuses hs.tracks hf

section Landing

variable {d : Draft} {t : Sandbox} {layouts : Dict Layout} {g : Graph}

/-- The nodes of a landed draft are parts of what they are part of in its sandbox. -/
lemma Landing.moved_eq (hl : Landing n d t layouts g) (hone : n.graph.OneRecord) :
    Sandbox.Moved (Sandbox.copy n.graph none) d.sandbox = n.graph.Moved g := by
  funext u a
  refine propext (Iff.trans ?_ (moved_copy hone (hl.oneRecord hone)))
  exact exists_congr fun x => and_congr_right fun _ => (hl.redressed hone).owns.symm

/-- The edges of a graph that was landed are those of the sandbox. -/
lemma Landing.mem_edges (hl : Landing n d t layouts g) {e : Edge} : e ∈ g.edges ↔ e.toArc ∈ d.sandbox.dag.arcs := by
  rw [hl.regular.mem_edges, hl.mem_arcs, hl.normalized.respells.arcs]

/-- Where the edges of an optimized network come from. -/
lemma descent_landing (h : Reached ok l n) (hs : n.state ≠ .building) {fusion : Bool} (hd : Drafted n l fusion d)
    (hl : Landing n d t layouts g) : Descent n.graph g t.renamed := by
  have hc := h.coherent
  have hg := hc.regular hs
  have hone := hc.oneRecord
  have hed := hd.edited hg hc.library
  have hp := persistent_populated.reached populated_freeze h hs
  have htr := traced_drafted h hs hd
  have hlab := labelled_drafted h hs hd
  have hcopy := (Edited.copy hg none).tracks
  have hbase : ∀ {b}, b ∈ (Sandbox.copy n.graph none).dag.arcs → b.val ∈ n.graph.edges := by
    intro b hb
    rw [hg.mem_edges, hcopy.toArc_val hb]
    exact (copied_copy hg none).arcs b hb
  have hmem : ∀ {e}, e ∈ g.edges → e.toArc ∈ d.sandbox.dag.arcs := hl.mem_edges.1
  have hstands : ∀ {x y a b}, Stands (Sandbox.copy n.graph none) d.sandbox x y a b →
      StandsFor n.graph.dag.Adj (n.graph.Moved g) x y a b := by
    intro x y a b hst
    rwa [Stands, adj_copy hg.dag, hl.moved_eq hone] at hst
  rw [(moves_eq_iff.1 hl.normalized.respells.moves).2.2]
  refine ⟨fun hb => hed.renamed_once hb, fun e he => hed.renamed_of_hasArc (Digraph.hasArc_of_mem (hmem he)),
    fun hb => ?_,
    fun f hf e he hfe => ?_, fun e he => ?_, fun e he => ?_⟩
  · obtain ⟨a, ha, -, rfl⟩ := (hed.tracks.removedEdges _).1 (hed.settled.renames.renamed_removed hb)
    exact ⟨a.val, hbase ha, hcopy.id_of_mem ha⟩
  · have hfarc : (Sandbox.copy n.graph none).dag.hasArc f.src f.dst :=
      (hasArc_copy hg.dag).2 (Digraph.hasArc_of_mem (hg.mem_edges.1 hf))
    have hearc : d.sandbox.dag.hasArc e.src e.dst := Digraph.hasArc_of_mem (hmem he)
    have hsrc := Digraph.hasVertex_iff.1 (hed.tracks.wellFormed.hasVertex_src hearc)
    have hdst := Digraph.hasVertex_iff.1 (hed.tracks.wellFormed.hasVertex_dst hearc)
    rcases hfe with hid | hren
    · obtain ⟨hfs, hfd⟩ := (EdgeId.arc_inj (hed.arrowFree_copy hfarc) (hed.tracks.arrowFree_live hsrc)).1 hid
      have hwf := hed.copied.wellFormed
      refine hstands ⟨hfarc, .inl ?_, ?_⟩
      · rw [← hfs] at hsrc ⊢
        exact htr.moved_self hp (Digraph.hasVertex_iff.1 (hwf.hasVertex_src hfarc)) hsrc
      · rw [← hfd] at hdst ⊢
        exact htr.moved_self hp (Digraph.hasVertex_iff.1 (hwf.hasVertex_dst hfarc)) hdst
    · exact hstands (htr.noted hfarc hren hsrc hdst)
  · obtain ⟨b, hb, hid, hvar⟩ := hlab.called _ (hmem he)
    refine ⟨b.val, hbase hb, ?_, ?_⟩
    · cases horigin : d.sandbox.origin.get? e.id with
      | none =>
        have hself : d.sandbox.baseId e = e.id := Dict.getD_of_none horigin
        exact .inl (hid.symm.trans hself)
      | some id =>
        have hself : d.sandbox.baseId e = id := Dict.getD_of_some horigin
        exact .inr (hid ▸ hself ▸ hed.settled.renames.origin horigin)
    · rw [hl.moved_eq hone] at hvar
      exact hvar.imp_right fun hgone => (hcopy.payload b hb).1 ▸ hgone
  · obtain ⟨b, hb, hvar⟩ := hlab.carried _ (hmem he)
    exact ⟨b.val, hbase hb, hvar⟩

end Landing

end Network

end OpGraph
