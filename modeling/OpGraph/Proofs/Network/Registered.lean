import Mathlib
import OpGraph.Proofs.Network.Conveyance
import OpGraph.Proofs.Network.Descent

/-!
# Registered edges

An edge that was registered when a network was frozen is never lost: whatever the network is optimized to, the nodes
that stand for its two ends are joined by a registered edge, and there are no other registered edges. It carries a
variable of the same producer, and the same one unless it collapsed with an edge that carried another.
-/

namespace OpGraph

open Sandbox

namespace Sandbox

/-- The registered identifiers are identifiers of edges that are there. -/
lemma Edited.exists_arc_of_registered {g : Graph} {s : Sandbox} (h : Edited g (Sandbox.copy g none) s) {id : EdgeId}
    (hid : s.registered.contains id) : ∃ x y, s.dag.hasArc x y ∧ id = .arc x y := by
  rcases h.settled.renames.registered id hid with ⟨hid, hr | ⟨e, he, -⟩⟩ | ⟨hedge | ⟨e, he, -⟩, -⟩
  · obtain ⟨a, ha, rfl⟩ := h.copied.regular.exists_arc_of_registered hid
    have hcopy : a ∈ (Sandbox.copy g none).dag.arcs := by
      rwa [arcs_copy_none, h.copied.regular.dag.mem_arcsBySource]
    have hstays : s.Stays a := by
      by_contra hno
      exact hr ((h.tracks.removedEdges_iff h.copied hcopy).2 hno)
    exact ⟨a.src, a.dst, Digraph.hasArc_of_mem (h.tracks.mem_arcs_of_stays hcopy hstays), rfl⟩
  · cases he
  · exact h.tracks.hasEdge_iff.1 hedge
  · cases he

/-- A registered edge of a sandbox joins the nodes that stand for two operators. -/
structure Carries (s : Sandbox) (u v a b : String) : Prop where
  src : s.Owns a u
  dst : s.Owns b v
  hasArc : s.dag.hasArc a b
  registered : s.registered.contains (EdgeId.arc a b)

/-- The registered edges of a sandbox are those between the nodes that stand for the ends of registered edges of `g`. -/
structure Follows (g : Graph) (s : Sandbox) : Prop where
  exclusive : Exclusive s
  kept : ∀ {u v}, g.dag.hasArc u v → g.isRegistered (EdgeId.arc u v) → ∃ a b, s.Carries u v a b
  back : ∀ {id}, s.registered.contains id →
    ∃ u v a b, g.dag.hasArc u v ∧ g.isRegistered (EdgeId.arc u v) ∧ s.Carries u v a b ∧ id = EdgeId.arc a b

section Steps

variable {g h : Graph} {s t : Sandbox}

/-- Which edges are registered does not depend on precisions and attributes. -/
lemma Follows.redressed (hr : Redressed s t) (hf : Follows g s) : Follows g t where
  exclusive := fun hc hc' => hf.exclusive (hr.owns.1 hc) (hr.owns.1 hc')
  kept := by
    intro u v huv hreg
    obtain ⟨a, b, hab⟩ := hf.kept huv hreg
    exact ⟨a, b, hr.owns.2 hab.src, hr.owns.2 hab.dst, hr.hasArc.2 hab.hasArc, hr.registered ▸ hab.registered⟩
  back := by
    intro id hid
    obtain ⟨u, v, a, b, huv, hreg, hab, rfl⟩ := hf.back (hr.registered ▸ hid)
    exact ⟨u, v, a, b, huv, hreg,
      ⟨hr.owns.2 hab.src, hr.owns.2 hab.dst, hr.hasArc.2 hab.hasArc, hr.registered ▸ hab.registered⟩, rfl⟩

/-- No end of a registered edge is dropped. -/
lemma Carries.dropped (hs : Edited h (copy h none) s) {name : String} {src : Edge} (hdrop : s.Droppable name src)
    (hd : Dropped s name src t) {u v a b : String} (hab : s.Carries u v a b) : t.Carries u v a b := by
  have hpass := hs.passable_of_droppable hdrop
  have ha : a ≠ name := by
    rintro rfl
    exact (hpass.consumers b hab.hasArc).1 hab.registered
  have hb : b ≠ name := by
    rintro rfl
    exact hpass.unregistered ((hpass.source a).1 hab.hasArc ▸ hab.registered)
  exact ⟨(owns_dropped hd).2 ⟨hab.src, ha⟩, (owns_dropped hd).2 ⟨hab.dst, hb⟩, hd.hasArc.2 (.inl ⟨hab.hasArc, ha, hb⟩),
    hd.registered ▸ hab.registered⟩

/-- A drop moves no registered edge. -/
lemma Follows.dropped (hs : Edited h (copy h none) s) (hf : Follows g s) {name : String} {src : Edge}
    (hdrop : s.Droppable name src) (hd : Dropped s name src t) : Follows g t where
  exclusive := fun hc hc' => hf.exclusive ((owns_dropped hd).1 hc).1 ((owns_dropped hd).1 hc').1
  kept := by
    intro u v huv hreg
    obtain ⟨a, b, hab⟩ := hf.kept huv hreg
    exact ⟨a, b, hab.dropped hs hdrop hd⟩
  back := by
    intro id hid
    obtain ⟨u, v, a, b, huv, hreg, hab, rfl⟩ := hf.back (hd.registered ▸ hid)
    exact ⟨u, v, a, b, huv, hreg, hab.dropped hs hdrop hd, rfl⟩

section Fuses

variable {p : Pattern} {members : List String} {n : Node}

/-- A registered edge is not inside a chain, so it is moved to where its ends are. -/
lemma Carries.fuses (hs : Tracks h (copy h none) s) (haf : ArrowFree n.name) (hf : Engine.Fuses s p members n t)
    {u v a b : String} (hab : s.Carries u v a b) :
    t.Carries u v (Engine.Fuses.place members n.name a) (Engine.Fuses.place members n.name b) := by
  have hn : ¬ (a ∈ members ∧ b ∈ members) := by
    rintro ⟨ha, hb⟩
    obtain ⟨c, hc, rfl, rfl⟩ := Digraph.hasArc_iff.1 hab.hasArc
    obtain ⟨hsrc, hdst⟩ := hs.payload c hc
    refine hf.contractible.unregistered c.val (hs.mem_inner.2 ⟨(hs.toArc_val hc).symm ▸ hc, hsrc ▸ ha, hdst ▸ hb⟩) ?_
    rw [isRegistered, hs.id_of_mem hc]
    exact hab.registered
  exact ⟨(owns_fuses hs hf).2 ⟨a, hab.src, rfl⟩, (owns_fuses hs hf).2 ⟨b, hab.dst, rfl⟩, hf.hasArc_place hab.hasArc hn,
    hf.registered_place hs haf hab.hasArc hab.registered hn⟩

/-- A merge moves registered edges to where their ends are. -/
lemma Follows.fuses (hs : Edited h (copy h none) s) (ht : Edited h (copy h none) t) (hfol : Follows g s)
    (hf : Engine.Fuses s p members n t) : Follows g t := by
  have hown := @owns_fuses _ _ _ _ _ _ _ hs.tracks hf
  have haf : ArrowFree n.name := ht.tracks.arrowFree_live (hf.mem_keys.2 (.inl rfl))
  refine ⟨fun hc hc' => ?_, fun {u v} huv hreg => ?_, fun {id} hid => ?_⟩
  · obtain ⟨d, hd, rfl⟩ := hown.1 hc
    obtain ⟨d', hd', rfl⟩ := hown.1 hc'
    rw [hfol.exclusive hd hd']
  · obtain ⟨a, b, hab⟩ := hfol.kept huv hreg
    exact ⟨_, _, hab.fuses hs.tracks haf hf⟩
  · obtain ⟨x, y, hxy, rfl⟩ := ht.exists_arc_of_registered hid
    have hx := hf.not_mem_of_live hs.tracks (Digraph.hasVertex_iff.1 (ht.tracks.wellFormed.hasVertex_src hxy))
    have hy := hf.not_mem_of_live hs.tracks (Digraph.hasVertex_iff.1 (ht.tracks.wellFormed.hasVertex_dst hxy))
    have hxa := ht.tracks.arrowFree_live (Digraph.hasVertex_iff.1 (ht.tracks.wellFormed.hasVertex_src hxy))
    -- The edge was registered in the place it was moved from.
    have hmoved : ∀ {x' y'}, s.registered.contains (EdgeId.arc x' y') → ArrowFree x' →
        Engine.Fuses.place members n.name x' = x → Engine.Fuses.place members n.name y' = y →
        ∃ u v a b, g.dag.hasArc u v ∧ g.isRegistered (EdgeId.arc u v) ∧ t.Carries u v a b ∧
          EdgeId.arc x y = EdgeId.arc a b := by
      rintro x' y' hreg hx' rfl rfl
      obtain ⟨u, v, a, b, huv, hbase, hab, he⟩ := hfol.back hreg
      obtain ⟨rfl, rfl⟩ := (EdgeId.arc_inj hx' (hs.tracks.arrowFree_live hab.src.1)).1 he
      exact ⟨u, v, _, _, huv, hbase, hab.fuses hs.tracks haf hf, rfl⟩
    rcases (hf.merged.registered hxa hx hy).1 hid with hreg | ⟨rfl, m, hm, -, hreg⟩ | ⟨rfl, m, hm, -, hreg⟩
    · exact hmoved hreg hxa (Engine.Fuses.place_of_not_mem hx) (Engine.Fuses.place_of_not_mem hy)
    · exact hmoved hreg hxa (Engine.Fuses.place_of_not_mem hx) (Engine.Fuses.place_of_mem hm)
    · exact hmoved hreg (hs.tracks.arrowFree_live (hf.chain.live hm)) (Engine.Fuses.place_of_mem hm)
        (Engine.Fuses.place_of_not_mem hy)

end Fuses

end Steps

end Sandbox

namespace Network

end Network

end OpGraph
