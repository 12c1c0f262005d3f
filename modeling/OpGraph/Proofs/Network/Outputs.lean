import Mathlib
import OpGraph.Proofs.Network.Provenance

/-!
# Declared outputs

The outputs of a frozen network are the nodes that nobody reads. However often the network is optimized, this stays so,
and each output keeps its place in the list: there stands the operator itself, or the fused node whose chain ends with
it and which keeps what it writes.
-/

namespace OpGraph

open Sandbox

namespace Sandbox

variable {g : Graph} {o s t : Sandbox} {x c : String}

/-! ### What nobody reads -/

/-- The outputs of the boundary are the nodes that nobody reads. -/
def Drained (s : Sandbox) : Prop :=
  ∀ {c}, s.outs.contains c ↔ c ∈ s.dag.keys ∧ ∀ y, ¬ s.dag.hasArc c y

namespace Drained

/-- What nobody reads does not depend on precisions and attributes. -/
lemma redressed (h : Drained s) (hr : Redressed s t) : Drained t := by
  intro c
  rw [hr.outs, h, hr.mem_keys]
  simp only [hr.hasArc]

/-- A node that is dropped has consumers, which its producer feeds then. -/
lemma dropped (h : Drained s) (hs : Edited g (copy g none) s) {name : String} {src : Edge}
    (hd : s.Droppable name src) (hdrop : Dropped s name src t) : Drained t := by
  have hsource := (hs.passable_of_droppable hd).source
  intro c
  rw [(border_eq_iff.1 hdrop.border).2.1, h, hdrop.mem_keys]
  constructor
  · rintro ⟨hc, hno⟩
    refine ⟨⟨hc, ?_⟩, fun y hy => ?_⟩
    · rintro rfl
      exact hd.notOutput (h.2 ⟨hc, hno⟩)
    · rcases hdrop.hasArc.1 hy with ⟨hy, -, -⟩ | ⟨rfl, -⟩
      · exact hno y hy
      · exact hno name ((hsource _).2 rfl)
  · rintro ⟨⟨hc, hne⟩, hno⟩
    refine ⟨hc, fun y hy => ?_⟩
    by_cases hyn : y = name
    · subst hyn
      -- a node that nobody reads is an output, and outputs are not dropped
      obtain ⟨z, hz⟩ : ∃ z, s.dag.hasArc y z := by
        by_contra hnone
        push Not at hnone
        exact hd.notOutput (h.2 ⟨hd.live, hnone⟩)
      exact hno z (hdrop.hasArc.2 (.inr ⟨(hsource c).1 hy, hz⟩))
    · exact hno y (hdrop.hasArc.2 (.inl ⟨hy, hne, hyn⟩))

/-- What the fused node feeds is what the last member fed. -/
lemma fuses (h : Drained s) (hs : Tracks g o s) {p : Pattern} {members : List String} {n : Node}
    (hf : Engine.Fuses s p members n t) : Drained t := by
  obtain ⟨last, hl⟩ := hf.chain.exists_last
  have hlast : last ∈ members := List.mem_of_getLast? hl
  intro c
  rw [hf.merged.outs, hf.mem_keys]
  by_cases hc : c = n.name
  · subst hc
    constructor
    · rintro (⟨hout, -⟩ | ⟨-, m, hm, hout⟩)
      · exact absurd (h.1 hout).1 (hf.name_fresh hs)
      · refine ⟨.inl rfl, fun y hy => ?_⟩
        obtain ⟨x, y, hxy, hn, hx, -⟩ := hf.exists_of_hasArc hy
        have hx : x ∈ members := by
          by_contra hno
          rw [Engine.Fuses.place_of_not_mem hno] at hx
          exact hf.name_fresh hs (hx ▸ Digraph.hasVertex_iff.1 (hs.wellFormed.hasVertex_src hxy))
        -- an edge out of the chain starts at its last member, and so does an output
        have hxl := hf.chain.last_of_outbound hs.wellFormed hx (fun hy => hn ⟨hx, hy⟩) hxy
        obtain rfl : x = m := Option.some.inj (hxl.symm.trans (hf.chain.last_of_output hm hout))
        exact (h.1 hout).2 y hxy
    · rintro ⟨-, hno⟩
      refine .inr ⟨rfl, last, hlast, h.2 ⟨hf.chain.live hlast, fun y hy => ?_⟩⟩
      have harc := hf.hasArc_place hy fun hboth => hf.not_mem_of_last hs hl hy hboth.2
      rw [Engine.Fuses.place_of_mem hlast] at harc
      exact hno _ harc
  · constructor
    · rintro (⟨hout, hm⟩ | ⟨he, -⟩)
      · refine ⟨.inr ⟨(h.1 hout).1, hm⟩, fun y hy => ?_⟩
        obtain ⟨x, y, hxy, -, hx, -⟩ := hf.exists_of_hasArc hy
        by_cases hxm : x ∈ members
        · rw [Engine.Fuses.place_of_mem hxm] at hx
          exact hc hx.symm
        · rw [Engine.Fuses.place_of_not_mem hxm] at hx
          subst hx
          exact (h.1 hout).2 y hxy
      · exact absurd he hc
    · rintro ⟨he | ⟨hlive, hm⟩, hno⟩
      · exact absurd he hc
      · refine .inl ⟨h.2 ⟨hlive, fun y hy => ?_⟩, hm⟩
        have harc := hf.hasArc_place hy fun hboth => hm hboth.1
        rw [Engine.Fuses.place_of_not_mem hm] at harc
        exact hno _ harc

end Drained

/-! ### What stands for an output -/

/-- An output of the boundary stands for the operator `x`: it is the operator, or its record ends with it and keeps
it. -/
structure Ends (s : Sandbox) (x c : String) : Prop where
  owns : s.Owns c x
  output : s.outs.contains c
  last : ∀ {r}, s.merges.get? c = some r → r.members.getLast? = some x ∧ x ∈ r.keep

namespace Ends

/-- The operator that an output stands for is the last one it is made of. -/
lemma getLast?_originals (h : s.Ends x c) : (s.originals c).getLast? = some x := by
  have hx := h.owns.2
  rw [originals] at hx ⊢
  cases hr : s.merges.get? c with
  | none =>
    rw [hr] at hx
    rw [List.mem_singleton.1 hx]
    rfl
  | some r => exact (h.last hr).1

/-- A node stands for one output only. -/
lemma unique {x' : String} (h : s.Ends x c) (h' : s.Ends x' c) : x = x' :=
  Option.some.inj (h.getLast?_originals.symm.trans h'.getLast?_originals)

/-- An output stands for one operator, and an operator has one output. -/
lemma biUnique (h : Exclusive s) : Relator.BiUnique s.Ends :=
  ⟨fun _ _ _ hx hx' => hx.unique hx', fun _ _ _ hc hc' => h hc.owns hc'.owns⟩

/-- What an output stands for does not depend on precisions and attributes. -/
lemma redressed (h : s.Ends x c) (hr : Redressed s t) : t.Ends x c :=
  ⟨hr.owns.2 h.owns, hr.outs ▸ h.output, fun hm => h.last (hr.merges ▸ hm)⟩

/-- An output is not dropped. -/
lemma dropped (h : s.Ends x c) {name : String} {src : Edge} (hd : s.Droppable name src) (hdrop : Dropped s name src t) :
    t.Ends x c := by
  have hne : c ≠ name := by
    rintro rfl
    exact hd.notOutput h.output
  refine ⟨(owns_dropped hdrop).2 ⟨h.owns, hne⟩, ?_, fun hm => ?_⟩
  · rw [(border_eq_iff.1 hdrop.border).2.1]
    exact h.output
  · rw [(records_eq_iff.1 hdrop.records).1] at hm
    exact h.last hm

/-- The record of a chain ends with the output that its last member stands for, and keeps it. -/
lemma provenance (h : s.Ends x c) {names : List String} (hl : names.getLast? = some c) (fused pattern : String) :
    (s.provenance names fused pattern).members.getLast? = some x ∧ x ∈ (s.provenance names fused pattern).keep := by
  obtain ⟨init, rfl⟩ := List.getLast?_eq_some_iff.1 hl
  constructor
  · rw [members_provenance, List.flatMap_append, List.getLast?_append, List.flatMap_singleton, h.getLast?_originals,
      Option.some_or]
  · have hexposed : s.isExposed (init ++ [c]) c = true := Bool.or_eq_true_iff.2 (.inl h.output)
    show x ∈ (init ++ [c]).foldl (s.keepMember (init ++ [c])) []
    rw [List.foldl_append, List.foldl_cons, List.foldl_nil, keepMember]
    cases hr : s.mergeRecord? c with
    | none =>
      have hx := h.owns.2
      rw [originals, show s.merges.get? c = none from hr, List.mem_singleton] at hx
      dsimp only
      rw [if_pos hexposed, hx]
      exact List.mem_append_right _ (List.mem_singleton_self c)
    | some r =>
      dsimp only
      rw [if_pos hexposed, (h.last hr).1]
      exact Graph.mem_addOnce.2 (.inr rfl)

/-- The output that a member of a chain stands for goes to the fused node. -/
lemma fuses (h : s.Ends x c) (hs : Tracks g o s) {p : Pattern} {members : List String} {n : Node}
    (hf : Engine.Fuses s p members n t) : t.Ends x (Engine.Fuses.place members n.name c) := by
  refine ⟨(owns_fuses hs hf).2 ⟨c, h.owns, rfl⟩, ?_, fun {r} hr => ?_⟩
  · rw [hf.merged.outs]
    by_cases hc : c ∈ members
    · exact .inr ⟨Engine.Fuses.place_of_mem hc, c, hc, h.output⟩
    · rw [Engine.Fuses.place_of_not_mem hc]
      exact .inl ⟨h.output, hc⟩
  · rw [hf.merged.merges] at hr
    by_cases hc : c ∈ members
    · rw [if_pos (Engine.Fuses.place_of_mem hc)] at hr
      cases hr
      exact h.provenance (hf.chain.last_of_output hc h.output) n.name p.name
    · have hne : c ≠ n.name := by
        rintro rfl
        exact hf.name_fresh hs h.owns.1
      rw [Engine.Fuses.place_of_not_mem hc, if_neg hne, if_neg hc] at hr
      exact h.last hr

end Ends

/-! ### Places in the boundary -/

/-- A step of the engine moves what stands for an output of the graph to where the boundary says. -/
lemma ends_step {e : Engine} {ed : Edit} (hs : Edited g (copy g none) s) (hp : ∀ p ∈ e.patterns, ArrowFree p.name)
    (hstep : e.Step s ed t) (h : ∀ {x c}, (copy g none).Ends x c → s.Ends x (s.boundary.getD c c))
    {x c : String} (hc : (copy g none).Ends x c) : t.Ends x (t.boundary.getD c c) := by
  cases hstep with
  | drop hok =>
    obtain ⟨src, hd, hdrop⟩ := Engine.dropped_of_drop hs hok
    rw [(border_eq_iff.1 hdrop.border).2.2]
    exact (h hc).dropped hd hdrop
  | merge hmem hfind hok =>
    obtain ⟨-, hf⟩ := Engine.fuses_of_merge hs (hp _ hmem) hfind hok
    have hmoved := (h hc).fuses hs.tracks hf
    obtain ⟨hm, hn, rfl⟩ := merge_ok_iff.1 hok
    have hout : c ∈ g.outs := NameSet.contains_ofList.1 hc.output
    rw [← fusedNode_name hn] at hm
    rw [hs.bordered.getD_contract hs.tracks hs.copied hm _ hout]
    exact hmoved

/-- After a run each output of the graph has a node that stands for it, which the boundary names. -/
lemma ends_runs {e : Engine} {trace : List (Sandbox × Edit)} (hg : g.Regular) (hp : ∀ p ∈ e.patterns, ArrowFree p.name)
    (hr : e.Runs (copy g none) trace t) :
    Edited g (copy g none) t ∧ ∀ {x c}, (copy g none).Ends x c → t.Ends x (t.boundary.getD c c) := by
  induction hr with
  | nil => exact ⟨.copy hg none, fun hc => hc⟩
  | snoc _ hstep ih => exact ⟨hstep.edited ih.1 hp, fun hc => ends_step ih.1 hp hstep ih.2 hc⟩

end Sandbox

namespace Network

variable {ok : Node → Prop} {l : Library} {n m k : Network} {g₀ : Graph}

lemma persistent_drained : Persistent fun _ => Drained where
  mono := fun _ h => h
  redressed := fun hr h => h.redressed hr
  effect := by
    intro l e g s t _ hs _ heff h
    cases heff with
    | dropped hd hdrop => exact h.dropped hs hd hdrop
    | fused _ hf => exact h.fuses hs.tracks hf

/-- The outputs of the new graph are those that the boundary names, in their places. -/
lemma Landing.outs_eq {d : Draft} {t : Sandbox} {layouts : Dict Layout} {g : Graph} (h : Landing n d t layouts g)
    (hnd : (n.graph.outs.map fun c => t.boundary.getD c c).Nodup) :
    g.outs = n.graph.outs.map fun c => t.boundary.getD c c := by
  rcases h.patched with ⟨hempty, rfl⟩ | ⟨-, dag, -, rfl⟩
  · -- nothing was removed, so nothing was replaced
    have hremoved : t.removedNodes = [] := by
      simp only [Patch.isEmpty, Bool.and_eq_true, List.isEmpty_iff, and_assoc] at hempty
      exact hempty.2.1
    have hself : ∀ c ∈ n.graph.outs, t.boundary.getD c c = c := by
      intro c hc
      have hkeeps : t.Keeps n.graph c := .inr ⟨h.edited.copied.regular.sound.outs c hc, hremoved ▸ List.not_mem_nil⟩
      exact Dict.getD_of_none (Dict.get?_eq_none_iff.2 fun hb => (h.edited.bordered.gone hb).2 hkeeps)
    rw [List.map_congr_left hself, List.map_id']
  · exact Graph.renameBoundary_eq hnd

/-! ### Outlets -/

/-- An output that no record lists stands for itself. -/
lemma eq_of_unlisted {g : Graph} {x c : String} (h : (copy g none).Ends x c) (hone : g.OneRecord)
    (hno : ∀ r ∈ g.merges, x ∉ r.members) : c = x := by
  have hx := h.owns.2
  rw [originals] at hx
  cases hr : (copy g none).merges.get? c with
  | none =>
    rw [hr] at hx
    exact (List.mem_singleton.1 hx).symm
  | some r =>
    rw [hr] at hx
    exact absurd hx (hno r ((get?_merges_copy hone).1 hr).1)

/-- The fused node of the record that lists an output stands for it. -/
lemma fused_of_listed {g : Graph} {x c : String} (h : (copy g none).Ends x c) (hg : g.Regular) (hone : g.OneRecord)
    (hex : Exclusive (copy g none)) {r : MergeRecord} (hr : r ∈ g.merges) (hx : x ∈ r.members) :
    c = r.fused ∧ r.members.getLast? = some x ∧ x ∈ r.keep := by
  have hget : (copy g none).merges.get? r.fused = some r := (get?_merges_copy hone).2 ⟨hr, rfl⟩
  have howns : (copy g none).Owns r.fused x := by
    rw [Owns, originals, hget, keys_copy_none]
    exact ⟨Digraph.hasVertex_iff.1 (hg.sound.merges r hr), hx⟩
  obtain rfl := hex h.owns howns
  exact ⟨rfl, h.last hget⟩

/-- The outputs of a graph are the nodes that nobody reads, and stand in their places for those there were at first. -/
structure Outlets (g₀ g : Graph) : Prop where
  exclusive : Exclusive (Sandbox.copy g none)
  drained : Drained (Sandbox.copy g none)
  ends : List.Forall₂ (Sandbox.copy g none).Ends g₀.outs g.outs

namespace Outlets

/-- The outlets of a graph do not depend on precisions and attributes. -/
lemma redressed {g g' : Graph} (h : Outlets g₀ g) (hr : Redressed (copy g none) (copy g' none))
    (houts : g'.outs = g.outs) : Outlets g₀ g' where
  exclusive := persistent_exclusive.redressed (l := {}) hr h.exclusive
  drained := persistent_drained.redressed (l := {}) hr h.drained
  ends := houts ▸ h.ends.imp fun _ _ hc => hc.redressed hr

/-- When a network is frozen its outputs stand for themselves. -/
lemma freeze (hc : Coherent ok l n) (hm : n.freeze = .ok m) : Outlets m.graph m.graph := by
  obtain ⟨hs, -, -, hf⟩ := hc.frozen hm
  have hsinks : Drained (copy m.graph none) := by
    intro c
    have hout : (copy m.graph none).outs.contains c ↔ c ∈ m.graph.outs := NameSet.contains_ofList
    rw [hout, hf.outs, List.mem_filter, keys_copy_none, List.isEmpty_iff, List.eq_nil_iff_forall_not_mem]
    simp only [hf.wellFormed.dag.mem_succs, hasArc_copy hf.wellFormed.dag]
    rfl
  refine ⟨exclusive_freeze hc hm, hsinks, List.forall₂_same.2 fun x hx => ?_⟩
  have hself : (copy m.graph none).Owns x x :=
    (owns_freeze hc hm).2 ⟨List.mem_of_mem_filter (hf.outs ▸ hx), rfl⟩
  refine ⟨hself, NameSet.contains_ofList.2 hx, fun {r} hr => ?_⟩
  rw [get?_merges_of_nil (hf.merges.trans (hc.unjoined hs).2.1)] at hr
  cases hr

/-- Each output moves to the node that the boundary names, and no two of them to the same. -/
lemma land {d : Draft} {t : Sandbox} {layouts : Dict Layout} {g : Graph} {fusion : Bool} (h : Outlets g₀ n.graph)
    (hc : Coherent ok l n) (hs : n.state ≠ .building) (hnd : g₀.outs.Nodup) (hd : Drafted n l fusion d)
    (hl : Landing n d t layouts g) : Outlets g₀ g := by
  have hr := hl.redressed hc.oneRecord
  obtain ⟨trace, hruns, -⟩ := hd.runs
  obtain ⟨-, hmoved⟩ := ends_runs (hc.regular hs) (arrowFree_engine hc.library n) hruns
  have hborder : t.boundary = d.sandbox.boundary := (border_eq_iff.1 hl.normalized.respells.border).2.2
  have hends : List.Forall₂ (copy g none).Ends g₀.outs (n.graph.outs.map fun c => t.boundary.getD c c) := by
    rw [List.forall₂_map_right_iff, hborder]
    exact h.ends.imp fun _ _ hx => (hmoved hx).redressed hr
  have hexclusive : Exclusive (copy g none) :=
    persistent_exclusive.redressed (l := l) hr (persistent_exclusive.drafted (hc.regular hs) hc.library hd h.exclusive)
  have hdrained : Drained (copy g none) :=
    persistent_drained.redressed (l := l) hr (persistent_drained.drafted (hc.regular hs) hc.library hd h.drained)
  refine ⟨hexclusive, hdrained, ?_⟩
  -- what stands for different outputs differs, so no place is lost when the outputs are renamed
  rw [hl.outs_eq ((List.rel_nodup (Ends.biUnique hexclusive) hends).1 hnd)]
  exact hends

/-- An optimization leaves the outputs in their places. -/
lemma optimize (h : Outlets g₀ n.graph) (hc : Coherent ok l n) (hs : n.state ≠ .building) (hnd : g₀.outs.Nodup)
    (fusion : Bool) (ord : RenameOrder) : Outlets g₀ (n.optimize l fusion ord).1.graph := by
  have ho := optimizes_optimize hc.regular hc.library fusion ord
  generalize n.optimize l fusion ord = r at ho
  cases ho with
  | unfrozen _ => exact h
  | diverges _ _ _ => exact h
  | lands _ hd hl =>
    cases hl with
    | illegible _ => exact h
    | stale _ _ => exact h
    | aborted _ _ _ _ => exact h
    | done _ hl _ _ _ =>
      have hland := h.land hc hs hnd hd hl
      cases fusion with
      | true => exact ⟨hland.exclusive, hland.drained, hland.ends⟩
      | false => exact hland

end Outlets

/-- Declared outputs survive all optimizations: the outputs of a later network are the nodes that nobody reads, each
once, and the one that stands where an operator stood when the network was frozen is that operator if no record lists
it, and else the fused node of the record that lists it, as the last of its members and one that is kept. -/
theorem outs_of_evolves (hr : Reached (fun _ => True) l n) (hm : n.freeze = .ok m) (he : Evolves m k) :
    k.graph.outs.Nodup ∧ (∀ c, c ∈ k.graph.outs ↔ k.graph.hasNode c ∧ k.graph.dag.succs c = []) ∧
      k.graph.outs.length = m.graph.outs.length ∧
      ∀ {i : Nat} {x : String}, m.graph.outs[i]? = some x → ∃ c, k.graph.outs[i]? = some c ∧
        ((∀ r ∈ k.graph.merges, x ∉ r.members) → c = x) ∧
        ∀ r ∈ k.graph.merges, x ∈ r.members → c = r.fused ∧ r.members.getLast? = some x ∧ x ∈ r.keep := by
  have hc := hr.coherent
  obtain ⟨-, hfrozen, -, hf⟩ := hc.frozen hm
  have hnd : m.graph.outs.Nodup := by
    rw [hf.outs]
    exact hf.wellFormed.dag.keys_nodup.filter _
  obtain ⟨hck, hs, hout⟩ := he.induct_graph (J := Outlets m.graph) (hc.freeze hm) (hfrozen ▸ State.noConfusion)
    (fun fusion ord hc hs h => h.optimize hc hs hnd fusion ord)
    (fun op _ hf h => h.redressed (Graph.redressed_updateNode _ op hf) rfl) (.freeze hc hm)
  have hg := hck.regular hs
  refine ⟨(List.rel_nodup (Ends.biUnique hout.exclusive) hout.ends).1 hnd, fun c => ?_, hout.ends.length_eq.symm,
    fun {i x} hx => ?_⟩
  · have hmem : c ∈ k.graph.outs ↔ (copy k.graph none).outs.contains c := NameSet.contains_ofList.symm
    rw [hmem, hout.drained, keys_copy_none, Graph.hasNode, Digraph.hasVertex_iff, List.eq_nil_iff_forall_not_mem]
    simp only [hg.dag.mem_succs, hasArc_copy hg.dag]
  · obtain ⟨hi, rfl⟩ := List.getElem?_eq_some_iff.1 hx
    have hi' : i < k.graph.outs.length := hout.ends.length_eq ▸ hi
    have hends : (copy k.graph none).Ends m.graph.outs[i] k.graph.outs[i] := hout.ends.get hi hi'
    refine ⟨_, List.getElem?_eq_getElem hi', fun hno => ?_, fun r hr hmem => ?_⟩
    · exact eq_of_unlisted hends hck.oneRecord hno
    · exact fused_of_listed hends hg hck.oneRecord hout.exclusive hr hmem

/-- A chain that is fused in two steps up to its end, beside an operator that stays with its consumer. -/
def twoEnds : List Node := [
  { name := "c", type := "conv", outputs := ["c0"] },
  { name := "r", type := "relu", inputs := ["c0"], outputs := ["r0"] },
  { name := "s", type := "softmax", inputs := ["r0"] },
  { name := "d", type := "dense", outputs := ["d0"] },
  { name := "z", type := "topk", inputs := ["d0"] }]

/-- The fused node of the second step stands where the end of its chain stood, and the other end stands where it did. -/
theorem outs_of_evolves_twoEnds :
    ∃ k r, Evolves (assemble twoEnds []) k ∧ (assemble twoEnds []).graph.outs = ["s", "z"] ∧
    k.graph.merges = [r] ∧ r.members = ["c", "r", "s"] ∧ k.graph.outs[0]? = some r.fused ∧ "s" ∈ r.keep ∧
    k.graph.outs[1]? = some "z" := by
  have hr : Reached (fun _ => True) .standard ((new "net" 0).declare twoEnds []) :=
    reached_declare (by decide) (by decide) _
  have hends : ∀ {n m k}, Reached (fun _ => True) .standard n → n.freeze = .ok m → Evolves m k →
    m.graph.outs = ["s", "z"] →
      k.graph.merges.map (·.members) = [["c", "r", "s"]] →
      ∃ k r, Evolves m k ∧ m.graph.outs = ["s", "z"] ∧ k.graph.merges = [r] ∧ r.members = ["c", "r", "s"] ∧
        k.graph.outs[0]? = some r.fused ∧ "s" ∈ r.keep ∧ k.graph.outs[1]? = some "z" := by
    intro n m k hr hm he houts hmerges
    obtain ⟨r, hmerges, hmembers⟩ := List.map_eq_singleton_iff.1 hmerges
    obtain ⟨-, -, -, hplaces⟩ := outs_of_evolves hr hm he
    rw [houts, hmerges] at hplaces
    obtain ⟨c, hc, -, hlisted⟩ := hplaces (i := 0) rfl
    obtain ⟨rfl, -, hkeep⟩ := hlisted r (List.mem_singleton_self r) (by rw [hmembers]; decide)
    obtain ⟨z, hz, hunlisted, -⟩ := hplaces (i := 1) rfl
    obtain rfl := hunlisted (by rw [List.forall_mem_singleton, hmembers]; decide)
    exact ⟨k, r, he, houts, hmerges, hmembers, hc, hkeep, hz⟩
  have hfirst : Library.standard.ArrowFree := by decide
  have hsecond : Library.ArrowFree ⟨[.chain "fused_crs" ["fused_cr", "softmax"]]⟩ := by decide
  exact hends hr rfl ((Evolves.refl.optimize hfirst true .ascending).optimize hsecond true .ascending)
    (by decide +kernel) (by decide +kernel)

/-- A chain whose fused node has a consumer. The edge to it has the same identifier as the one from `f->x` to `y`. -/
def severed : List Node := [
  { name := "p", type := "A", outputs := ["v"] },
  { name := "q", type := "B", inputs := ["v"], outputs := ["u"] },
  { name := "x->y", type := "C", inputs := ["u"] },
  { name := "f->x", type := "D", outputs := ["d"] },
  { name := "y", type := "E", inputs := ["d"] }]

/-- Names with arrows can make an edge vanish, so that nobody reads the fused node, which is no output. -/
theorem severed_outs : ∃ l m st, Library.ofList [.chain "f" ["A", "B"]] = .ok l ∧
    (assemble severed []).state = .frozen ∧
    (assemble severed []).optimize l true .ascending = (m, .done st) ∧ m.graph.hasNode "f" ∧
    m.graph.dag.succs "f" = [] ∧
    m.graph.outs = ["x->y", "y"] :=
  ⟨⟨[.chain "f" ["A", "B"]]⟩, _, { iterations := 2, fused := 1 }, by decide +kernel, by decide +kernel,
    optimize_eq_of_done? (by decide +kernel), by decide +kernel, by decide +kernel, by decide +kernel⟩

end Network

end OpGraph
