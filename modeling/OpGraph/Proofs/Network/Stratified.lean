import Mathlib
import OpGraph.Proofs.Fusion.Attributes
import OpGraph.Proofs.Fusion.Convergence
import OpGraph.Proofs.Network.Reached

/-!
# Optimizing with a stratified library

Where the name of no pattern is a type that is dropped or looked for, the second pass of the engine changes nothing. An
optimization then ends well, unless the note on a registered edge was lost on the way: then it aborts.
-/

namespace OpGraph.Network

open Sandbox

/-! ### Inputs and fused nodes -/

/-- Fused nodes have the names of patterns as their types, and an input of the boundary is a fused node or reads
nothing. -/
structure Rooted (l : Library) (s : Sandbox) : Prop where
  fused : ∀ {k n}, s.merges.contains k → s.node? k = some n → ∃ p ∈ l.patterns, n.type = p.name
  ins : ∀ {k}, s.ins.contains k → s.merges.contains k ∨ ∀ z, ¬ s.dag.hasArc z k

/-- Types and inputs do not depend on precisions and attributes. -/
lemma Rooted.redressed {l : Library} {s t : Sandbox} (hr : Redressed s t) (h : Rooted l s) : Rooted l t where
  fused := by
    intro k n hk hn
    obtain ⟨m, hm, he⟩ := hr.exists_node hn
    have htype : n.bare.type = m.bare.type := congrArg Node.type he
    obtain ⟨p, hp, hty⟩ := h.fused (hr.merges ▸ hk) hm
    exact ⟨p, hp, htype.trans hty⟩
  ins := by
    intro k hk
    rw [hr.merges]
    exact (h.ins (hr.ins ▸ hk)).imp_right fun hno z hz => hno z (hr.hasArc.1 hz)

/-- A drop leaves the types of fused nodes and what inputs read. -/
lemma Rooted.dropped {l : Library} {s t : Sandbox} (h : Rooted l s) {name : String} {src : Edge}
    (hd : Dropped s name src t) : Rooted l t where
  fused := by
    intro k n hk hn
    obtain ⟨v, hv, rfl⟩ := Option.map_eq_some_iff.1 hn
    obtain ⟨w, hw, htype⟩ := Engine.type_of_dropped hd hv
    rw [(records_eq_iff.1 hd.records).1] at hk
    obtain ⟨p, hp, hty⟩ := h.fused hk (Option.map_eq_some_iff.2 ⟨w, hw, rfl⟩)
    exact ⟨p, hp, htype.trans hty⟩
  ins := by
    intro k hk
    rw [(border_eq_iff.1 hd.border).1] at hk
    rw [(records_eq_iff.1 hd.records).1]
    refine (h.ins hk).imp_right fun hno z hz => ?_
    rcases hd.hasArc.1 hz with ⟨hz, -⟩ | ⟨-, hz⟩
    · exact hno z hz
    · exact hno name hz

/-- A merge gives the fused node the name of its pattern as its type. -/
lemma Rooted.fuses {l : Library} {s t : Sandbox} (h : Rooted l s) {p : Pattern} {members : List String} {n : Node}
    (hp : p ∈ l.patterns) (hf : Engine.Fuses s p members n t) : Rooted l t where
  fused := by
    intro k m hk hm
    obtain ⟨v, hv, rfl⟩ := Option.map_eq_some_iff.1 hm
    rw [hf.merged.vertex] at hv
    rw [Dict.contains_iff] at hk
    simp only [hf.merged.merges] at hk
    split at hv
    · cases hv
      obtain ⟨attrs, -, hnode⟩ := fusedNode_ok_iff.1 hf.node
      exact ⟨p, hp, by rw [hnode]⟩
    · rename_i hkn
      split at hv
      · cases hv
      · rename_i hmem
        rw [if_neg hkn, if_neg hmem] at hk
        exact h.fused (Dict.contains_iff.2 hk) (Option.map_eq_some_iff.2 ⟨v, hv, rfl⟩)
  ins := by
    intro k hk
    rw [Dict.contains_iff]
    simp only [hf.merged.merges]
    by_cases hkn : k = n.name
    · exact .inl ⟨_, if_pos hkn⟩
    · rcases (hf.merged.ins k).1 hk with ⟨hk, hmem⟩ | ⟨hk, -⟩
      · rw [if_neg hkn, if_neg hmem, ← Dict.contains_iff]
        refine (h.ins hk).imp_right fun hno z hz => ?_
        obtain ⟨z', hz', -⟩ := (hf.hasArc_iff_of_not_mem hmem hkn).1 hz
        exact hno z' hz'
      · exact absurd hk hkn

lemma persistent_rooted : Persistent Rooted where
  mono := fun hl h => ⟨fun hk hn => (h.fused hk hn).imp fun p ⟨hp, hty⟩ => ⟨hl p hp, hty⟩, h.ins⟩
  redressed := Rooted.redressed
  effect := by
    intro l e g s t hl _ _ heff h
    cases heff with
    | dropped _ hd => exact h.dropped hd
    | fused hp hf => exact h.fuses (hl _ hp) hf

/-- A copy has the edges of the graph. -/
lemma hasArc_copy {g : Graph} (wf : g.dag.WellFormed) {x y : String} :
    (Sandbox.copy g none).dag.hasArc x y ↔ g.dag.hasArc x y := by
  rw [Digraph.hasArc_iff, Digraph.hasArc_iff, arcs_copy_none]
  exact exists_congr fun a => and_congr_left fun _ => wf.mem_arcsBySource

/-- A frozen network has no fused nodes, and its inputs read nothing. -/
lemma rooted_freeze {ok : Node → Prop} {l : Library} {n m : Network} (hc : Coherent ok l n) (he : n.freeze = .ok m) :
    Rooted l (Sandbox.copy m.graph none) := by
  obtain ⟨hs, -, -, hf⟩ := hc.frozen he
  have hmerges : m.graph.merges = [] := hf.merges.trans (hc.unjoined hs).2.1
  refine ⟨fun {k v} hk => ?_, fun {k} hk => .inr fun z hz => ?_⟩
  · obtain ⟨r, hr⟩ := Dict.contains_iff.1 hk
    have hone := (hc.freeze he).oneRecord
    have hmem := ((get?_merges_copy hone).1 hr).1
    rw [hmerges] at hmem
    cases hmem
  · exact hf.ins (NameSet.contains_ofList.1 hk) z ((hasArc_copy hf.wellFormed.dag).1 hz)

/-! ### The optimization -/

section Stratified

variable {ok : Node → Prop} {l : Library} {n : Network}

/-- An engine whose library is stratified is stratified. -/
lemma stratified_engine (h : l.Stratified (n.engine l).elided) : (n.engine l).Stratified := fun p hp =>
  ⟨(h p (Library.mem_byPriority.1 hp)).1, fun q hq =>
    (h p (Library.mem_byPriority.1 hp)).2 q (Library.mem_byPriority.1 hq)⟩

/-- An engine whose cap is not one makes two passes at least. -/
lemma two_le_passes (h : n.cap ≤ 0 ∨ 2 ≤ n.cap) : 2 ≤ (n.engine l).passes := by
  unfold Engine.passes engine
  split
  · decide
  · dsimp only at *
    omega

/-- A sandbox that refers to nodes that are there can lose nothing but notes on registered edges. -/
lemma dangles_iff {g : Graph} {s : Sandbox} (hs : Engine.Grounded s) : s.Dangles g ↔ s.LosesEdge g := by
  have hkeeps : ∀ {k}, k ∈ s.dag.keys → s.Keeps g k := fun hk => .inl (Digraph.hasVertex_iff.2 hk)
  constructor
  · rintro (he | ⟨k, hk, hno⟩ | ⟨k, hk, hno⟩)
    · exact he
    · exact absurd (hkeeps (hs.ins (Dict.mem_keys.1 hk))) hno
    · exact absurd (hkeeps (hs.merges (Dict.mem_keys.1 hk))) hno
  · exact .inl

/-- An engine with a stratified library ends well on a network that was reached. -/
lemma run_engine_of_stratified (h : Reached ok l n) (hs : n.state ≠ .building)
    (hstr : l.Stratified (n.engine l).elided) (hcap : n.cap ≤ 0 ∨ 2 ≤ n.cap) :
    ∃ s st, (n.engine l).run (Sandbox.copy n.graph none) = ((s, st), none) ∧ st.iterations ≤ 2 ∧
      Edited n.graph (Sandbox.copy n.graph none) s ∧ Engine.Grounded s := by
  have hc := h.coherent
  have hg := hc.regular hs
  have hrooted := persistent_rooted.reached rooted_freeze h hs
  have htype : ∀ {k v}, (Sandbox.copy n.graph none).merges.contains k →
    (Sandbox.copy n.graph none).dag.vertex? k = some v →
      v.val.type ∉ (n.engine l).elided := by
    intro k v hk hv hel
    obtain ⟨p, hp, hty⟩ := hrooted.fused hk (Option.map_eq_some_iff.2 ⟨v, hv, rfl⟩)
    exact (hstr p hp).1 (hty ▸ hel)
  refine Engine.run_of_stratified (Edited.copy hg none) (arrowFree_engine hc.library n) (stratified_engine hstr)
    (two_le_passes hcap) ⟨fun {k} hk => ?_, fun {k} hk => ?_⟩ (fun {k v} hk hv hel x hx => ?_) htype
  · rw [keys_copy_none]
    exact Digraph.hasVertex_iff.1 (hg.sound.ins k (NameSet.contains_ofList.1 hk))
  · obtain ⟨r, hr⟩ := Dict.contains_iff.1 hk
    obtain ⟨hmem, rfl⟩ := (get?_merges_copy hc.oneRecord).1 hr
    rw [keys_copy_none]
    exact Digraph.hasVertex_iff.1 (hg.sound.merges r hmem)
  · rcases hrooted.ins hk with hm | hno
    · exact htype hm hv hel
    · exact hno x ((hx.source x).2 rfl)

/-- The pins of a draft can be read if those of the network can. -/
lemma Drafted.legible {fusion : Bool} {d : Draft} (hd : Drafted n l fusion d) (hg : n.graph.Regular) (hl : l.ArrowFree)
    (hleg : ∀ v ∈ n.graph.nodes, Legible v) : ∀ v ∈ d.sandbox.nodes, Legible v := by
  obtain ⟨trace, hruns, -⟩ := hd.runs
  obtain ⟨hedited, hall⟩ := hruns.induct_effect (P := fun s => ∀ {k v}, s.node? k = some v → Legible v)
    (Edited.copy hg none) (arrowFree_engine hl n)
    (fun {k v} hv => by
      rw [node?_copy] at hv
      exact hleg v (hg.wellFormed.mem_nodes_iff.2 (by rwa [hg.wellFormed.name_of_node? hv])))
    fun s t _ _ hs heff {k v} hv => heff.legible hs hv
  intro v hv
  obtain ⟨w, hw, he⟩ := (Engine.mem_nodes_iff hedited).1 hv
  exact hall (Option.map_eq_some_iff.2 ⟨w, hw, he⟩)

/-- With a stratified library, a cap of none or two at least and pins that can be read, the engine ends well after two
passes at most. The optimization then is done, unless a registered edge was lost: then it aborts. -/
theorem optimize_of_stratified (h : Reached (fun _ => True) l n) (hs : n.state ≠ .building)
    (hstr : l.Stratified (n.engine l).elided) (hcap : n.cap ≤ 0 ∨ 2 ≤ n.cap)
    (hleg : ∀ v ∈ n.graph.nodes, Legible v) :
    ∃ s st, (n.engine l).run (Sandbox.copy n.graph none) = ((s, st), none) ∧ st.iterations ≤ 2 ∧
      ∀ ord : RenameOrder, (¬ s.LosesEdge n.graph → ∃ m, n.optimize l true ord = (m, .done st)) ∧
        (s.LosesEdge n.graph → ∃ e message, n.optimize l true ord = (n, .failed st e) ∧
        e.toFault = .abort message) := by
  have hc := h.coherent
  have hg := hc.regular hs
  obtain ⟨s, st, hrun, hit, hedited, hground⟩ := run_engine_of_stratified h hs hstr hcap
  refine ⟨s, st, hrun, hit, fun ord => ?_⟩
  have ho := optimizes_optimize hc.regular hc.library true ord
  generalize n.optimize l true ord = r at ho
  cases ho with
  | unfrozen hb => exact absurd hb hs
  | diverges _ _ hrun' =>
    rw [hrun] at hrun'
    cases hrun'
  | @lands d _ _ hd hl =>
    obtain ⟨rfl, rfl⟩ := hd.eq_of_run_eq hrun
    cases hl with
    | illegible hno => exact absurd (hd.legible hg hc.library hleg) hno
    | stale _ he => exact absurd hd.epoch.symm he
    | aborted _ hn hdangles hf =>
      have hloses := (dangles_iff hground).1 ((dangles_respells hedited hn.edited hn.respells).1 hdangles)
      exact ⟨fun hno => absurd hloses hno, fun _ => ⟨_, _, rfl, hf⟩⟩
    | done _ hl _ _ _ =>
      have hwhole := mt (dangles_respells hedited hl.edited hl.normalized.respells).2 hl.whole
      exact ⟨fun _ => ⟨_, rfl⟩, fun h => absurd ((dangles_iff hground).2 h) hwhole⟩

end Stratified

/-- Of the edges that become one when the chains of `shortcut` are fused, the registered one is not lost. -/
theorem optimize_of_stratified_shortcut : ∃ m st, st.iterations ≤ 2 ∧
    (assemble shortcut [("u", "a")]).optimize .standard true .ascending = (m, .done st) := by
  obtain ⟨s, st, hrun, hit, hends⟩ := optimize_of_stratified (reached_shortcut [("u", "a")]) (by decide +kernel)
    (by decide) (.inr (by decide +kernel)) (by decide +kernel)
  have hs : s = (((assemble shortcut [("u", "a")]).engine .standard).run (Sandbox.copy _ none)).1.1 :=
    (congrArg (·.1.1) hrun).symm
  obtain ⟨m, hm⟩ := (hends .ascending).1 (by
    rw [hs]
    decide +kernel)
  exact ⟨m, st, hit, hm⟩

/-- If the shortcut is registered, then it is lost, although the standard library is stratified. -/
theorem stratified_shortcut_aborts : Reached (fun _ => True) .standard (assemble shortcut [("u", "b")]) ∧
    (assemble shortcut [("u", "b")]).state = .frozen ∧
    Library.standard.Stratified ((assemble shortcut [("u", "b")]).engine .standard).elided ∧
    2 ≤ (assemble shortcut [("u", "b")]).cap ∧ (∀ v ∈ (assemble shortcut [("u", "b")]).graph.nodes, Legible v) ∧
    ((assemble shortcut [("u", "b")]).optimize .standard true .ascending).2.Aborts :=
  ⟨reached_shortcut _, rfl, by decide, by decide +kernel, by decide +kernel, by decide +kernel⟩

end OpGraph.Network
