import Mathlib
import OpGraph.Proofs.Fusion.Matching

/-!
# What a step of a run leaves behind

A step drops a node or merges a chain. What could be dropped or merged after it and has no part in it could be dropped
or merged before.
-/

namespace OpGraph

variable {x y k d fused : String} {p : Pattern} {members : List String} {n : Node}

/-! ### Look-ups -/

/-- The consumers of a vertex that has one consumer only. -/
lemma Digraph.WellFormed.succs_eq_singleton {α β : Type} {g : Digraph α β} (wf : g.WellFormed)
    (hxy : g.hasArc x y) (h : ∀ z, g.hasArc x z → z = y) : g.succs x = [y] := by
  have hperm : (g.succs x).Perm [y] := by
    refine (List.perm_ext_iff_of_nodup (wf.succs_nodup x) (List.nodup_singleton y)).2 fun z => ?_
    rw [wf.mem_succs, List.mem_singleton]
    exact ⟨h z, fun hz => hz ▸ hxy⟩
  exact List.perm_singleton.1 hperm

/-- A vertex has as many producers as in another graph if they were moved and stay different. -/
lemma Digraph.WellFormed.inDegree_eq_of_preds {α β : Type} {g g' : Digraph α β} (wf' : g'.WellFormed)
    (wf : g.WellFormed) (f : String → String) (hinj : ∀ x y, g.hasArc x k → g.hasArc y k → f x = f y → x = y)
    (h : ∀ x, g'.hasArc x k ↔ ∃ x', g.hasArc x' k ∧ f x' = x) : g'.inDegree k = g.inDegree k := by
  have hperm : (g'.preds k).Perm ((g.preds k).map f) := by
    refine (List.perm_ext_iff_of_nodup (wf'.preds_nodup k) ?_).2 fun x => ?_
    · exact (wf.preds_nodup k).map_on fun x hx y hy => hinj x y (wf.mem_preds.1 hx) (wf.mem_preds.1 hy)
    · simp only [wf'.mem_preds, wf.mem_preds, List.mem_map]
      exact h x
  rw [Digraph.inDegree, hperm.length_eq, List.length_map, Digraph.inDegree]

namespace Sandbox

/-- A node that can be dropped, by the one node that feeds it. -/
structure Passable (s : Sandbox) (d x : String) : Prop where
  live : d ∈ s.dag.keys
  notOutput : ¬ s.outs.contains d
  source : ∀ z, s.dag.hasArc z d ↔ z = x
  unregistered : ¬ s.registered.contains (EdgeId.arc x d)
  consumers : ∀ y, s.dag.hasArc d y → ¬ s.registered.contains (EdgeId.arc d y) ∧ ¬ s.dag.hasArc x y

namespace Tracks

variable {g : Graph} {o s t : Sandbox}

/-- The identifier of an edge names its ends. -/
lemma id_of_mem (h : Tracks g o s) {a : Arc Edge} (ha : a ∈ s.dag.arcs) : a.val.id = EdgeId.arc a.src a.dst := by
  rw [Edge.id, (h.payload a ha).1, (h.payload a ha).2]

end Tracks

namespace Edited

variable {g : Graph} {s : Sandbox}

/-- A node that can be dropped can be passed by from its producer. -/
lemma passable_of_droppable (h : Edited g (Sandbox.copy g none) s) {src : Edge} (hd : s.Droppable d src) :
    s.Passable d src.src := by
  have hs := h.tracks
  obtain ⟨hsrc, hdst⟩ := hs.mem_inEdges.1 (hd.source ▸ List.mem_singleton_self src)
  refine ⟨hd.live, hd.notOutput, fun z => hs.hasArc_source hd, ?_, fun y hy => ?_⟩
  · have hid : src.id = EdgeId.arc src.src d := by rw [Edge.id, hdst]
    exact hid ▸ hd.unregistered
  · obtain ⟨a, ha, rfl, rfl⟩ := Digraph.hasArc_iff.1 hy
    have hmem : a.val ∈ s.outEdges a.src := List.mem_map_of_mem (hs.wellFormed.mem_outArcs.2 ⟨ha, rfl⟩)
    obtain ⟨-, hreg, harc⟩ := hd.consumers _ hmem
    exact ⟨hs.id_of_mem ha ▸ hreg, (hs.payload a ha).2 ▸ harc⟩

/-- A node can be dropped exactly if it can be passed by. -/
lemma exists_droppable_iff (h : Edited g (Sandbox.copy g none) s) :
    (∃ src, s.Droppable d src) ↔ ∃ x, s.Passable d x := by
  have hs := h.tracks
  constructor
  · rintro ⟨src, hd⟩
    exact ⟨src.src, h.passable_of_droppable hd⟩
  · rintro ⟨x, hd⟩
    obtain ⟨a, ha, rfl, rfl⟩ := Digraph.hasArc_iff.1 ((hd.source x).2 rfl)
    have hpreds : s.dag.preds a.dst = [a.src] := by
      refine List.perm_singleton.1 ((List.perm_ext_iff_of_nodup (hs.wellFormed.preds_nodup _)
        (List.nodup_singleton _)).2 fun z => ?_)
      rw [hs.wellFormed.mem_preds, List.mem_singleton]
      exact hd.source z
    have hin : s.dag.inArcs a.dst = [a] := by
      have hlength : (s.dag.inArcs a.dst).length = 1 := by
        rw [← hs.wellFormed.inDegree_eq, Digraph.inDegree, hpreds, List.length_singleton]
      obtain ⟨b, hb⟩ := List.length_eq_one_iff.1 hlength
      have hmem := hs.wellFormed.mem_inArcs.2 ⟨ha, rfl⟩
      rw [hb, List.mem_singleton] at hmem
      rw [hb, hmem]
    refine ⟨a.val, h.isOpen, hd.live, h.not_anchor _, hd.notOutput, by rw [inEdges, hin]; rfl, ?_, fun e he => ?_⟩
    · rw [isRegistered, hs.id_of_mem ha]
      exact hd.unregistered
    · obtain ⟨hmem, hsrc⟩ := hs.mem_outEdges.1 he
      have harc : s.dag.hasArc a.dst e.dst := hsrc ▸ Digraph.hasArc_of_mem hmem
      obtain ⟨hreg, hno⟩ := hd.consumers e.dst harc
      refine ⟨h.not_anchor _, ?_, (hs.payload a ha).1 ▸ hno⟩
      rw [isRegistered, Edge.id, hsrc]
      exact hreg

end Edited

lemma Dropped.mem_keys {s t : Sandbox} {name : String} {src : Edge} (h : Dropped s name src t) :
    k ∈ t.dag.keys ↔ k ∈ s.dag.keys ∧ k ≠ name := by
  rw [← Digraph.hasVertex_iff, ← Digraph.hasVertex_iff, Digraph.hasVertex, Digraph.hasVertex, h.vertex]
  by_cases hk : k = name
  · simp [hk]
  · rw [if_neg hk]
    split <;> simp [hk]

/-- Whether attributes go together depends on the members only and on which of them are fused. -/
lemma fusedAttrs_congr {s t : Sandbox} {names : List String} (hnode : ∀ m ∈ names, t.node? m = s.node? m)
    (hfused : ∀ m ∈ names, ∀ n, s.node? m = some n → t.merges.contains n.name = s.merges.contains n.name) :
    t.fusedAttrs names = s.fusedAttrs names := by
  have hnodes : t.nodesOf names = s.nodesOf names := List.filterMap_congr hnode
  unfold fusedAttrs
  rw [hnodes]
  refine foldlM_congr fun attrs n hn => ?_
  obtain ⟨m, hm, hmn⟩ := List.mem_filterMap.1 hn
  rw [adoptMember, adoptMember, hfused m hm n hmn]

end Sandbox

namespace Engine

open Sandbox

/-- What merging the chain that a pattern found leaves behind. -/
structure Fuses (s : Sandbox) (p : Pattern) (members : List String) (n : Node) (t : Sandbox) : Prop where
  chain : Chain s p.ops members
  contractible : s.Contractible members n.name
  node : s.fusedNode members n.name p.name = .ok n
  merged : Merged s members n (s.provenance members n.name p.name) t

/-- What a step of a run leaves behind. -/
inductive Effect (e : Engine) (s t : Sandbox) : Prop where
  | dropped {name : String} {src : Edge} (hd : s.Droppable name src) (h : Dropped s name src t) : Effect e s t
  | fused {p : Pattern} {members : List String} {n : Node} (hp : p ∈ e.patterns) (h : Fuses s p members n t) :
      Effect e s t

section Effects

variable {g : Graph} {e : Engine} {s t : Sandbox}

/-- A drop that succeeds does what it should. -/
lemma dropped_of_drop (hs : Edited g (Sandbox.copy g none) s) {name : String} (hok : s.drop name = .ok t) :
    ∃ src, s.Droppable name src ∧ Dropped s name src t := by
  obtain ⟨src, hd, rfl⟩ := drop_ok_iff.1 hok
  exact ⟨src, hd, hs.dropped_drop hd⟩

/-- A merge of the chain that a pattern found does what it should. -/
lemma fuses_of_merge (hs : Edited g (Sandbox.copy g none) s) (haf : ArrowFree p.name) {head : String}
    (hfind : Engine.find s head p = .chain members)
    (hok : s.merge members (s.uniqueName p.name) p.name p.name = .ok (t, n)) :
    members.head? = some head ∧ Fuses s p members n t := by
  obtain ⟨hm, hn, rfl⟩ := merge_ok_iff.1 hok
  obtain ⟨hhead, hc⟩ := (find_eq_chain_iff (ops_ne_nil hfind hm.two)).1 hfind
  have hname := fusedNode_name hn
  have hmerged := hs.merged_contract (hname ▸ hm) (hname ▸ arrowFree_uniqueName haf)
    (s.provenance members n.name p.name)
  exact ⟨hhead, hc, hname ▸ hm, hname ▸ hn, hname ▸ hmerged⟩

/-- A step does what it should. -/
lemma Step.effect {ed : Edit} (h : e.Step s ed t) (hs : Edited g (Sandbox.copy g none) s)
    (hp : ∀ p ∈ e.patterns, ArrowFree p.name) : Effect e s t := by
  cases h with
  | drop hok =>
    obtain ⟨src, hd, h⟩ := dropped_of_drop hs hok
    exact .dropped hd h
  | merge hmem hfind hok => exact .fused hmem (fuses_of_merge hs (hp _ hmem) hfind hok).2

lemma Step.edited {ed : Edit} (h : e.Step s ed t) {o : Sandbox} (hs : Edited g o s)
    (hp : ∀ p ∈ e.patterns, ArrowFree p.name) : Edited g o t :=
  hs.edit (h.arrowFree hp) h.edit_ok

/-- What the effects of steps preserve is preserved by a sequence of steps. -/
lemma Runs.induct_effect {trace : List (Sandbox × Edit)} {P : Sandbox → Prop} (h : e.Runs s trace t)
    (hs : Edited g (Sandbox.copy g none) s) (hp : ∀ p ∈ e.patterns, ArrowFree p.name) (base : P s)
    (step : ∀ s t, Edited g (Sandbox.copy g none) s → Edited g (Sandbox.copy g none) t → P s → Effect e s t → P t) :
    Edited g (Sandbox.copy g none) t ∧ P t := by
  induction h with
  | nil => exact ⟨hs, base⟩
  | snoc _ hstep ih => exact ⟨hstep.edited ih.1 hp, step _ _ ih.1 (hstep.edited ih.1 hp) ih.2 (hstep.effect ih.1 hp)⟩

end Effects

/-! ### Merges of chains -/

namespace Fuses

variable {g : Graph} {o s t : Sandbox} {p : Pattern} {members : List String} {n : Node}

/-- The name of a fused node is new. -/
lemma name_fresh (h : Fuses s p members n t) (hs : Tracks g o s) : n.name ∉ s.dag.keys :=
  fun hk => h.contractible.free (hs.live_taken _ hk)

/-- The name of a fused node is none of its members. -/
lemma name_not_mem (h : Fuses s p members n t) (hs : Tracks g o s) : n.name ∉ members :=
  fun hm => h.name_fresh hs (h.contractible.live _ hm)

/-- The node that a node becomes part of. -/
def place (members : List String) (fused x : String) : String :=
  if x ∈ members then fused else x

/-- Members are moved to the fused node. -/
lemma place_of_mem (h : x ∈ members) : place members fused x = fused :=
  if_pos h

/-- Nodes outside the chain stay where they are. -/
lemma place_of_not_mem (h : x ∉ members) : place members fused x = x :=
  if_neg h

/-- A node that is not moved to the fused node is not in the chain. -/
lemma eq_of_place_ne (h : place members fused x = y) (hne : y ≠ fused) : x = y ∧ x ∉ members := by
  by_cases hx : x ∈ members
  · exact absurd (h.symm.trans (place_of_mem hx)) hne
  · exact ⟨(place_of_not_mem hx).symm.trans h, hx⟩

/-- Nodes that are not moved to one place are not both in the chain. -/
lemma not_both (h : place members fused x ≠ place members fused y) : ¬ (x ∈ members ∧ y ∈ members) := fun hb =>
  h ((place_of_mem hb.1).trans (place_of_mem hb.2).symm)

/-- An edge that is not inside the chain is moved to where its ends are. -/
lemma hasArc_place (h : Fuses s p members n t) (hxy : s.dag.hasArc x y)
    (hn : ¬ (x ∈ members ∧ y ∈ members)) : t.dag.hasArc (place members n.name x) (place members n.name y) := by
  rw [h.merged.hasArc]
  by_cases hx : x ∈ members <;> by_cases hy : y ∈ members
  · exact absurd ⟨hx, hy⟩ hn
  · rw [place_of_mem hx, place_of_not_mem hy]
    exact .inr (.inr ⟨rfl, hy, x, hx, hxy⟩)
  · rw [place_of_not_mem hx, place_of_mem hy]
    exact .inr (.inl ⟨hx, rfl, y, hy, hxy⟩)
  · rw [place_of_not_mem hx, place_of_not_mem hy]
    exact .inl ⟨hx, hy, hxy⟩

/-- Every edge was moved from somewhere. -/
lemma exists_of_hasArc (h : Fuses s p members n t) (hxy : t.dag.hasArc x y) :
    ∃ x' y', s.dag.hasArc x' y' ∧ ¬ (x' ∈ members ∧ y' ∈ members) ∧ place members n.name x' = x ∧
      place members n.name y' = y := by
  rcases h.merged.hasArc.1 hxy with ⟨hx, hy, hxy⟩ | ⟨hx, rfl, m, hm, hxm⟩ | ⟨rfl, hy, m, hm, hmy⟩
  · exact ⟨x, y, hxy, fun hxy => hx hxy.1, place_of_not_mem hx, place_of_not_mem hy⟩
  · exact ⟨x, m, hxm, fun hxy => hx hxy.1, place_of_not_mem hx, place_of_mem hm⟩
  · exact ⟨m, y, hmy, fun hxy => hy hxy.2, place_of_mem hm, place_of_not_mem hy⟩

/-- A registered edge that is not inside the chain stays registered where it is moved to. -/
lemma registered_place (h : Fuses s p members n t) (hs : Tracks g o s) (haf : ArrowFree n.name)
    (hxy : s.dag.hasArc x y) (hreg : s.registered.contains (EdgeId.arc x y)) (hn : ¬ (x ∈ members ∧ y ∈ members)) :
    t.registered.contains (EdgeId.arc (place members n.name x) (place members n.name y)) := by
  have hx' : ArrowFree x := hs.arrowFree_live (Digraph.hasVertex_iff.1 (hs.wellFormed.hasVertex_src hxy))
  have hfm := h.name_not_mem hs
  by_cases hx : x ∈ members <;> by_cases hy : y ∈ members
  · exact absurd ⟨hx, hy⟩ hn
  · rw [place_of_mem hx, place_of_not_mem hy, h.merged.registered haf hfm hy]
    exact .inr (.inr ⟨rfl, x, hx, hxy, hreg⟩)
  · rw [place_of_not_mem hx, place_of_mem hy, h.merged.registered hx' hx hfm]
    exact .inr (.inl ⟨rfl, y, hy, hxy, hreg⟩)
  · rw [place_of_not_mem hx, place_of_not_mem hy, h.merged.registered hx' hx hy]
    exact .inl hreg

/-- Two producers of a node outside the chain stay different, for only the last member can be one of them. -/
lemma place_inj (h : Fuses s p members n t) (hs : Tracks g o s) (hk : k ∉ members)
    (hx : s.dag.hasArc x k) (hy : s.dag.hasArc y k) (hxy : place members n.name x = place members n.name y) :
    x = y := by
  have hfresh : ∀ {z}, s.dag.hasArc z k → z ≠ n.name := by
    rintro z hz rfl
    exact h.name_fresh hs (Digraph.hasVertex_iff.1 (hs.wellFormed.hasVertex_src hz))
  by_cases hxm : x ∈ members <;> by_cases hym : y ∈ members
  · have hlx := h.chain.last_of_outbound hs.wellFormed hxm hk hx
    have hly := h.chain.last_of_outbound hs.wellFormed hym hk hy
    exact Option.some.inj (hlx.symm.trans hly)
  · rw [place_of_mem hxm, place_of_not_mem hym] at hxy
    exact absurd hxy.symm (hfresh hy)
  · rw [place_of_not_mem hxm, place_of_mem hym] at hxy
    exact absurd hxy (hfresh hx)
  · rwa [place_of_not_mem hxm, place_of_not_mem hym] at hxy

/-- The producers of a node outside the chain are where its producers were moved to. -/
lemma hasArc_iff_of_not_mem (h : Fuses s p members n t) (hk : k ∉ members) (hkn : k ≠ n.name) :
    t.dag.hasArc x k ↔ ∃ x', s.dag.hasArc x' k ∧ place members n.name x' = x := by
  constructor
  · intro hx
    obtain ⟨x', y', hxy, -, rfl, hy⟩ := h.exists_of_hasArc hx
    have hy' : y' ∉ members := fun hy' => hkn (by rw [← hy, place_of_mem hy'])
    rw [place_of_not_mem hy'] at hy
    exact ⟨x', hy ▸ hxy, rfl⟩
  · rintro ⟨x', hx', rfl⟩
    have := h.hasArc_place hx' fun hboth => hk hboth.2
    rwa [place_of_not_mem hk] at this

/-- A node outside the chain has as many producers as before. -/
lemma inDegree_eq (h : Fuses s p members n t) (hs : Tracks g o s) (ht : Tracks g o t) (hk : k ∉ members)
    (hkn : k ≠ n.name) : t.dag.inDegree k = s.dag.inDegree k := by
  refine ht.wellFormed.inDegree_eq_of_preds hs.wellFormed (place members n.name)
    (fun x y hx hy hxy => h.place_inj hs hk hx hy hxy) ?_
  exact fun x => h.hasArc_iff_of_not_mem hk hkn

/-- What is found under the name of a node outside the chain stays as it is. -/
lemma vertex?_eq (h : Fuses s p members n t) (hk : k ∉ members) (hkn : k ≠ n.name) :
    t.dag.vertex? k = s.dag.vertex? k := by
  rw [h.merged.vertex, if_neg hkn, if_neg hk]

/-- A node outside the chain stays as it is. -/
lemma node?_eq (h : Fuses s p members n t) (hk : k ∉ members) (hkn : k ≠ n.name) : t.node? k = s.node? k := by
  rw [node?, Digraph.val?, h.vertex?_eq hk hkn]
  rfl

lemma mem_keys (h : Fuses s p members n t) : k ∈ t.dag.keys ↔ k = n.name ∨ k ∈ s.dag.keys ∧ k ∉ members := by
  rw [← Digraph.hasVertex_iff, ← Digraph.hasVertex_iff, Digraph.hasVertex, Digraph.hasVertex, h.merged.vertex]
  by_cases hkn : k = n.name
  · simp [hkn]
  · by_cases hk : k ∈ members <;> simp [hkn, hk]

/-- What is there after a merge is no member. -/
lemma not_mem_of_live (h : Fuses s p members n t) (hs : Tracks g o s) (hk : k ∈ t.dag.keys) : k ∉ members := by
  rcases h.mem_keys.1 hk with rfl | ⟨-, hk⟩
  · exact h.name_not_mem hs
  · exact hk

/-- Whether a node outside the chain is an output does not change. -/
lemma outs_iff (h : Fuses s p members n t) (hk : k ∉ members) (hkn : k ≠ n.name) :
    t.outs.contains k ↔ s.outs.contains k := by
  rw [h.merged.outs]
  simp [hk, hkn]

/-- What the last member feeds is not in the chain. -/
lemma not_mem_of_last (h : Fuses s p members n t) (hs : Tracks g o s) (hl : members.getLast? = some x)
    (hxy : s.dag.hasArc x y) : y ∉ members := by
  intro hy
  have hpath := (h.chain.paths hs.wellFormed hl).2 y hy
  exact hs.acyclic x (.head' (show s.dag.Adj x y from hxy) hpath)

/-- An edge between the last member and another node leads out of the chain. -/
lemma not_both_of_last (h : Fuses s p members n t) (hs : Tracks g o s) (hd : d ∉ members)
    (hxd : s.dag.hasArc x d) (hxy : s.dag.hasArc x y) : ¬ (x ∈ members ∧ y ∈ members) := by
  rintro ⟨hx, hy⟩
  exact h.not_mem_of_last hs (h.chain.last_of_outbound hs.wellFormed hx hd hxd) hxy hy

end Fuses

/-! ### What could be done before -/

section Persistence

variable {g : Graph} {s t : Sandbox}

/-- What could be dropped after the merge of a chain could be dropped before. -/
lemma Fuses.passable (hs : Edited g (Sandbox.copy g none) s)     (h : Fuses s p members n t) (haf : ArrowFree n.name)
    (hd : d ∈ s.dag.keys) (ht : t.Passable d x) :
    ∃ x', s.Passable d x' := by
  have hkn : d ≠ n.name := fun heq => h.name_fresh hs.tracks (heq ▸ hd)
  have hdm : d ∉ members := by
    rcases h.mem_keys.1 ht.live with heq | ⟨-, hdm⟩
    · exact absurd heq hkn
    · exact hdm
  obtain ⟨x', hx', rfl⟩ := (h.hasArc_iff_of_not_mem hdm hkn).1 ((ht.source x).2 rfl)
  have hxd : ¬ (x' ∈ members ∧ d ∈ members) := fun hboth => hdm hboth.2
  refine ⟨x', hd, fun ho => ht.notOutput ((h.outs_iff hdm hkn).2 ho), fun z => ⟨fun hz => ?_, ?_⟩, fun hreg => ?_,
    fun y hy => ⟨fun hreg => ?_, fun hxy => ?_⟩⟩
  · have := (ht.source _).1 ((h.hasArc_iff_of_not_mem hdm hkn).2 ⟨z, hz, rfl⟩)
    exact h.place_inj hs.tracks hdm hz hx' this
  · rintro rfl
    exact hx'
  · have := h.registered_place hs.tracks haf hx' hreg hxd
    rw [Fuses.place_of_not_mem hdm] at this
    exact ht.unregistered this
  · have hdy : ¬ (d ∈ members ∧ y ∈ members) := fun hboth => hdm hboth.1
    have harc := h.hasArc_place hy hdy
    have hreg := h.registered_place hs.tracks haf hy hreg hdy
    rw [Fuses.place_of_not_mem hdm] at harc hreg
    exact (ht.consumers _ harc).1 hreg
  · have hdy : ¬ (d ∈ members ∧ y ∈ members) := fun hboth => hdm hboth.1
    have harc := h.hasArc_place hy hdy
    rw [Fuses.place_of_not_mem hdm] at harc
    exact (ht.consumers _ harc).2 (h.hasArc_place hxy (h.not_both_of_last hs.tracks hdm hx' hxy))

/-- What could be dropped after a drop could be dropped before. -/
lemma passable_of_dropped (hs : Edited g (Sandbox.copy g none) s) {name : String} {src : Edge}
    (hdrop : s.Droppable name src) (h : Dropped s name src t) (ht : t.Passable d x) : ∃ x', s.Passable d x' := by
  have hpass := hs.passable_of_droppable hdrop
  obtain ⟨hd, hdn⟩ := h.mem_keys.1 ht.live
  have houts : t.outs = s.outs := (border_eq_iff.1 h.border).2.1
  have hkept : ∀ {x y}, s.dag.hasArc x y → x ≠ name → y ≠ name → t.dag.hasArc x y :=
    fun hxy hx hy => h.hasArc.2 (.inl ⟨hxy, hx, hy⟩)
  have hne : ∀ {y}, s.dag.hasArc d y → ∀ {x}, s.dag.hasArc x d → s.dag.hasArc x y → y ≠ name := by
    -- The dropped node has one producer only.
    rintro y hdy x hxd hxy rfl
    have hdx : d = x := ((hpass.source d).1 hdy).trans ((hpass.source x).1 hxy).symm
    exact hs.tracks.acyclic d (.single (hdx ▸ hxd))
  rcases h.hasArc.1 ((ht.source x).2 rfl) with ⟨hxd, hxn, -⟩ | ⟨rfl, hnd⟩
  · -- The producer is still there.
    refine ⟨x, hd, fun ho => ht.notOutput (houts ▸ ho), fun z => ⟨fun hz => ?_, ?_⟩, fun hreg => ?_,
      fun y hy => ⟨fun hreg => ?_, fun hxy => ?_⟩⟩
    · by_cases hzn : z = name
      · -- Its own producer would feed the node already.
        subst hzn
        have : src.src = x := (ht.source _).1 (h.hasArc.2 (.inr ⟨rfl, hz⟩))
        exact absurd (this ▸ hxd) (hpass.consumers d hz).2
      · exact (ht.source z).1 (hkept hz hzn hdn)
    · rintro rfl
      exact hxd
    · exact ht.unregistered (h.registered ▸ hreg)
    · by_cases hyn : y = name
      · subst hyn
        obtain rfl : d = src.src := (hpass.source d).1 hy
        exact hpass.unregistered hreg
      · exact (ht.consumers y (hkept hy hdn hyn)).1 (h.registered ▸ hreg)
    · have hyn := hne hy hxd hxy
      exact (ht.consumers y (hkept hy hdn hyn)).2 (hkept hxy hxn hyn)
  · -- The producer was the dropped node.
    have hnd : s.dag.hasArc name d := hnd
    refine ⟨name, hd, fun ho => ht.notOutput (houts ▸ ho), fun z => ⟨fun hz => ?_, ?_⟩, (hpass.consumers d hnd).1,
      fun y hy => ⟨fun hreg => ?_, fun hxy => ?_⟩⟩
    · by_contra hzn
      obtain rfl : z = src.src := (ht.source z).1 (hkept hz hzn hdn)
      exact (hpass.consumers d hnd).2 hz
    · rintro rfl
      exact hnd
    · by_cases hyn : y = name
      · subst hyn
        obtain rfl : d = src.src := (hpass.source d).1 hy
        exact hpass.unregistered hreg
      · exact (ht.consumers y (hkept hy hdn hyn)).1 (h.registered ▸ hreg)
    · have hyn := hne hy hnd hxy
      exact (ht.consumers y (hkept hy hdn hyn)).2 (h.hasArc.2 (.inr ⟨rfl, hxy⟩))

/-- A chain of other nodes that is there after a merge was there before. -/
lemma Fuses.chain_of_chain (hs : Edited g (Sandbox.copy g none) s) (ht : Edited g (Sandbox.copy g none) t)
    (h : Fuses s p members n t) {cs : List Constraint} {ms : List String}
    (hc : Chain t cs ms) (hms : ∀ m ∈ ms, m ≠ n.name) : Chain s cs ms := by
  have hout : ∀ {m}, m ∈ t.dag.keys → m ≠ n.name → m ∉ members := by
    intro m hm hmn
    rcases h.mem_keys.1 hm with heq | ⟨-, hm⟩
    · exact absurd heq hmn
    · exact hm
  have hfits : ∀ {c m}, m ∈ t.dag.keys → m ≠ n.name → fits t c m → fits s c m := by
    intro c m hm hmn hf
    have hmm := hout hm hmn
    unfold fits at hf ⊢
    rwa [h.node?_eq hmm hmn, h.inDegree_eq hs.tracks ht.tracks hmm hmn] at hf
  induction hc with
  | last hf hi =>
    have hlive := (Chain.last hf hi).live (List.mem_singleton_self _)
    exact .last (hfits hlive (hms _ (List.mem_singleton_self _)) hf) (hs.not_anchor _)
  | @link c cs name next rest hf hi hsucc ho hr hc ih =>
    rw [List.forall_mem_cons] at hms
    have hlive := (Chain.link hf hi hsucc ho hr hc).live List.mem_cons_self
    have hname := hout hlive hms.1
    have hnext : next ∉ members := hout (hc.live List.mem_cons_self) (hms.2 next List.mem_cons_self)
    have harc : s.dag.hasArc name next := by
      have hxy := ht.tracks.wellFormed.mem_succs.1 (hsucc ▸ List.mem_singleton_self next)
      rcases h.merged.hasArc.1 hxy with ⟨-, -, hxy⟩ | ⟨-, heq, -⟩ | ⟨heq, -⟩
      · exact hxy
      · exact absurd heq (hms.2 next List.mem_cons_self)
      · exact absurd heq hms.1
    refine .link (hfits hlive hms.1 hf) (hs.not_anchor _) ?_ (fun ho' => ho ((h.outs_iff hname hms.1).2 ho')) ?_
      (ih hms.2)
    · refine hs.tracks.wellFormed.succs_eq_singleton harc fun y hy => ?_
      have hty := h.hasArc_place hy fun hboth => hname hboth.1
      rw [Fuses.place_of_not_mem hname] at hty
      have heq : Fuses.place members n.name y = next := by
        have := ht.tracks.wellFormed.mem_succs.2 hty
        rwa [hsucc, List.mem_singleton] at this
      by_cases hym : y ∈ members
      · rw [Fuses.place_of_mem hym] at heq
        exact absurd heq.symm (hms.2 next List.mem_cons_self)
      · rwa [Fuses.place_of_not_mem hym] at heq
    · intro hreg
      have := h.registered_place hs.tracks (ht.tracks.arrowFree_live (h.mem_keys.2 (.inl rfl))) harc hreg
        fun hboth => hname hboth.1
      rw [Fuses.place_of_not_mem hname, Fuses.place_of_not_mem hnext] at this
      exact hr this

/-- The attributes of nodes that a merge leaves alone go together as they did before. -/
lemma Fuses.fusedAttrs_eq (h : Fuses s p members n t) {ms : List String}
    (hms : ∀ m ∈ ms, m ∉ members ∧ m ≠ n.name) (hnamed : ∀ m ∈ ms, ∀ c, s.node? m = some c → c.name = m) :
    t.fusedAttrs ms = s.fusedAttrs ms := by
  refine fusedAttrs_congr (fun m hm => h.node?_eq (hms m hm).1 (hms m hm).2) fun m hm c hc => ?_
  rw [hnamed m hm c hc, Dict.contains, Dict.contains, h.merged.merges, if_neg (hms m hm).2, if_neg (hms m hm).1]

end Persistence

end Engine

end OpGraph
