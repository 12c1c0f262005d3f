import Mathlib
import OpGraph.Proofs.Sandbox.Histories

/-!
# Dropping is bypassing

A drop takes a node out and moves the edges out of it to its producer one after the other, whatever becomes of each.
None of them is lost and none meets another: what is left is the graph in which the consumers of the node come right
after its producer.
-/

namespace OpGraph.Sandbox

/-- `t` is `s` without the node `name`, which `src` alone led to; what `name` fed is fed by its producer. -/
structure Bypass (s : Sandbox) (name : String) (src : Edge) (t : Sandbox) : Prop where
  producer : ∀ z, s.dag.hasArc z name ↔ z = src.src
  nodes : t.names = s.names.filter (· ≠ name)
  arcs : ∀ a, a ∈ t.dag.arcs ↔ (a ∈ s.dag.arcs ∧ a.src ≠ name ∧ a.dst ≠ name) ∨
    ∃ e ∈ s.outEdges name, a = ⟨src.src, e.dst, { src with dst := e.dst, dstSlot := e.dstSlot, shape := [] }⟩
  wellFormed : t.dag.WellFormed
  acyclic : t.dag.Acyclic
  inDegree : ∀ k, k ≠ name → t.dag.inDegree k = s.dag.inDegree k
  seq : ∀ k, k ≠ name → t.dag.seq? k = s.dag.seq? k
  reachable : ∀ j k, j ≠ name → k ≠ name → t.dag.reachable j k = s.dag.reachable j k
  registered : t.registered = s.registered
  outs : t.outs = s.outs
  anchors : t.anchors = s.anchors
  outside : ∀ k, s.isAnchor k → t.node? k = s.node? k
  consumers : ∀ e ∈ s.outEdges name, t.node? e.dst = (s.node? e.dst).map fun n =>
    { n with inputs := n.inputs.map fun v => if v = e.var then src.var else v }
  others : ∀ k, k ≠ name → ¬ s.dag.hasArc name k → t.node? k = s.node? k

namespace Roster

variable {g : Graph} {o s : Sandbox} {name : String} {src : Edge}

/-- After a node was dropped, all other names are there in their order. -/
lemma names_drop (hs : Roster g o s) (name : String) (src : Edge) :
    ((s.outEdges name).foldl (bypass src) (s.removeNode name)).names = s.names.filter (· ≠ name) := by
  rw [names, (foldl_bypass_frame src (s.outEdges name) (s.removeNode name)).1, dag_removeNode hs.wellFormed,
    Digraph.keys, Digraph.vertices_dropVertex, names, Digraph.keys, List.filter_map]
  refine congrArg _ (List.filter_congr fun v _ => ?_)
  simp [bne, beq_eq_decide]

/-- Each edge out of a dropped node is there in its new place. -/
lemma movedPast_mem_drop (hs : Roster g o s) (hd : s.Droppable name src) {e : Edge} (he : e ∈ s.outEdges name) :
    (movedPast src e).toArc ∈ ((s.outEdges name).foldl (bypass src) (s.removeNode name)).dag.arcs := by
  have harc := (hs.hasArc_drop hd).2 (.inr ⟨rfl, hs.hasArc_consumer he⟩)
  obtain ⟨a, ha, hsrc, hdst⟩ := Digraph.hasArc_iff.1 harc
  rcases hs.arcs_drop hd ha with ⟨hold, -⟩ | ⟨e', he', rfl⟩
  · -- The producer would have fed the consumer before.
    exact absurd (hsrc ▸ hdst ▸ Digraph.hasArc_of_mem hold) (hd.consumers e he).2.2
  · obtain rfl : e' = e := List.inj_on_of_nodup_map (hs.nodup_consumers name) he' he hdst
    exact ha

/-- Every other node has as many producers as before: the dropped one is replaced by its own. -/
lemma inDegree_drop (hs : Roster g o s) (hd : s.Droppable name src) {t : Sandbox}
    (ht : t.dag = ((s.outEdges name).foldl (bypass src) (s.removeNode name)).dag) (wf : t.dag.WellFormed) {k : String}
    (hk : k ≠ name) : t.dag.inDegree k = s.dag.inDegree k := by
  have harc : ∀ {x}, t.dag.hasArc x k ↔ Digraph.Bypassed s.dag.Adj src.src name x k := ht ▸ hs.hasArc_drop hd
  have hconsumer : s.dag.hasArc name k → ¬ s.dag.hasArc src.src k := by
    intro hnk
    obtain ⟨e, he, rfl⟩ := hs.exists_consumer hnk
    exact (hd.consumers e he).2.2
  refine wf.inDegree_eq_of_preds hs.wellFormed (fun x => if x = name then src.src else x) ?_ fun x => ?_
  · intro x y hx hy hxy
    by_cases hxn : x = name
    · by_cases hyn : y = name
      · rw [hxn, hyn]
      · rw [if_pos hxn, if_neg hyn] at hxy
        exact absurd (hxy ▸ hy) (hconsumer (hxn ▸ hx))
    · by_cases hyn : y = name
      · rw [if_neg hxn, if_pos hyn] at hxy
        exact absurd (hxy ▸ hx) (hconsumer (hyn ▸ hy))
      · rwa [if_neg hxn, if_neg hyn] at hxy
  · rw [harc]
    constructor
    · rintro (⟨hxk, hx, -⟩ | ⟨rfl, hnk⟩)
      · exact ⟨x, hxk, if_neg hx⟩
      · exact ⟨name, hnk, if_pos rfl⟩
    · rintro ⟨y, hyk, rfl⟩
      by_cases hy : y = name
      · rw [if_pos hy]
        exact .inr ⟨rfl, hy ▸ hyk⟩
      · rw [if_neg hy]
        exact .inl ⟨hyk, hy, hk⟩

/-- Dropping a node does not change what can be reached between any two others. -/
lemma reachable_drop (hs : Roster g o s) (hd : s.Droppable name src) {t : Sandbox}
    (ht : t.dag = ((s.outEdges name).foldl (bypass src) (s.removeNode name)).dag) (wf : t.dag.WellFormed) {j k : String}
    (hj : j ≠ name) (hk : k ≠ name) : t.dag.reachable j k = s.dag.reachable j k := by
  have hadj : t.dag.Adj = Digraph.Bypassed s.dag.Adj src.src name := by
    funext x y
    exact propext (ht ▸ hs.hasArc_drop hd)
  have hvertex : t.dag.hasVertex j ↔ s.dag.hasVertex j := by
    have hkeys : t.dag.keys = s.names.filter (· ≠ name) := ht ▸ hs.names_drop name src
    rw [Digraph.hasVertex_iff, Digraph.hasVertex_iff, hkeys, List.mem_filter, decide_eq_true_eq]
    exact and_iff_left hj
  have hloop : ¬ s.dag.Adj name name := fun h => hs.acyclic name (.single h)
  rw [Bool.eq_iff_iff, wf.proper.reachable_iff, hs.wellFormed.proper.reachable_iff, hadj, hvertex,
    Digraph.Bypassed.path_iff (fun z => hs.hasArc_source hd) hloop hj hk]

/-- What a drop makes of a sandbox is the bypass. -/
lemma bypass_of_droppable (hs : Roster g o s) (hd : s.Droppable name src) :
    Bypass s name src ((s.outEdges name).foldl (bypass src) (s.removeNode name)).pruneRenames := by
  have ht : Roster g o ((s.outEdges name).foldl (bypass src) (s.removeNode name)).pruneRenames :=
    hs.edit (e := .drop name) (drop_ok_iff.2 ⟨src, hd, rfl⟩)
  set t := ((s.outEdges name).foldl (bypass src) (s.removeNode name)).pruneRenames with hdef
  have hvertex : ∀ k, t.dag.vertex? k = _ := hs.vertex?_drop hd
  have hborder : t.border = s.border := (drop_frame hs name src).2.2.1
  have hfed : ∀ {k}, (s.outEdges name).find? (·.dst == k) = none ↔ ¬ s.dag.hasArc name k := by
    intro k
    rw [List.find?_eq_none]
    constructor
    · intro hno hnk
      obtain ⟨e, he, rfl⟩ := hs.exists_consumer hnk
      exact hno e he (beq_self_eq_true _)
    · intro hno e he hek
      exact hno (beq_iff_eq.1 hek ▸ hs.hasArc_consumer he)
  have hothers : ∀ k, k ≠ name → ¬ s.dag.hasArc name k → t.node? k = s.node? k := by
    intro k hk hno
    rw [node?, node?, Digraph.val?, Digraph.val?, hvertex, if_neg hk, hfed.2 hno]
  refine ⟨fun z => hs.hasArc_source hd, hs.names_drop name src, fun a => ⟨hs.arcs_drop hd, ?_⟩, ht.wellFormed,
    ht.acyclic, fun k => hs.inDegree_drop hd rfl ht.wellFormed, fun k hk => ?_,
    fun j k => hs.reachable_drop hd rfl ht.wellFormed, hs.registered_drop hd, (border_eq_iff.1 hborder).2.1,
    ht.anchors.trans hs.anchors.symm, fun k hk => ?_, fun e he => ?_, hothers⟩
  · rintro (⟨ha, hsrc, hdst⟩ | ⟨e, he, rfl⟩)
    · exact hs.kept_drop hd ha hsrc hdst
    · exact hs.movedPast_mem_drop hd he
  · rw [Digraph.seq?, Digraph.seq?, hvertex, if_neg hk]
    split
    · rfl
    · rw [Option.map_map]
      rfl
  · -- Neither the dropped node nor a consumer of it is outside.
    refine hothers k (fun heq => hd.inside (heq ▸ hk)) fun hnk => ?_
    obtain ⟨e, he, rfl⟩ := hs.exists_consumer hnk
    exact (hd.consumers e he).1 hk
  · have harc := hs.hasArc_consumer he
    have hne : e.dst ≠ name := fun heq => hs.acyclic name (.single (heq ▸ harc))
    have hfind : (s.outEdges name).find? (·.dst == e.dst) = some e :=
      Digraph.find?_eq_some_of_nodup _ (hs.nodup_consumers name) he
    rw [node?, node?, Digraph.val?, Digraph.val?, hvertex, if_neg hne, hfind]
    dsimp only
    rw [Option.map_map, Option.map_map]
    rfl

end Roster

/-- A drop that succeeds, in any sandbox, bypasses a node that has one producer. -/
theorem drop_exact {s t : Sandbox} (h : s.Derived) {name : String} (hok : s.drop name = .ok t) :
    ∃ src, s.inEdges name = [src] ∧ Bypass s name src t := by
  obtain ⟨src, hd, rfl⟩ := drop_ok_iff.1 hok
  obtain ⟨g, o, hs⟩ := h.account
  exact ⟨src, hd.source, hs.bypass_of_droppable hd⟩

/-- A producer, an operator that only passes on what it reads, and two operators that read from it, one of them twice
and the other one from a second producer too. -/
def tee : Graph where
  name := "tee"
  dag := .ofArcs
    [
      ⟨"p", { name := "p", type := "conv", outputs := ["x"] }, 0⟩,
      ⟨"i", { name := "i", type := "Identity", inputs := ["x"], outputs := ["y"] }, 1⟩,
      ⟨"q", { name := "q", type := "conv", outputs := ["w"] }, 2⟩,
      ⟨"a", { name := "a", type := "mul", inputs := ["y", "y"], outputs := ["u"] }, 3⟩,
      ⟨"b", { name := "b", type := "add", inputs := ["w", "y"], outputs := ["v"] }, 4⟩]
    [
      ⟨"p", "i", { src := "p", dst := "i", var := "x" }⟩,
      ⟨"i", "a", { src := "i", dst := "a", var := "y" }⟩,
      ⟨"i", "b", { src := "i", dst := "b", var := "y", dstSlot := 1 }⟩,
      ⟨"q", "b", { src := "q", dst := "b", var := "w" }⟩]
    5

lemma built_tee : tee.Built := by
  have h := Graph.Built.new "tee"
  have h := h.insertNode (n := { name := "p", type := "conv", outputs := ["x"] }) rfl
  have h := h.insertNode (n := { name := "i", type := "Identity", inputs := ["x"], outputs := ["y"] }) rfl
  have h := h.insertNode (n := { name := "q", type := "conv", outputs := ["w"] }) rfl
  have h := h.insertNode (n := { name := "a", type := "mul", inputs := ["y", "y"], outputs := ["u"] }) rfl
  have h := h.insertNode (n := { name := "b", type := "add", inputs := ["w", "y"], outputs := ["v"] }) rfl
  have h := h.connect (e := { src := "p", dst := "i", var := "x" }) rfl
  have h := h.connect (e := { src := "i", dst := "a", var := "y" }) rfl
  have h := h.connect (e := { src := "i", dst := "b", var := "y", dstSlot := 1 }) rfl
  exact h.connect (e := { src := "q", dst := "b", var := "w" }) rfl

/-- The operator is dropped from a region that the second producer is outside of. -/
theorem drop_exact_tee : ∃ t src, (copy tee (some ["p", "i", "a", "b"])).drop "i" = .ok t ∧
    Bypass (copy tee (some ["p", "i", "a", "b"])) "i" src t ∧ src.var = "x" ∧
    (copy tee (some ["p", "i", "a", "b"])).isAnchor "q" ∧ t.names = ["p", "q", "a", "b"] ∧
    t.dag.succs "p" = ["a", "b"] ∧ (t.node? "a").map (·.inputs) = some ["x", "x"] := by
  have h : (copy tee (some ["p", "i", "a", "b"])).Derived :=
    @Derived.snapshot tee (some ["p", "i", "a", "b"]) _ built_tee rfl
  have hok : ∃ t, (copy tee (some ["p", "i", "a", "b"])).drop "i" = .ok t ∧ t.names = ["p", "q", "a", "b"] ∧
      t.dag.succs "p" = ["a", "b"] ∧ (t.node? "a").map (·.inputs) = some ["x", "x"] :=
    ⟨_, rfl, by decide, by decide, by decide⟩
  obtain ⟨t, hok, hrest⟩ := hok
  obtain ⟨src, hsrc, hb⟩ := drop_exact h hok
  have hvar : [src.var] = ["x"] := by
    rw [← List.map_singleton (f := Edge.var), ← hsrc]
    decide
  exact ⟨t, src, hok, hb, List.singleton_inj.1 hvar, by decide, hrest⟩

end OpGraph.Sandbox
