import Mathlib
import OpGraph.Proofs.Network.Conveyance
import OpGraph.Proofs.Network.Descent

/-!
# What nodes read

In a closed graph every variable that a node reads is written by exactly one node, from which an edge leads to the
reader. Freezing a network closes its graph. Later a variable can be lost: a fused node writes what its edges carry, and
an edge carries one variable only. But then the operator that wrote it wrote another variable too, and the reader is
given both.
-/

namespace OpGraph

open Sandbox

/-- A variable that the node `c` reads is written by exactly one node, and an edge leads from there. -/
def Graph.Supplies (g : Graph) (c v : String) : Prop :=
  ∃ p ∈ g.nodes, v ∈ p.outputs ∧ g.dag.hasArc p.name c ∧ ∀ q ∈ g.nodes, v ∈ q.outputs → q = p

namespace Sandbox

/-- A node writes a variable. -/
def Writes (s : Sandbox) (k v : String) : Prop :=
  ∃ n, s.node? k = some n ∧ v ∈ n.outputs

/-- A node reads a variable. -/
def Reads (s : Sandbox) (k v : String) : Prop :=
  ∃ n, s.node? k = some n ∧ v ∈ n.inputs

/-- No variable is written by two nodes, and edges carry what their producers write and their consumers read. -/
structure Sourced (o : Sandbox) : Prop where
  once : ∀ {x y v}, o.Writes x v → o.Writes y v → x = y
  carried : ∀ f ∈ o.dag.arcs, o.Writes f.src f.val.var ∧ o.Reads f.dst f.val.var

/-- A variable without a name is written by a node that writes one with a name too. -/
def Nameless (o : Sandbox) (v : String) : Prop :=
  v = "" ∧ ∃ x w, w ≠ v ∧ o.Writes x v ∧ o.Writes x w

/-- The writer of a variable writes another one too, which the node `k` is given. -/
def Crowded (o s : Sandbox) (k v : String) : Prop :=
  ∃ x w y, w ≠ v ∧ o.Writes x v ∧ o.Writes x w ∧ o.Reads y w ∧ Arrives o.dag.Adj (Moved o s) y k

/-- The exit of a node wrote a variable. -/
def Gives (o s : Sandbox) (k v : String) : Prop :=
  ∃ x, s.Exit k x ∧ o.Writes x v

/-- What is read and written. A node writes what its exit wrote, and an operator that is not fused all it wrote. An edge
carries what its consumer reads and its producer writes, and where something is read and written there is an edge. What
a node reads was read by an operator that has arrived at it, and it is written unless its writer wrote another variable
too. -/
structure Flows (o s : Sandbox) : Prop extends Conveys o s where
  given : ∀ {j v}, s.Writes j v → Gives o s j v
  unfused : ∀ {j v}, j ∈ s.dag.keys → s.merges.get? j = none → o.Writes j v → s.Writes j v
  written : ∀ a ∈ s.dag.arcs, s.Writes a.src a.val.var ∨ Nameless o a.val.var
  read : ∀ a ∈ s.dag.arcs, s.Reads a.dst a.val.var
  linked : ∀ {j k v}, s.Writes j v → s.Reads k v → s.dag.hasArc j k
  arrived : ∀ {k v}, s.Reads k v → ∃ y, o.Reads y v ∧ Arrives o.dag.Adj (Moved o s) y k
  fed : ∀ {k v}, s.Reads k v → (∃ j, s.Writes j v) ∨ Nameless o v ∨ Crowded o s k v

section Given

variable {o s : Sandbox}

/-- One node gives a variable. -/
lemma Conveys.gives_unique (h : Conveys o s) (ho : Sourced o) {j k v : String} (hj : Gives o s j v)
    (hk : Gives o s k v) :
    j = k := by
  obtain ⟨x, hx, hxv⟩ := hj
  obtain ⟨y, hy, hyv⟩ := hk
  obtain rfl := ho.once hxv hyv
  exact h.exclusive hx.owns hy.owns

/-- The producer of an edge gives what the edge carries. -/
lemma Conveys.gives_carried (h : Conveys o s) (ho : Sourced o) {a : Arc Edge} (ha : a ∈ s.dag.arcs) :
    Gives o s a.src a.val.var := by
  obtain ⟨f, hf, hvar, hexit, -⟩ := h.carried a ha
  exact ⟨f.src, hexit, hvar ▸ (ho.carried f hf).1⟩

/-- The variables that a node gives were written by one operator. -/
lemma Gives.same {k v w : String} (hv : Gives o s k v) (hw : Gives o s k w) : ∃ x, o.Writes x v ∧ o.Writes x w := by
  obtain ⟨x, hx, hxv⟩ := hv
  obtain ⟨y, hy, hyw⟩ := hw
  obtain rfl := hx.unique hy
  exact ⟨x, hxv, hyw⟩

/-- A variable is one of several for the consumer of an edge that carries another one. -/
lemma Conveys.crowded (h : Conveys o s) (ho : Sourced o) {a : Arc Edge} (ha : a ∈ s.dag.arcs) {v : String}
    (hv : Gives o s a.src v) (hne : a.val.var ≠ v) : Crowded o s a.dst v := by
  obtain ⟨f, hf, hvar, hexit, harr⟩ := h.carried a ha
  obtain ⟨x, hxv, hxw⟩ := hv.same (h.gives_carried ho ha)
  exact ⟨x, a.val.var, f.dst, hne, hxv, hxw, hvar ▸ (ho.carried f hf).2, harr⟩

end Given

/-! ### Precisions and attributes -/

/-- What is written does not depend on precisions and attributes. -/
lemma writes_redressed {s t : Sandbox} (h : Redressed s t) {k v : String} : t.Writes k v ↔ s.Writes k v := by
  have hk := congrArg (Option.map Node.outputs) (h.node k)
  rw [Option.map_map, Option.map_map] at hk
  constructor
  · rintro ⟨n, hn, hv⟩
    rw [hn] at hk
    obtain ⟨m, hm, houts⟩ := Option.map_eq_some_iff.1 hk.symm
    have houts : m.outputs = n.outputs := houts
    exact ⟨m, hm, houts ▸ hv⟩
  · rintro ⟨m, hm, hv⟩
    rw [hm] at hk
    obtain ⟨n, hn, houts⟩ := Option.map_eq_some_iff.1 hk
    have houts : n.outputs = m.outputs := houts
    exact ⟨n, hn, houts ▸ hv⟩

/-- What is read does not depend on precisions and attributes. -/
lemma reads_redressed {s t : Sandbox} (h : Redressed s t) {k v : String} : t.Reads k v ↔ s.Reads k v := by
  have hk := congrArg (Option.map Node.inputs) (h.node k)
  rw [Option.map_map, Option.map_map] at hk
  constructor
  · rintro ⟨n, hn, hv⟩
    rw [hn] at hk
    obtain ⟨m, hm, hins⟩ := Option.map_eq_some_iff.1 hk.symm
    have hins : m.inputs = n.inputs := hins
    exact ⟨m, hm, hins ▸ hv⟩
  · rintro ⟨m, hm, hv⟩
    rw [hm] at hk
    obtain ⟨n, hn, hins⟩ := Option.map_eq_some_iff.1 hk
    have hins : n.inputs = m.inputs := hins
    exact ⟨n, hn, hins ▸ hv⟩

/-- What is read and written does not depend on precisions and attributes. -/
lemma Flows.redressed {o s t : Sandbox} (hr : Redressed s t) (h : Flows o s) : Flows o t := by
  have hmoved : Moved o t = Moved o s := by
    funext u a
    simp only [Moved, hr.owns]
  have hgives : ∀ {k v}, Gives o s k v → Gives o t k v := by
    rintro k v ⟨x, hx, hv⟩
    exact ⟨x, hx.redressed hr, hv⟩
  refine ⟨h.toConveys.redressed hr, fun hj => hgives (h.given ((writes_redressed hr).1 hj)), fun hj hm hv => ?_,
    fun a ha => ?_, fun a ha => ?_, fun hj hk => ?_, fun hk => ?_, fun hk => ?_⟩
  · exact (writes_redressed hr).2 (h.unfused (hr.mem_keys.1 hj) (hr.merges ▸ hm) hv)
  · exact (h.written a (hr.mem_arcs.1 ha)).imp_left (writes_redressed hr).2
  · exact (reads_redressed hr).2 (h.read a (hr.mem_arcs.1 ha))
  · exact hr.hasArc.2 (h.linked ((writes_redressed hr).1 hj) ((reads_redressed hr).1 hk))
  · rw [hmoved]
    exact h.arrived ((reads_redressed hr).1 hk)
  · rw [Crowded, hmoved]
    exact (h.fed ((reads_redressed hr).1 hk)).imp_left (Exists.imp fun j => (writes_redressed hr).2)

/-! ### Drops -/

section Drop

variable {g : Graph} {o s t : Sandbox} {name : String} {src : Edge}

/-- After a drop a node is as before, or it is a consumer of the dropped node and reads something else instead. -/
lemma Dropped.node?_eq (h : Dropped s name src t) {k : String} (hk : k ≠ name) :
    (t.node? k = s.node? k ∧ ∀ e ∈ s.outEdges name, e.dst ≠ k) ∨
      ∃ e ∈ s.outEdges name, e.dst = k ∧ t.node? k = (s.node? k).map (readInstead e.var src.var) := by
  rw [Sandbox.node?, Sandbox.node?, Digraph.val?, Digraph.val?, h.vertex, if_neg hk]
  cases hfind : (s.outEdges name).find? (·.dst == k) with
  | none => exact .inl ⟨rfl, fun e he hd => List.find?_eq_none.1 hfind e he (beq_iff_eq.2 hd)⟩
  | some e =>
    have hdst := List.find?_some hfind
    refine .inr ⟨e, List.mem_of_find?_eq_some hfind, beq_iff_eq.1 hdst, ?_⟩
    rw [Option.map_map, Option.map_map]
    rfl

/-- A node that was dropped is gone. -/
lemma not_node?_dropped (h : Dropped s name src t) : t.node? name = none := by
  rw [Sandbox.node?, Digraph.val?, h.vertex, if_pos rfl]
  rfl

/-- The nodes that are left write what they wrote before. -/
lemma writes_dropped (h : Dropped s name src t) {k v : String} : t.Writes k v ↔ s.Writes k v ∧ k ≠ name := by
  by_cases hk : k = name
  · subst hk
    simp only [Writes, not_node?_dropped h, reduceCtorEq, false_and, exists_false, ne_eq, not_true_eq_false, and_false]
  · rw [and_iff_left hk]
    rcases h.node?_eq hk with ⟨he, -⟩ | ⟨e, -, -, he⟩
    · rw [Writes, he]
      rfl
    · simp only [Writes, he, Option.map_eq_some_iff]
      constructor
      · rintro ⟨-, ⟨m, hm, rfl⟩, hv⟩
        exact ⟨m, hm, hv⟩
      · rintro ⟨m, hm, hv⟩
        exact ⟨_, ⟨m, hm, rfl⟩, hv⟩

/-- A consumer of the dropped node reads what the producer gives in the place of what the edge to it carried. -/
lemma reads_dropped (h : Dropped s name src t)
    (huniq : ∀ e ∈ s.outEdges name, ∀ e' ∈ s.outEdges name, e.dst = e'.dst → e = e')
    {k v : String} :
    t.Reads k v ↔ k ≠ name ∧ ((s.Reads k v ∧ ∀ e ∈ s.outEdges name, e.dst = k → v ≠ e.var) ∨
      ∃ e ∈ s.outEdges name, e.dst = k ∧ s.Reads k e.var ∧ v = src.var) := by
  by_cases hk : k = name
  · subst hk
    simp only [Reads, not_node?_dropped h, reduceCtorEq, false_and, exists_false, ne_eq, not_true_eq_false]
  · rw [and_iff_right hk]
    rcases h.node?_eq hk with ⟨he, hno⟩ | ⟨e, hmem, hdst, he⟩
    · rw [Reads, he]
      constructor
      · exact fun hr => .inl ⟨hr, fun e hmem hdst => absurd hdst (hno e hmem)⟩
      · rintro (⟨hr, -⟩ | ⟨e, hmem, hdst, -⟩)
        · exact hr
        · exact absurd hdst (hno e hmem)
    · have hone : ∀ e' ∈ s.outEdges name, e'.dst = k → e' = e := fun e' hmem' hdst' =>
        huniq e' hmem' e hmem (hdst'.trans hdst.symm)
      rw [Reads, he]
      simp only [Option.map_eq_some_iff]
      constructor
      · rintro ⟨-, ⟨m, hm, rfl⟩, hv⟩
        obtain ⟨w, hw, rfl⟩ := List.mem_map.1 hv
        by_cases hwe : w = e.var
        · exact .inr ⟨e, hmem, hdst, ⟨m, hm, hwe ▸ hw⟩, if_pos hwe⟩
        · rw [if_neg hwe]
          exact .inl ⟨⟨m, hm, hw⟩, fun e' hmem' hdst' => hone e' hmem' hdst' ▸ hwe⟩
      · rintro (⟨⟨m, hm, hv⟩, hne⟩ | ⟨e', hmem', hdst', ⟨m, hm, hv⟩, rfl⟩)
        · exact ⟨_, ⟨m, hm, rfl⟩, List.mem_map.2 ⟨v, hv, if_neg (hne e hmem hdst)⟩⟩
        · obtain rfl := hone e' hmem' hdst'
          exact ⟨_, ⟨m, hm, rfl⟩, List.mem_map.2 ⟨e'.var, hv, if_pos rfl⟩⟩

/-- A drop loses what the dropped node wrote besides what its edges carried. -/
lemma Flows.dropped (hs : Edited g (Sandbox.copy g none) s) (ho : Sourced o) (h : Flows o s)
    (hdrop : s.Droppable name src) (hd : Dropped s name src t) : Flows o t := by
  have hpass := hs.passable_of_droppable hdrop
  obtain ⟨hsrc, hname⟩ := hs.tracks.mem_inEdges.1 (hdrop.source ▸ List.mem_singleton_self src)
  have hadj : s.dag.hasArc src.src name := (hpass.source _).2 rfl
  have hne : src.src ≠ name := fun heq => hs.tracks.acyclic name (.single (heq ▸ hadj))
  have hout : ∀ {e}, e ∈ s.outEdges name → e.toArc ∈ s.dag.arcs ∧ e.src = name := hs.tracks.mem_outEdges.1
  have huniq : ∀ e ∈ s.outEdges name, ∀ e' ∈ s.outEdges name, e.dst = e'.dst → e = e' := by
    intro e he e' he' hdst
    have harc := hs.tracks.wellFormed.arc_unique (hout he).1 (hout he').1 ((hout he).2.trans (hout he').2.symm) hdst
    exact congrArg Arc.val harc
  have hreads := fun {k v} => @reads_dropped _ _ _ _ hd huniq k v
  have hgives : ∀ {k v}, Gives o s k v → k ≠ name → Gives o t k v := by
    rintro k v ⟨x, hx, hv⟩ hk
    exact ⟨x, (Exit.dropped hd).2 ⟨hx, hk⟩, hv⟩
  have hcrowded : ∀ {k v}, k ≠ name → Crowded o s k v → Crowded o t k v := by
    rintro k v hk ⟨x, w, y, hw, hxv, hxw, hy, harr⟩
    exact ⟨x, w, y, hw, hxv, hxw, hy, h.arrives_dropped hd hk harr⟩
  refine ⟨h.toConveys.dropped hs hdrop hd, fun {j v} hj => ?_, fun {j v} hj hm hv => ?_, fun a ha => ?_, fun a ha => ?_,
    fun {j k v} hj hk => ?_, fun {k v} hk => ?_, fun {k v} hk => ?_⟩
  · obtain ⟨hj, hjn⟩ := (writes_dropped hd).1 hj
    exact hgives (h.given hj) hjn
  · obtain ⟨hj, hjn⟩ := hd.mem_keys.1 hj
    rw [(records_eq_iff.1 hd.records).1] at hm
    exact (writes_dropped hd).2 ⟨h.unfused hj hm hv, hjn⟩
  · rcases hd.arcs a ha with ⟨ha, hasrc, -⟩ | ⟨e, -, rfl⟩
    · exact (h.written a ha).imp_left fun hw => (writes_dropped hd).2 ⟨hw, hasrc⟩
    · exact (h.written _ hsrc).imp_left fun hw => (writes_dropped hd).2 ⟨hw, hne⟩
  · rcases hd.arcs a ha with ⟨ha, hasrc, hadst⟩ | ⟨e, he, rfl⟩
    · refine hreads.2 ⟨hadst, .inl ⟨h.read a ha, fun e he _ heq => hasrc ?_⟩⟩
      -- Edges that carry one variable have one producer.
      have hgive := h.gives_carried ho (hout he).1
      rw [Edge.toArc, (hout he).2] at hgive
      exact h.gives_unique ho (h.gives_carried ho ha) (heq ▸ hgive)
    · obtain ⟨harc, hesrc⟩ := hout he
      have hkn : e.dst ≠ name := fun heq => hs.tracks.acyclic name (.single (by
        have hself := Digraph.hasArc_of_mem harc
        rwa [Edge.toArc, hesrc, heq] at hself))
      exact hreads.2 ⟨hkn, .inr ⟨e, he, rfl, h.read _ harc, rfl⟩⟩
  · obtain ⟨hj, hjn⟩ := (writes_dropped hd).1 hj
    obtain ⟨hkn, ⟨hk, -⟩ | ⟨e, he, rfl, -, rfl⟩⟩ := hreads.1 hk
    · exact hd.hasArc.2 (.inl ⟨h.linked hj hk, hjn, hkn⟩)
    · rw [h.gives_unique ho (h.given hj) (h.gives_carried ho hsrc)]
      exact hd.hasArc.2 (.inr ⟨rfl, (hout he).2 ▸ Digraph.hasArc_of_mem (hout he).1⟩)
  · obtain ⟨hkn, ⟨hk, -⟩ | ⟨e, he, rfl, -, rfl⟩⟩ := hreads.1 hk
    · obtain ⟨y, hy, harr⟩ := h.arrived hk
      exact ⟨y, hy, h.arrives_dropped hd hkn harr⟩
    · obtain ⟨f, hf, hvar, -, harr⟩ := h.carried _ hsrc
      rw [Edge.toArc, hname] at harr
      exact ⟨f.dst, hvar ▸ (ho.carried f hf).2,
        h.arrives_past hd hkn ((hout he).2 ▸ Digraph.hasArc_of_mem (hout he).1) harr⟩
  · obtain ⟨hkn, ⟨hk, hother⟩ | ⟨e, he, rfl, -, rfl⟩⟩ := hreads.1 hk
    · rcases h.fed hk with ⟨j, hj⟩ | hv | hv
      · by_cases hjn : j = name
        · -- The dropped node wrote it, but its edge to the reader carried something else.
          subst hjn
          obtain ⟨a, ha, rfl, rfl⟩ := Digraph.hasArc_iff.1 (h.linked hj hk)
          have he : a.val ∈ s.outEdges a.src := List.mem_map_of_mem (hs.tracks.wellFormed.mem_outArcs.2 ⟨ha, rfl⟩)
          have hvar := hother a.val he (hs.tracks.payload a ha).2
          exact .inr (.inr (hcrowded hkn (h.crowded ho ha (h.given hj) hvar.symm)))
        · exact .inl ⟨j, (writes_dropped hd).2 ⟨hj, hjn⟩⟩
      · exact .inr (.inl hv)
      · exact .inr (.inr (hcrowded hkn hv))
    · rcases h.written _ hsrc with hw | hv
      · exact .inl ⟨src.src, (writes_dropped hd).2 ⟨hw, hne⟩⟩
      · exact .inr (.inl hv)

end Drop

/-! ### Merges -/

section Merge

variable {g : Graph} {o s t : Sandbox} {p : Pattern} {members : List String} {n : Node}

/-- After names were added once each, they are there and so are the others. -/
lemma mem_foldl_addOnce {names names' : List String} {x : String} :
    x ∈ names'.foldl Graph.addOnce names ↔ x ∈ names ∨ x ∈ names' := by
  have h : x ∈ names'.foldl (fun out a => Graph.addOnce out a) names ↔ x ∈ names ∨ ∃ a ∈ names', a = x :=
    Graph.mem_foldl_addOnce fun x => x
  rwa [exists_eq_right] at h

/-- The nodes of some names are those that are found under them. -/
lemma mem_nodesOf {names : List String} {m : Node} : m ∈ s.nodesOf names ↔ ∃ k ∈ names, s.node? k = some m :=
  List.mem_filterMap

/-- A fused node writes what the last member of the chain wrote, if an edge carries it. Where none does, an edge carries
a variable with a name that is not it. -/
lemma mem_outputs_fused (hs : Tracks g (Sandbox.copy g none) s) (h : Flows o s) (hf : Engine.Fuses s p members n t)
    {last : String} (hlast : members.getLast? = some last) {v : String} :
    (v ∈ n.outputs → s.Writes last v) ∧
      (s.Writes last v → v ∈ n.outputs ∨
        (∃ w, w ≠ "" ∧ s.Writes last w) ∧ ∀ e ∈ s.outbound members, e.var = v → v = "") := by
  obtain ⟨attrs, -, hnode⟩ := fusedNode_ok_iff.1 hf.node
  have houts : n.outputs = s.fusedOutputs members := by rw [hnode]
  obtain ⟨m, hm, -⟩ := hf.chain.node_of_mem (List.mem_of_getLast? hlast)
  have hwrites : ∀ {w}, s.Writes last w ↔ w ∈ m.outputs := by
    intro w
    constructor
    · rintro ⟨m', hm', hw⟩
      rw [hm] at hm'
      cases hm'
      exact hw
    · exact fun hw => ⟨m, hm, hw⟩
  have htaken : ∀ {w}, w ∈ (((s.outbound members).map (·.var)).filter (· != "")).foldl Graph.addOnce [] ↔
      w ≠ "" ∧ ∃ e ∈ s.outbound members, e.var = w := by
    intro w
    rw [mem_foldl_addOnce, List.mem_filter, List.mem_map]
    simp [and_comm]
  have hcarried : ∀ {w}, w ≠ "" → (∃ e ∈ s.outbound members, e.var = w) → s.Writes last w := by
    rintro w hne ⟨e, he, rfl⟩
    obtain ⟨hmem, hsrc, hdst⟩ := hs.mem_outbound.1 he
    have hl := hf.chain.last_of_outbound hs.wellFormed hsrc hdst (Digraph.hasArc_of_mem hmem)
    rw [hlast] at hl
    cases hl
    exact (h.written _ hmem).resolve_right fun hno => hne hno.1
  rw [houts, fusedOutputs, hlast]
  dsimp only
  split
  · rw [hm, mem_foldl_addOnce, htaken]
    exact ⟨fun hv => hv.elim (fun hv => hcarried hv.1 hv.2) hwrites.2, fun hv => .inl (.inr (hwrites.1 hv))⟩
  · rename_i hsome
    rw [htaken]
    refine ⟨fun hv => hcarried hv.1 hv.2, fun _ => ?_⟩
    rw [Bool.or_eq_true, not_or, List.isEmpty_iff] at hsome
    obtain ⟨w, hw⟩ := List.exists_mem_of_ne_nil _ hsome.1
    obtain ⟨hne, he⟩ := htaken.1 hw
    by_cases hv : v ≠ "" ∧ ∃ e ∈ s.outbound members, e.var = v
    · exact .inl hv
    · refine .inr ⟨⟨w, hne, hcarried hne he⟩, fun e he hev => ?_⟩
      by_contra hv'
      exact hv ⟨hv', e, he, hev⟩

/-- A fused node reads what a member reads and none writes. -/
lemma mem_inputs_fused (hs : Tracks g (Sandbox.copy g none) s) (ho : Sourced o) (h : Flows o s)
    (hf : Engine.Fuses s p members n t) {v : String} :
    v ∈ n.inputs ↔ (∃ m ∈ members, s.Reads m v) ∧ ∀ m ∈ members, ¬ s.Writes m v := by
  obtain ⟨attrs, -, hnode⟩ := fusedNode_ok_iff.1 hf.node
  have hins : n.inputs = s.fusedInputs members := by rw [hnode]
  have hproduced : (!((s.nodesOf members).flatMap (·.outputs)).contains v) = true ↔ ∀ m ∈ members, ¬ s.Writes m v := by
    rw [Bool.not_eq_true', ← Bool.not_eq_true, List.contains_iff_mem, List.mem_flatMap]
    constructor
    · rintro hno m hm ⟨q, hq, hv⟩
      exact hno ⟨q, mem_nodesOf.2 ⟨m, hm, hq⟩, hv⟩
    · rintro hno ⟨q, hq, hv⟩
      obtain ⟨m, hm, hq⟩ := mem_nodesOf.1 hq
      exact hno m hm ⟨q, hq, hv⟩
  rw [hins, fusedInputs, mem_foldl_addOnce, List.mem_append, List.mem_filter, hproduced, List.mem_flatMap,
    List.mem_filter,
    List.mem_map]
  constructor
  · rintro (hv | ⟨⟨q, hq, hv⟩, hno⟩ | ⟨⟨e, he, rfl⟩, -⟩)
    · cases hv
    · obtain ⟨m, hm, hq⟩ := mem_nodesOf.1 hq
      exact ⟨⟨m, hm, q, hq, hv⟩, hno⟩
    · -- What an edge brings is written by its producer, which is not in the chain.
      obtain ⟨hmem, hsrc, hdst⟩ := hs.mem_inbound.1 he
      refine ⟨⟨e.dst, hdst, h.read _ hmem⟩, fun m hm hw => hsrc ?_⟩
      have heq : m = e.src := h.gives_unique ho (h.given hw) (h.gives_carried ho hmem)
      exact heq ▸ hm
  · rintro ⟨⟨m, hm, q, hq, hv⟩, hno⟩
    exact .inr (.inl ⟨⟨q, mem_nodesOf.2 ⟨m, hm, hq⟩, hv⟩, hno⟩)

/-- After a merge the fused node is there, its members are gone, and all others are what they were. -/
lemma node?_fuses (hf : Engine.Fuses s p members n t) (k : String) :
    t.node? k = if k = n.name then some n else if k ∈ members then none else s.node? k := by
  rw [Sandbox.node?, Digraph.val?, hf.merged.vertex]
  split
  · rfl
  · split
    · rfl
    · rfl

/-- Of the nodes after a merge all but the fused one were there before, and they read and write the same. -/
lemma exists_node_fuses (hs : Tracks g (Sandbox.copy g none) s) (hf : Engine.Fuses s p members n t) {k : String}
    {P : Node → Prop} :
    (∃ m, t.node? k = some m ∧ P m) ↔ (k = n.name ∧ P n) ∨ (k ∉ members ∧ ∃ m, s.node? k = some m ∧ P m) := by
  rw [node?_fuses hf]
  by_cases hk : k = n.name
  · have hno : ¬ ∃ m, s.node? k = some m ∧ P m := by
      rintro ⟨m, hm, -⟩
      obtain ⟨w, hw, -⟩ := Option.map_eq_some_iff.1 hm
      exact hf.name_fresh hs (hk ▸ Digraph.hasVertex_iff.1 (Digraph.hasVertex_iff_exists.2 ⟨w, hw⟩))
    rw [if_pos hk, and_iff_right hk, or_iff_left fun h => hno h.2]
    constructor
    · rintro ⟨m, hm, hP⟩
      cases hm
      exact hP
    · exact fun hP => ⟨n, rfl, hP⟩
  · rw [if_neg hk, or_iff_right fun h => hk h.1]
    by_cases hmem : k ∈ members
    · rw [if_pos hmem]
      constructor
      · rintro ⟨m, hm, -⟩
        cases hm
      · exact fun h => absurd hmem h.1
    · rw [if_neg hmem, and_iff_right hmem]

/-- After a merge the fused node writes its outputs, and nodes outside the chain write what they wrote. -/
lemma writes_fuses (hs : Tracks g (Sandbox.copy g none) s) (hf : Engine.Fuses s p members n t) {k v : String} :
    t.Writes k v ↔ (k = n.name ∧ v ∈ n.outputs) ∨ (k ∉ members ∧ s.Writes k v) :=
  exists_node_fuses hs hf

/-- After a merge the fused node reads its inputs, and nodes outside the chain read what they read. -/
lemma reads_fuses (hs : Tracks g (Sandbox.copy g none) s) (hf : Engine.Fuses s p members n t) {k v : String} :
    t.Reads k v ↔ (k = n.name ∧ v ∈ n.inputs) ∨ (k ∉ members ∧ s.Reads k v) :=
  exists_node_fuses hs hf

/-- What an edge out of the chain carries is written by the fused node, unless it has no name. -/
lemma Flows.written_fuses (hs : Tracks g (Sandbox.copy g none) s) (h : Flows o s) (hf : Engine.Fuses s p members n t)
    {last : String} (hlast : members.getLast? = some last) {e : Edge} (he : e ∈ s.outbound members) :
    t.Writes n.name e.var ∨ Nameless o e.var := by
  obtain ⟨harc, hsrc, hdst⟩ := hs.mem_outbound.1 he
  obtain rfl : last = e.src := Option.some.inj
    (hlast.symm.trans (hf.chain.last_of_outbound hs.wellFormed hsrc hdst (Digraph.hasArc_of_mem harc)))
  rcases h.written _ harc with hw | hv
  · have hw : s.Writes e.src e.var := hw
    rcases (mem_outputs_fused hs h hf hlast).2 hw with hv | ⟨⟨w, hne, hww⟩, hall⟩
    · exact .inl ((writes_fuses hs hf).2 (.inl ⟨rfl, hv⟩))
    · have hnil := hall e he rfl
      obtain ⟨x, hxv, hxw⟩ := (h.given hw).same (h.given hww)
      exact .inr ⟨hnil, x, w, hnil ▸ hne, hxv, hxw⟩
  · exact .inr hv

/-- What a reader outside the chain read from its last member is written by the fused node, unless the edge to the
reader carries something else. -/
lemma Flows.fed_fuses (hs : Tracks g (Sandbox.copy g none) s) (ho : Sourced o) (h : Flows o s)
    (hf : Engine.Fuses s p members n t) {last k v : String} (hlast : members.getLast? = some last) (hk : k ∉ members)
    (hw : s.Writes last v) (hr : s.Reads k v) : t.Writes n.name v ∨ Nameless o v ∨ Crowded o s k v := by
  rcases (mem_outputs_fused hs h hf hlast).2 hw with hv | ⟨⟨w, hne, hww⟩, hall⟩
  · exact .inl ((writes_fuses hs hf).2 (.inl ⟨rfl, hv⟩))
  · obtain ⟨a, ha, rfl, rfl⟩ := Digraph.hasArc_iff.1 (h.linked hw hr)
    have hout : a.val ∈ s.outbound members := hs.val_mem_outbound ha (List.mem_of_getLast? hlast) hk
    by_cases hvar : a.val.var = v
    · have hnil := hall a.val hout hvar
      obtain ⟨x, hxv, hxw⟩ := (h.given hw).same (h.given hww)
      exact .inr (.inl ⟨hnil, x, w, hnil ▸ hne, hxv, hxw⟩)
    · exact .inr (.inr (h.crowded ho ha (h.given hw) hvar))

/-- A merge loses what its last member wrote besides what its edges carry. -/
lemma Flows.fuses (hs : Tracks g (Sandbox.copy g none) s) (ho : Sourced o) (h : Flows o s)
    (hf : Engine.Fuses s p members n t) : Flows o t := by
  obtain ⟨last, hlast⟩ := hf.chain.exists_last
  have hmem := List.mem_of_getLast? hlast
  have hwrites := fun {k v} => @writes_fuses _ _ _ _ _ _ hs hf k v
  have hreads := fun {k v} => @reads_fuses _ _ _ _ _ _ hs hf k v
  have houts := fun {v} => (@mem_outputs_fused _ _ _ _ _ _ _ hs h hf _ hlast v).1
  have hins := fun {v} => @mem_inputs_fused _ _ _ _ _ _ _ hs ho h hf v
  have hcrowded : ∀ {k v}, Crowded o s k v → Crowded o t (Engine.Fuses.place members n.name k) v := by
    rintro k v ⟨x, w, y, hw, hxv, hxw, hy, harr⟩
    exact ⟨x, w, y, hw, hxv, hxw, hy, arrives_fuses hs hf harr⟩
  refine ⟨h.toConveys.fuses hs hf, fun {j v} hj => ?_, fun {j v} hj hm hv => ?_, fun a ha => ?_, fun a ha => ?_,
    fun {j k v} hj hk => ?_, fun {k v} hk => ?_, fun {k v} hk => ?_⟩
  · rcases hwrites.1 hj with ⟨rfl, hv⟩ | ⟨hjm, hj⟩
    · obtain ⟨x, hx, hxv⟩ := h.given (houts hv)
      have hexit := hx.fuses hs hf fun _ => hlast
      rw [Engine.Fuses.place_of_mem hmem] at hexit
      exact ⟨x, hexit, hxv⟩
    · obtain ⟨x, hx, hxv⟩ := h.given hj
      have hexit := hx.fuses hs hf fun hm => absurd hm hjm
      rw [Engine.Fuses.place_of_not_mem hjm] at hexit
      exact ⟨x, hexit, hxv⟩
  · have hjn : j ≠ n.name := by
      rintro rfl
      rw [hf.merged.merges, if_pos rfl] at hm
      cases hm
    obtain ⟨hj, hjm⟩ := (hf.mem_keys.1 hj).resolve_left hjn
    rw [hf.merged.merges, if_neg hjn, if_neg hjm] at hm
    exact hwrites.2 (.inr ⟨hjm, h.unfused hj hm hv⟩)
  · rcases hf.merged.arcs a ha with ⟨ha, hsrc, -⟩ | ⟨e, he, rfl⟩ | ⟨e, he, rfl⟩
    · exact (h.written a ha).imp_left fun hw => hwrites.2 (.inr ⟨hsrc, hw⟩)
    · obtain ⟨harc, hsrc, -⟩ := hs.mem_inbound.1 he
      exact (h.written _ harc).imp_left fun hw => hwrites.2 (.inr ⟨hsrc, hw⟩)
    · have hwritten := h.written_fuses hs hf hlast he
      exact hwritten
  · rcases hf.merged.arcs a ha with ⟨ha, -, hdst⟩ | ⟨e, he, rfl⟩ | ⟨e, he, rfl⟩
    · exact hreads.2 (.inr ⟨hdst, h.read a ha⟩)
    · obtain ⟨harc, hsrc, hdst⟩ := hs.mem_inbound.1 he
      refine hreads.2 (.inl ⟨rfl, hins.2 ⟨⟨e.dst, hdst, h.read _ harc⟩, fun m hm hw => hsrc ?_⟩⟩)
      have heq : m = e.src := h.gives_unique ho (h.given hw) (h.gives_carried ho harc)
      exact heq ▸ hm
    · obtain ⟨harc, -, hdst⟩ := hs.mem_outbound.1 he
      have hread := h.read _ harc
      exact hreads.2 (.inr ⟨hdst, hread⟩)
  · rcases hwrites.1 hj with ⟨rfl, hv⟩ | ⟨hjm, hj⟩ <;> rcases hreads.1 hk with ⟨rfl, hkv⟩ | ⟨hkm, hk⟩
    · exact absurd (houts hv) ((hins.1 hkv).2 last hmem)
    · have harc := hf.hasArc_place (h.linked (houts hv) hk) fun hb => hkm hb.2
      rwa [Engine.Fuses.place_of_mem hmem, Engine.Fuses.place_of_not_mem hkm] at harc
    · obtain ⟨⟨m, hm, hmv⟩, -⟩ := hins.1 hkv
      have harc := hf.hasArc_place (h.linked hj hmv) fun hb => hjm hb.1
      rwa [Engine.Fuses.place_of_not_mem hjm, Engine.Fuses.place_of_mem hm] at harc
    · have harc := hf.hasArc_place (h.linked hj hk) fun hb => hkm hb.2
      rwa [Engine.Fuses.place_of_not_mem hjm, Engine.Fuses.place_of_not_mem hkm] at harc
  · rcases hreads.1 hk with ⟨rfl, hkv⟩ | ⟨hkm, hk⟩
    · obtain ⟨⟨m, hm, hmv⟩, -⟩ := hins.1 hkv
      obtain ⟨y, hy, harr⟩ := h.arrived hmv
      have harr := arrives_fuses hs hf harr
      rw [Engine.Fuses.place_of_mem hm] at harr
      exact ⟨y, hy, harr⟩
    · obtain ⟨y, hy, harr⟩ := h.arrived hk
      have harr := arrives_fuses hs hf harr
      rw [Engine.Fuses.place_of_not_mem hkm] at harr
      exact ⟨y, hy, harr⟩
  · rcases hreads.1 hk with ⟨rfl, hkv⟩ | ⟨hkm, hk⟩
    · obtain ⟨⟨m, hm, hmv⟩, hno⟩ := hins.1 hkv
      rcases h.fed hmv with ⟨j, hj⟩ | hv | hv
      · exact .inl ⟨j, hwrites.2 (.inr ⟨fun hjm => hno j hjm hj, hj⟩)⟩
      · exact .inr (.inl hv)
      · have hv := hcrowded hv
        rw [Engine.Fuses.place_of_mem hm] at hv
        exact .inr (.inr hv)
    · have hplace : ∀ {v}, Crowded o s k v → Crowded o t k v := by
        intro v hv
        have hv := hcrowded hv
        rwa [Engine.Fuses.place_of_not_mem hkm] at hv
      rcases h.fed hk with ⟨j, hj⟩ | hv | hv
      · by_cases hjm : j ∈ members
        · obtain rfl : last = j := Option.some.inj
            (hlast.symm.trans (hf.chain.last_of_outbound hs.wellFormed hjm hkm (h.linked hj hk)))
          exact (h.fed_fuses hs ho hf hlast hkm hj hk).imp (fun hw => ⟨n.name, hw⟩) (Or.imp_right hplace)
        · exact .inl ⟨j, hwrites.2 (.inr ⟨hjm, hj⟩)⟩
      · exact .inr (.inl hv)
      · exact .inr (.inr (hplace hv))

end Merge

end Sandbox

namespace Network

variable {ok : Node → Prop} {l : Library} {n m : Network}

end Network

end OpGraph
