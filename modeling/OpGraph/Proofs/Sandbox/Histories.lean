import Mathlib
import OpGraph.Proofs.Network.Reached
import OpGraph.Proofs.Sandbox.Effects

/-!
# Graphs and sandboxes that calls lead to

`Graph.Built g` says that calls lead from a graph without nodes to `g`, and `Sandbox.Derived s` that edits and commits
lead from a copy of such a graph to `s`. Whatever was called, the edges of a graph agree with the arcs they are filed
under and close no cycle, and a sandbox keeps a true account of its nodes. Neither needs the graph to have been
verified, nor its names to be free of arrows.
-/

namespace OpGraph

namespace Graph

/-! ### Graphs -/

/-- The graphs that calls lead to. A call that fails leads nowhere. -/
inductive Built : Graph → Prop where
  | new (name : String) : Built { name }
  | setName {g : Graph} (h : Built g) (name : String) : Built { g with name }
  | insertNode {g g' : Graph} {n : Node} (h : Built g) (he : g.insertNode n = .ok g') : Built g'
  | connect {g g' : Graph} {e : Edge} (h : Built g) (he : g.connect e = .ok g') : Built g'
  | addEdge {g g' : Graph} {src dst : String} {srcSlot dstSlot : Int} (h : Built g)
      (he : g.addEdge src srcSlot dst dstSlot = .ok g') : Built g'
  | removeNode {g g' : Graph} {name : String} (h : Built g) (he : g.removeNode name = .ok g') : Built g'
  | updateNode {g : Graph} (h : Built g) (name : String) {f : Node → Node} (hf : ∀ v, (f v).name = v.name) :
      Built (g.updateNode name f)
  | setBoundary {g : Graph} (h : Built g) (ins outs : List String) : Built { g with ins, outs }
  | registerOutput {g g' : Graph} {src dst : String} (h : Built g) (he : g.registerOutput src dst = .ok g') : Built g'
  | registerAllOutputs {g : Graph} (h : Built g) : Built g.registerAllOutputs
  | freeze {g : Graph} (h : Built g) : Built { g with frozen := true }
  | markOptimized {g : Graph} (h : Built g) : Built { g with optimized := true }
  | apply {g g' : Graph} {p : Patch} (h : Built g) (he : g.apply p = .ok g') : Built g'

/-- The rules that hold of a graph at any time. -/
structure Consistent (g : Graph) : Prop extends WellFormed g where
  payload : ∀ a ∈ g.dag.arcs, a.val.src = a.src ∧ a.val.dst = a.dst
  acyclic : g.dag.Acyclic

namespace Consistent

variable {g g' : Graph}

lemma of_dag (h : g.Consistent) (hd : g'.dag = g.dag) : g'.Consistent :=
  ⟨h.toWellFormed.of_dag hd, hd ▸ h.payload, hd ▸ h.acyclic⟩

/-- Inserting a node keeps a graph consistent. -/
lemma insertNode (h : g.Consistent) {n : Node} (he : g.insertNode n = .ok g') : g'.Consistent := by
  have wf := h.toWellFormed.insertNode he
  obtain ⟨dag, hdag, rfl⟩ := insertNode_ok he
  have harcs : dag.arcs = g.dag.arcs := Digraph.arcs_addVertexAt hdag
  exact ⟨wf, fun a ha => h.payload a (harcs ▸ ha), h.acyclic.of_subset fun _ ha => harcs ▸ ha⟩

/-- Connecting two nodes keeps a graph consistent. -/
lemma connect (h : g.Consistent) {e : Edge} (he : g.connect e = .ok g') : g'.Consistent := by
  obtain ⟨dag, hdag, rfl⟩ := connect_ok he
  refine ⟨⟨h.dag.addArc hdag, fun v hv => h.named v (Digraph.vertices_addArc hdag ▸ hv)⟩, fun a ha => ?_,
    h.dag.acyclic_addArc h.acyclic hdag⟩
  rw [Digraph.arcs_addArc hdag, List.mem_append, List.mem_singleton] at ha
  cases ha with
  | inl ha => exact h.payload a ha
  | inr ha =>
    subst ha
    exact ⟨rfl, rfl⟩

/-- Removing a node keeps a graph consistent. -/
lemma removeNode (h : g.Consistent) {name : String} (he : g.removeNode name = .ok g') : g'.Consistent := by
  unfold Graph.removeNode at he
  split at he
  · cases he
  · split at he
    · cases he
    · cases he
      exact ⟨⟨h.dag.dropVertex name, fun v hv => h.named v (Digraph.mem_of_mem_vertices_dropVertex hv)⟩,
        fun a ha => h.payload a (Digraph.mem_of_mem_arcs_dropVertex ha),
        h.acyclic.of_subset fun _ => Digraph.mem_of_mem_arcs_dropVertex⟩

/-- Registering an output keeps a graph consistent. -/
lemma registerOutput (h : g.Consistent) {src dst : String} (he : g.registerOutput src dst = .ok g') :
    g'.Consistent := by
  unfold Graph.registerOutput at he
  split at he
  · cases he
    exact h.of_dag rfl
  · cases he

/-- Applying a patch keeps a graph consistent. -/
lemma apply (h : g.Consistent) {p : Patch} (he : g.apply p = .ok g') : g'.Consistent := by
  cases apply_ok h.toWellFormed he with
  | inl hempty => exact hempty.2 ▸ h
  | inr happ => exact ⟨happ.wellFormed, happ.sound.payload, happ.sound.acyclic⟩

end Consistent

/-- The rules hold whatever was called. -/
lemma Built.consistent {g : Graph} (h : g.Built) : g.Consistent := by
  induction h with
  | new name => exact ⟨⟨Digraph.wellFormed_empty, List.forall_mem_nil _⟩, List.forall_mem_nil _, Digraph.acyclic_empty⟩
  | setName _ _ ih => exact ih.of_dag rfl
  | insertNode _ he ih => exact ih.insertNode he
  | connect _ he ih => exact ih.connect he
  | addEdge _ he ih => exact ih.connect he
  | removeNode _ he ih => exact ih.removeNode he
  | updateNode _ name hf ih => exact ⟨ih.toWellFormed.updateNode name hf, ih.payload, ih.acyclic⟩
  | setBoundary _ _ _ ih => exact ih.of_dag rfl
  | registerOutput _ he ih => exact ih.registerOutput he
  | registerAllOutputs _ ih => exact ih.of_dag rfl
  | freeze _ ih => exact ih.of_dag rfl
  | markOptimized _ ih => exact ih.of_dag rfl
  | apply _ he ih => exact ih.apply he

end Graph

namespace Sandbox

/-! ### Sandboxes -/

/-- The sandboxes that edits and commits lead to from a copy of a graph. What fails leads nowhere. -/
inductive Derived : Sandbox → Prop where
  | snapshot {g : Graph} {region : Option (List String)} {s : Sandbox} (hg : g.Built) (he : snapshot g region = .ok s) :
      Derived s
  | edit {s t : Sandbox} {e : Edit} (h : Derived s) (he : s.edit e = .ok t) : Derived t
  | commit {s t : Sandbox} {g g' : Graph} {c : Changes} (h : Derived s) (he : s.commit g = .ok (g', t, c)) : Derived t

/-- However it was reached, a sandbox keeps a true account of its nodes. -/
lemma Derived.account {s : Sandbox} (h : s.Derived) : ∃ g o, Roster g o s := by
  induction h with
  | @snapshot g region s hg he =>
    have hg := hg.consistent
    obtain rfl := snapshot_ok he
    exact ⟨g, _, .copy_of_acyclic hg.toWellFormed hg.payload hg.acyclic region⟩
  | edit _ he ih =>
    obtain ⟨g, o, hr⟩ := ih
    exact ⟨g, o, hr.edit he⟩
  | commit _ he ih =>
    obtain ⟨g, o, hr⟩ := ih
    unfold Sandbox.commit at he
    split at he
    · cases he
    · split at he
      · cases he
      · split at he
        · cases he
          exact ⟨g, { o with committed := true }, { hr with committed := rfl }⟩
        · cases he

end Sandbox

end OpGraph
