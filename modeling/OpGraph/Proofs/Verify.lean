import Mathlib
import OpGraph.Graph.Verify
import OpGraph.Proofs.Graph.Identifiers
import OpGraph.Proofs.Lookup
import OpGraph.Proofs.Reach

/-!
# What a verified graph satisfies

A graph keeps its nodes under their own names in a well-formed digraph. The check of its rules accepts exactly the
sound graphs among these: edges agree with their arcs, what is registered, at the boundary or fused exists, and there
is no cycle.
-/

namespace OpGraph.Graph

/-- The digraph is well-formed and every node is kept under its own name. -/
structure WellFormed (g : Graph) : Prop where
  dag : g.dag.WellFormed
  named : ∀ v ∈ g.dag.vertices, v.val.name = v.key

/-- The rules of a graph. -/
structure Sound (g : Graph) : Prop where
  payload : ∀ a ∈ g.dag.arcs, a.val.src = a.src ∧ a.val.dst = a.dst
  registered : ∀ id, g.isRegistered id → (g.edgeById? id).isSome
  ins : ∀ name ∈ g.ins, g.hasNode name
  outs : ∀ name ∈ g.outs, g.hasNode name
  merges : ∀ r ∈ g.merges, g.hasNode r.fused
  acyclic : g.dag.Acyclic

/-- A check of all passes exactly if each of them is in order. -/
lemma checkAll_ok_iff {α : Type} {ok : α → Bool} {violation : α → Violation} {xs : List α} :
    checkAll ok violation xs = .ok () ↔ ∀ x ∈ xs, ok x := by
  unfold checkAll
  cases h : xs.find? fun x => !ok x with
  | none =>
    rw [List.find?_eq_none] at h
    simpa using h
  | some x =>
    have hx : ¬ ok x := by simpa using List.find?_some h
    simp only [reduceCtorEq, false_iff, not_forall]
    exact ⟨x, List.mem_of_find?_eq_some h, hx⟩

/-- The check accepts exactly the sound graphs. -/
lemma WellFormed.verify_ok_iff {g : Graph} (wf : g.WellFormed) : g.verify = .ok () ↔ g.Sound := by
  have hpay : (∀ a ∈ g.dag.arcsBySource, (a.val.src == a.src && a.val.dst == a.dst) = true) ↔
      ∀ a ∈ g.dag.arcs, a.val.src = a.src ∧ a.val.dst = a.dst := by
    simp [wf.dag.mem_arcsBySource]
  have hreg : (∀ id ∈ g.registered.keys, ((g.edgeById? id).isSome) = true) ↔
      ∀ id, g.isRegistered id → (g.edgeById? id).isSome := by
    simp [Dict.mem_keys, isRegistered]
  rw [verify]
  simp only [bind_unit_eq_ok, checkAll_ok_iff, hpay, hreg]
  constructor
  · rintro ⟨h₁, h₂, h₃, h₄, h₅, h₆⟩
    refine ⟨h₁, h₂, h₃, h₄, h₅, wf.dag.proper.checkAcyclic_ok_iff.1 ?_⟩
    cases hc : g.dag.checkAcyclic with
    | ok u => rfl
    | error cause =>
      rw [hc] at h₆
      cases h₆
  · rintro ⟨h₁, h₂, h₃, h₄, h₅, h₆⟩
    refine ⟨h₁, h₂, h₃, h₄, h₅, ?_⟩
    rw [wf.dag.proper.checkAcyclic_ok_iff.2 h₆]

/-- The edge of an identifier is the one between the two names it is made of. -/
lemma edgeById?_arc_isSome {g : Graph} {src dst : String} (h : ArrowFree src) :
    (g.edgeById? (.arc src dst)).isSome ↔ g.dag.hasArc src dst := by
  rw [edgeById?, EdgeId.endpoints?_arc h]
  simp [edge?, Digraph.hasArc]

/-- An identifier of an edge is made of the names of two nodes that are joined. -/
lemma exists_hasArc {g : Graph} {id : EdgeId} (h : (g.edgeById? id).isSome) :
    ∃ x y, g.dag.hasArc x y ∧ id = EdgeId.arc x y := by
  unfold edgeById? at h
  split at h
  · rename_i src dst hends
    refine ⟨src, dst, ?_, EdgeId.eq_arc_of_endpoints? hends⟩
    rwa [edge?, Option.isSome_map] at h
  · cases h

/-- A well-formed sound graph no name of which holds an arrow. -/
structure Regular (g : Graph) : Prop where
  wellFormed : g.WellFormed
  sound : g.Sound
  arrowFree : ∀ name ∈ g.names, ArrowFree name

namespace Regular

variable {g : Graph}

/-- A well-formed graph that is verified and has no arrows in its names is regular. -/
lemma of_verify (wf : g.WellFormed) (ok : g.verify = .ok ()) (af : ∀ name ∈ g.names, ArrowFree name) : g.Regular :=
  ⟨wf, wf.verify_ok_iff.1 ok, af⟩

lemma dag (h : g.Regular) : g.dag.WellFormed :=
  h.wellFormed.dag

/-- In a regular graph the name at the start of an arc has no arrow. -/
lemma arrowFree_src (h : g.Regular) {a : Arc Edge} (ha : a ∈ g.dag.arcs) : ArrowFree a.src :=
  h.arrowFree _ (h.dag.src_mem a ha)

/-- In a regular graph what an arc starts from has no arrow in its name. -/
lemma arrowFree_of_hasArc (h : g.Regular) {x y : String} (hxy : g.dag.hasArc x y) : ArrowFree x :=
  h.arrowFree x (Digraph.hasVertex_iff.1 (h.dag.hasVertex_src hxy))

/-- The registered identifiers are identifiers of edges. -/
lemma exists_arc_of_registered (h : g.Regular) {id : EdgeId} (hid : g.isRegistered id) :
    ∃ a ∈ g.dag.arcs, id = .arc a.src a.dst := by
  obtain ⟨x, y, hxy, rfl⟩ := exists_hasArc (h.sound.registered id hid)
  obtain ⟨a, ha, rfl, rfl⟩ := Digraph.hasArc_iff.1 hxy
  exact ⟨a, ha, rfl⟩

end Regular

end OpGraph.Graph
