import Mathlib
import OpGraph.Proofs.Reach

/-!
# Digraphs that calls lead to

Whatever is called on an empty digraph, and whether the calls succeed or fail, its arcs are listed once at both of their
ends, all of them join vertices, and none closes a cycle. In such a digraph an arc can be added exactly when nothing
speaks against it.
-/

namespace OpGraph.Digraph

open Relation

variable {α β : Type}

/-! ### Calls -/

/-- What can be called on a digraph. -/
inductive Call (α β : Type) where
  | addVertex (k : String) (val : α)
  | addVertexAt (k : String) (val : α) (seq : UInt64)
  | setVertex (k : String) (val : α)
  | removeVertex (k : String)
  | addArc (src dst : String) (val : β)
  | setArc (src dst : String) (val : β)
  | removeArc (src dst : String)
  | clone (f : α → α) (h : β → β)

/-- Makes a call, of which only the digraph matters here. -/
def call (g : Digraph α β) : Call α β → Except Error (Digraph α β)
  | .addVertex k val => g.addVertex k val
  | .addVertexAt k val seq => g.addVertexAt k val seq
  | .setVertex k val => g.setVertex k val
  | .removeVertex k => Prod.fst <$> g.removeVertex k
  | .addArc src dst val => g.addArc src dst val
  | .setArc src dst val => g.setArc src dst val
  | .removeArc src dst => Prod.fst <$> g.removeArc src dst
  | .clone f h => .ok (g.mapPayloads f h)

/-- Makes a call if it is allowed, and none otherwise. -/
def perform (g : Digraph α β) (c : Call α β) : Digraph α β :=
  (g.call c).toOption.getD g

/-- The digraph that calls lead to from an empty one. -/
def afterCalls (cs : List (Call α β)) : Digraph α β :=
  cs.foldl perform ∅

/-! ### Other payloads -/

/-- A digraph has the same arcs as another one if they have the same ends. -/
lemma hasArc_of_ends {γ δ : Type} {g : Digraph α β} {g' : Digraph γ δ}
    (he : (g'.arcs.map fun a => (a.src, a.dst)) = g.arcs.map fun a => (a.src, a.dst)) {x y : String} :
    g'.hasArc x y ↔ g.hasArc x y := by
  have hmem := congrArg ((x, y) ∈ ·) he
  simpa [hasArc_iff] using hmem

/-- A new payload of an arc leaves the shape as it is. -/
lemma sameShape_setArc {g g' : Digraph α β} {src dst : String} {val : β} (h : g.setArc src dst val = .ok g') :
    SameShape g g' := by
  unfold setArc at h
  split at h
  · cases h
    refine ⟨rfl, ?_, rfl, rfl, rfl⟩
    rw [List.map_map]
    refine List.map_congr_left fun a _ => ?_
    rw [Function.comp_apply]
    split <;> rfl
  · cases h

/-- New payloads leave the shape as it is. -/
lemma sameShape_mapPayloads {γ δ : Type} (g : Digraph α β) (f : α → γ) (h : β → δ) :
    SameShape g (g.mapPayloads f h) := by
  refine ⟨?_, ?_, rfl, rfl, rfl⟩
  · rw [keys, mapPayloads, List.map_map]
    rfl
  · rw [mapPayloads, List.map_map]
    rfl

/-! ### What calls keep -/

/-- The rules that hold of a digraph at any time. -/
structure Consistent (g : Digraph α β) : Prop extends WellFormed g where
  acyclic : g.Acyclic

namespace Consistent

variable {g g' : Digraph α β}

/-- Nothing is wrong with an empty digraph. -/
lemma empty : (∅ : Digraph α β).Consistent :=
  ⟨wellFormed_empty, acyclic_empty⟩

/-- Payloads do not matter. -/
lemma of_shape {γ δ : Type} {g' : Digraph γ δ} (h : g.Consistent) (hs : SameShape g g') : g'.Consistent :=
  ⟨h.toWellFormed.of_shape hs, h.acyclic.mono fun _ _ => (hasArc_of_ends hs.ends).1⟩

/-- Adding a vertex keeps a digraph consistent. -/
lemma addVertexAt (h : g.Consistent) {k : String} {val : α} {seq : UInt64} (he : g.addVertexAt k val seq = .ok g') :
    g'.Consistent :=
  ⟨h.toWellFormed.addVertexAt he, h.acyclic.of_subset fun _ ha => arcs_addVertexAt he ▸ ha⟩

/-- Dropping a vertex keeps a digraph consistent. -/
lemma dropVertex (h : g.Consistent) (k : String) : (g.dropVertex k).Consistent :=
  ⟨h.toWellFormed.dropVertex k, h.acyclic.of_subset fun _ ha => (h.toWellFormed.mem_arcs_dropVertex.1 ha).1⟩

/-- Dropping an arc keeps a digraph consistent. -/
lemma dropArc (h : g.Consistent) (src dst : String) : (g.dropArc src dst).Consistent :=
  ⟨h.toWellFormed.dropArc src dst, h.acyclic.of_subset fun _ ha => (mem_arcs_dropArc.1 ha).1⟩

/-- A call that succeeds keeps the rules. -/
lemma call (h : g.Consistent) {c : Call α β} (he : g.call c = .ok g') : g'.Consistent := by
  cases c with
  | addVertex k val => exact h.addVertexAt he
  | addVertexAt k val seq => exact h.addVertexAt he
  | setVertex k val => exact h.of_shape (sameShape_setVertex he)
  | removeVertex k =>
    obtain ⟨r, hr, rfl⟩ := map_eq_ok.1 he
    unfold removeVertex at hr
    split at hr
    · cases hr
      exact h.dropVertex k
    · cases hr
  | addArc src dst val => exact ⟨h.toWellFormed.addArc he, h.toWellFormed.acyclic_addArc h.acyclic he⟩
  | setArc src dst val => exact h.of_shape (sameShape_setArc he)
  | removeArc src dst =>
    obtain ⟨r, hr, rfl⟩ := map_eq_ok.1 he
    unfold removeArc at hr
    split at hr
    · cases hr
      exact h.dropArc src dst
    · cases hr
  | clone f k =>
    cases he
    exact h.of_shape (sameShape_mapPayloads g f k)

/-- Every call keeps a digraph consistent. -/
lemma perform (h : g.Consistent) (c : Call α β) : (g.perform c).Consistent := by
  unfold Digraph.perform
  cases hc : g.call c with
  | error e => exact h
  | ok g' => exact h.call hc

/-- Any calls on an empty digraph leave it consistent. -/
lemma afterCalls (cs : List (Call α β)) : (afterCalls cs).Consistent :=
  List.foldlRecOn cs _ .empty fun _ hg c _ => hg.perform c

end Consistent

/-! ### Both ends of an arc -/

/-- The lists of neighbours, the payloads and the counter agree: what is listed at one end of an arc is listed at the
other one, there is a payload for it, nothing is listed twice, and the counter says how much is listed. -/
structure Linked (g : Digraph α β) : Prop where
  keys_nodup : g.keys.Nodup
  succs_nodup : ∀ u, (g.succs u).Nodup
  preds_nodup : ∀ v, (g.preds v).Nodup
  mem_preds_iff : ∀ {u v}, u ∈ g.preds v ↔ v ∈ g.succs u
  hasArc_iff : ∀ {u v}, g.hasArc u v ↔ v ∈ g.succs u
  hasVertex : ∀ {u v}, v ∈ g.succs u → g.hasVertex u ∧ g.hasVertex v
  arcCount_eq : g.arcCount = (g.keys.map fun u => (g.succs u).length).sum

/-- A well-formed digraph is linked, for its lists are read off its arcs. -/
lemma WellFormed.linked {g : Digraph α β} (wf : g.WellFormed) : g.Linked where
  keys_nodup := wf.keys_nodup
  succs_nodup := wf.succs_nodup
  preds_nodup := wf.preds_nodup
  mem_preds_iff := wf.mem_preds.trans wf.mem_succs.symm
  hasArc_iff := wf.mem_succs.symm
  hasVertex := fun hv => ⟨wf.hasVertex_src (wf.mem_succs.1 hv), wf.hasVertex_dst (wf.mem_succs.1 hv)⟩
  arcCount_eq := by
    rw [wf.arcCount_eq, ← wf.arcsBySource_perm.length_eq, arcsBySource, List.length_flatMap]
    simp only [← wf.map_dst_outArcs, List.length_map]

/-- An arc can be added exactly when its ends are different vertices, it is not there yet and no path leads back. -/
lemma WellFormed.exists_addArc_iff {g : Digraph α β} (wf : g.WellFormed) {u v : String} {val : β} :
    (∃ g', g.addArc u v val = .ok g') ↔
      u ≠ v ∧ g.hasVertex u ∧ g.hasVertex v ∧ ¬ g.hasArc u v ∧ ¬ ReflTransGen g.Adj v u := by
  simp only [addArc_ok_iff, wf.proper.reachable_iff]
  constructor
  · rintro ⟨g', hne, hu, hv, harc, hpath, -⟩
    exact ⟨hne, hu, hv, harc, fun h => hpath ⟨hv, h⟩⟩
  · rintro ⟨hne, hu, hv, harc, hpath⟩
    exact ⟨_, hne, hu, hv, harc, fun h => hpath h.2, rfl⟩

/-- Whatever was called on an empty digraph, its neighbours and its arcs agree, it has no cycle, and an arc is accepted
exactly when its ends are different vertices, it is not there yet and no path leads back. -/
theorem linked_afterCalls (cs : List (Call α β)) :
    (afterCalls cs).Linked ∧ (afterCalls cs).Acyclic ∧
      ∀ {u v val}, (∃ g, (afterCalls cs).addArc u v val = .ok g) ↔
        u ≠ v ∧ (afterCalls cs).hasVertex u ∧ (afterCalls cs).hasVertex v ∧ ¬ (afterCalls cs).hasArc u v ∧
          ¬ ReflTransGen (afterCalls cs).Adj v u := by
  have h := Consistent.afterCalls cs
  exact ⟨h.toWellFormed.linked, h.acyclic, h.toWellFormed.exists_addArc_iff⟩

end OpGraph.Digraph
