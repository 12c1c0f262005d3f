import Mathlib
import OpGraph.Proofs.Sandbox.Commit

/-!
# Notes on moved edges

Of every edge that it moves, a sandbox notes what the edge is called in the graph and where it is now.
-/

namespace OpGraph.Sandbox

/-- What an edge is called in the graph. -/
def baseId (s : Sandbox) (e : Edge) : EdgeId :=
  s.origin.getD e.id e.id

/-- Edges to be moved, each with its new place, can be told apart from each other and from where they are moved to. -/
structure Apart (ms : List (Edge × Edge)) : Prop where
  nodup : (ms.map fun m => m.1.id).Nodup
  old_ne : ∀ m ∈ ms, ∀ m' ∈ ms, m'.1.id ≠ m.2.id

section Append

variable {ms ms' : List (Edge × Edge)}

lemma Apart.left (h : Apart (ms ++ ms')) : Apart ms :=
  ⟨(List.nodup_append.1 (List.map_append ▸ h.nodup)).1,
    fun m hm m' hm' => h.old_ne m (List.mem_append_left _ hm) m' (List.mem_append_left _ hm')⟩

lemma Apart.right (h : Apart (ms ++ ms')) : Apart ms' :=
  ⟨(List.nodup_append.1 (List.map_append ▸ h.nodup)).2.1,
    fun m hm m' hm' => h.old_ne m (List.mem_append_right _ hm) m' (List.mem_append_right _ hm')⟩

/-- Moves from two lists that are apart start from different edges. -/
lemma Apart.ne (h : Apart (ms ++ ms')) {m m' : Edge × Edge} (hm : m ∈ ms) (hm' : m' ∈ ms') : m.1.id ≠ m'.1.id :=
  (List.nodup_append.1 (List.map_append ▸ h.nodup)).2.2 _ (List.mem_map.2 ⟨m, hm, rfl⟩) _
  (List.mem_map.2 ⟨m', hm', rfl⟩)

end Append

/-- Edges to be moved can also be told apart from the edges that stay where they are. -/
structure Movable (s : Sandbox) (ms : List (Edge × Edge)) : Prop extends Apart ms where
  payload : ∀ a ∈ s.dag.arcs, a.val.toArc = a ∧ ArrowFree a.src
  moving : ∀ a ∈ s.dag.arcs, ∀ m ∈ ms, m.1.id ≠ a.val.id
  arrowFree : ∀ m ∈ ms, ArrowFree m.2.src

lemma Movable.left {s : Sandbox} {ms ms' : List (Edge × Edge)} (h : Movable s (ms ++ ms')) : Movable s ms :=
  ⟨h.toApart.left, h.payload, fun a ha m hm => h.moving a ha m (List.mem_append_left _ hm),
    fun m hm => h.arrowFree m (List.mem_append_left _ hm)⟩

/-- Of the edges that are moved to one place this is the first. -/
def Leading (ms : List (Edge × Edge)) (m : Edge × Edge) : Prop :=
  ms.find? (fun m' => m'.2.id == m.2.id) = some m

lemma Leading.mem {ms : List (Edge × Edge)} {m : Edge × Edge} (h : Leading ms m) : m ∈ ms :=
  List.mem_of_find?_eq_some h

/-- What the moved edges and the others are called after some edges were moved: what they were called before. Where
several were moved to one place, the edge there is called after the first of them. -/
def Called (s : Sandbox) (ms : List (Edge × Edge)) (t : Sandbox) : Prop :=
  ∀ a ∈ t.dag.arcs, (a ∈ s.dag.arcs ∧ t.baseId a.val = s.baseId a.val) ∨
    ∃ m, Leading ms m ∧ ¬ s.dag.hasArc m.2.src m.2.dst ∧ a = m.2.toArc ∧ t.baseId m.2 = s.baseId m.1

/-- What is noted when edges are moved one after the other: where they are now, and of all others nothing new. -/
structure Noted (s : Sandbox) (ms : List (Edge × Edge)) (t : Sandbox) : Prop where
  renamed : ∀ {b id}, t.renamed.get? b = some id → s.renamed.get? b = some id ∨ ∃ m ∈ ms, s.baseId m.1 = b ∧ m.2.id = id
  moved : (ms.map fun m => s.baseId m.1).Nodup → ∀ m ∈ ms, t.renamed.get? (s.baseId m.1) = some m.2.id
  still : ∀ {b}, (∀ m ∈ ms, s.baseId m.1 ≠ b) → t.renamed.get? b = s.renamed.get? b
  origin : ∀ {id}, (∀ m ∈ ms, m.1.id ≠ id ∧ m.2.id ≠ id) → t.origin.get? id = s.origin.get? id

namespace Noted

variable {s t u : Sandbox} {ms ms' : List (Edge × Edge)}

lemma of_moves (h : t.moves = s.moves) : Noted s [] t := by
  obtain ⟨-, horigin, hrenamed⟩ := moves_eq_iff.1 h
  exact ⟨fun hb => .inl (hrenamed ▸ hb), fun _ => List.forall_mem_nil _, fun _ => by rw [hrenamed],
    fun _ => by rw [horigin]⟩

/-- Moving one edge. -/
lemma of_rewired {old new : Edge} (hr : Rewired s old new t) : Noted s [(old, new)] t := by
  refine ⟨fun {b id} hb => ?_, fun _ m hm => ?_, fun {b} hb => ?_, fun {id} hne => ?_⟩
  · rw [hr.get?_renamed] at hb
    split at hb
    · rename_i hbase
      cases hb
      exact .inr ⟨_, List.mem_singleton_self _, hbase.symm, rfl⟩
    · exact .inl hb
  · rw [List.mem_singleton.1 hm, hr.get?_renamed]
    exact if_pos rfl
  · rw [hr.get?_renamed]
    exact if_neg fun he => hb _ (List.mem_singleton_self _) he.symm
  · obtain ⟨hold, hnew⟩ := hne _ (List.mem_singleton_self _)
    rw [hr.origin, if_neg fun he => hnew he.1.symm, if_neg fun he => hold he.symm]

/-- Edges that are still in hand are called what they were called before. -/
lemma baseId_eq (h : Noted s ms t) (ha : Apart (ms ++ ms')) {m : Edge × Edge} (hm : m ∈ ms') :
    t.baseId m.1 = s.baseId m.1 := by
  have horigin := h.origin fun m' hm' =>
    ⟨ha.ne hm' hm, (ha.old_ne m' (List.mem_append_left _ hm') m (List.mem_append_right _ hm)).symm⟩
  rw [baseId, baseId, Dict.getD, Dict.getD, horigin]

/-- Moving more edges. -/
lemma trans (h : Noted s ms t) (h' : Noted t ms' u) (ha : Apart (ms ++ ms')) : Noted s (ms ++ ms') u := by
  refine ⟨fun {b id} hb => ?_, fun hnodup m hm => ?_, fun {b} hb => ?_, fun {id} hne => ?_⟩
  · rcases h'.renamed hb with hb | ⟨m, hm, rfl, rfl⟩
    · rcases h.renamed hb with hb | ⟨m, hm, hid⟩
      · exact .inl hb
      · exact .inr ⟨m, List.mem_append_left _ hm, hid⟩
    · exact .inr ⟨m, List.mem_append_right _ hm, (h.baseId_eq ha hm).symm, rfl⟩
  · rw [List.map_append, List.nodup_append] at hnodup
    obtain ⟨hleft, hright, happart⟩ := hnodup
    rcases List.mem_append.1 hm with hm | hm
    · rw [h'.still fun m' hm' => ?_]
      · exact h.moved hleft m hm
      · rw [h.baseId_eq ha hm']
        exact (happart _ (List.mem_map_of_mem hm) _ (List.mem_map_of_mem hm')).symm
    · rw [← h.baseId_eq ha hm]
      refine h'.moved ?_ m hm
      rwa [List.map_congr_left fun m hm => h.baseId_eq ha hm]
  · rw [h'.still fun m hm => ?_, h.still fun m hm => hb m (List.mem_append_left _ hm)]
    rw [h.baseId_eq ha hm]
    exact hb m (List.mem_append_right _ hm)
  · rw [h'.origin fun m hm => hne m (List.mem_append_right _ hm),
      h.origin fun m hm => hne m (List.mem_append_left _ hm)]

end Noted

namespace Called

variable {s t u : Sandbox} {ms ms' : List (Edge × Edge)}

lemma of_moves (harcs : ∀ a ∈ t.dag.arcs, a ∈ s.dag.arcs) (hmoves : t.moves = s.moves) : Called s [] t := by
  intro a ha
  rw [baseId, baseId, (moves_eq_iff.1 hmoves).2.1]
  exact .inl ⟨harcs a ha, rfl⟩

/-- Moving one edge: if there is an edge in the new place, it goes on to be called what it is called. -/
lemma of_rewired {old new : Edge} (hm : Movable s [(old, new)]) (hr : Rewired s old new t)
    (harcs : ∀ a ∈ t.dag.arcs, a ∈ s.dag.arcs ∨ a = new.toArc ∧ ¬ s.dag.hasArc new.src new.dst) :
    Called s [(old, new)] t := by
  intro a ha
  rcases harcs a ha with ha | ⟨rfl, hno⟩
  · refine .inl ⟨ha, ?_⟩
    have hold : a.val.id ≠ old.id := (hm.moving a ha _ (List.mem_singleton_self _)).symm
    have hnew : ¬ (a.val.id = new.id ∧ ¬ s.dag.hasArc new.src new.dst) := by
      rintro ⟨hid, hno⟩
      obtain ⟨hval, haf⟩ := hm.payload a ha
      rw [← hval] at haf
      obtain ⟨hsrc, hdst⟩ := (EdgeId.arc_inj haf (hm.arrowFree _ (List.mem_singleton_self _))).1 hid
      refine hno (Digraph.hasArc_iff.2 ⟨a, ha, ?_, ?_⟩)
      · rw [← hsrc, ← hval]
        rfl
      · rw [← hdst, ← hval]
        rfl
    rw [baseId, baseId, Dict.getD, Dict.getD, hr.origin, if_neg hnew, if_neg hold]
  · refine .inr ⟨(old, new), ?_, hno, rfl, ?_⟩
    · exact List.find?_cons_of_pos (beq_self_eq_true _)
    · rw [baseId, Dict.getD, hr.origin, if_pos ⟨rfl, hno⟩]
      rfl

/-- Only edges and the notes on them matter. -/
lemma congr (h : Called s ms t) (hdag : u.dag = t.dag) (hmoves : u.moves = t.moves) : Called s ms u := by
  simp only [Called, baseId, hdag, (moves_eq_iff.1 hmoves).2.1]
  exact h

/-- Forgetting the notes on edges that are gone. -/
lemma pruneRenames {g : Graph} {o : Sandbox} (h : Called s ms t) (ht : Tracks g o t) : Called s ms t.pruneRenames := by
  intro a ha
  have hedge : t.hasEdge a.val.id := by
    rw [Edge.id, (ht.payload a ha).1, (ht.payload a ha).2]
    exact ht.hasEdge_iff.2 ⟨a.src, a.dst, Digraph.hasArc_of_mem ha, rfl⟩
  have hbase : t.pruneRenames.baseId a.val = t.baseId a.val := by
    have horigin : t.pruneRenames.origin.get? a.val.id = t.origin.get? a.val.id := by
      refine Option.ext fun b => ?_
      rw [get?_origin_pruneRenames]
      exact and_iff_left hedge
    rw [baseId, baseId, Dict.getD, Dict.getD, horigin]
  rcases h a ha with ⟨ha, he⟩ | ⟨m, hm, hno, rfl, he⟩
  · exact .inl ⟨ha, hbase.trans he⟩
  · exact .inr ⟨m, hm, hno, rfl, hbase.trans he⟩

/-- Edges that were taken out before do not matter, if none of the places is where an edge was. -/
lemma of_fewer {r : Sandbox} (h : Called r ms t) (harcs : ∀ a ∈ r.dag.arcs, a ∈ s.dag.arcs) (hmoves : r.moves = s.moves)
    (hnew : ∀ m ∈ ms, ¬ s.dag.hasArc m.2.src m.2.dst) : Called s ms t := by
  have hbase : ∀ e, r.baseId e = s.baseId e := by
    intro e
    rw [baseId, baseId, (moves_eq_iff.1 hmoves).2.1]
  intro a ha
  rcases h a ha with ⟨ha, he⟩ | ⟨m, hm, -, rfl, he⟩
  · exact .inl ⟨harcs a ha, he.trans (hbase _)⟩
  · exact .inr ⟨m, hm, hnew m hm.mem, rfl, he.trans (hbase _)⟩

/-- Moving more edges: where one was moved to before, the edge there is called after that one. -/
lemma trans (h : Called s ms t) (hn : Noted s ms t) (h' : Called t ms' u) (hm : Movable s (ms ++ ms'))
    (hkept : ∀ {x y}, s.dag.hasArc x y → t.dag.hasArc x y) (hplaced : ∀ m ∈ ms, t.dag.hasArc m.2.src m.2.dst) :
    Called s (ms ++ ms') u := by
  intro a ha
  rcases h' a ha with ⟨ha, hbase⟩ | ⟨m, hlead, hno, rfl, hbase⟩
  · rcases h a ha with ⟨ha, hbase'⟩ | ⟨m, hlead, hno, rfl, hbase'⟩
    · exact .inl ⟨ha, hbase.trans hbase'⟩
    · refine .inr ⟨m, ?_, hno, rfl, hbase.trans hbase'⟩
      rw [Leading, List.find?_append, show ms.find? _ = some m from hlead, Option.some_or]
  · have hmem := List.mem_append_right ms hlead.mem
    refine .inr ⟨m, ?_, fun harc => hno (hkept harc), rfl, hbase.trans (hn.baseId_eq hm.toApart hlead.mem)⟩
    have hnone : ms.find? (fun m' => m'.2.id == m.2.id) = none := by
      rw [List.find?_eq_none]
      intro m' hm' hid
      obtain ⟨hsrc, hdst⟩ := (EdgeId.arc_inj (hm.arrowFree m' (List.mem_append_left _ hm')) (hm.arrowFree m hmem)).1
        (beq_iff_eq.1 hid)
      exact hno (hsrc ▸ hdst ▸ hplaced m' hm')
    rw [Leading, List.find?_append, hnone, Option.none_or]
    exact hlead

end Called

/-- The edges still in hand can be told apart from those that are there after some were moved. -/
lemma Movable.right {s t : Sandbox} {ms ms' : List (Edge × Edge)} (h : Movable s (ms ++ ms')) (hc : Called s ms t) :
    Movable t ms' := by
  refine ⟨h.toApart.right, fun a ha => ?_, fun a ha m hm => ?_, fun m hm => h.arrowFree m (List.mem_append_right _ hm)⟩
  · rcases hc a ha with ⟨ha, -⟩ | ⟨m, hm, -, rfl, -⟩
    · exact h.payload a ha
    · exact ⟨rfl, h.arrowFree m (List.mem_append_left _ hm.mem)⟩
  · rcases hc a ha with ⟨ha, -⟩ | ⟨m', hm', -, rfl, -⟩
    · exact h.moving a ha m (List.mem_append_right _ hm)
    · exact h.old_ne m' (List.mem_append_left _ hm'.mem) m (List.mem_append_right _ hm)

end OpGraph.Sandbox
