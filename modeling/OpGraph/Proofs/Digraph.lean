import Mathlib
import OpGraph.Digraph.Basic
import OpGraph.Proofs.Lookup

/-!
# Well-formed digraphs

A digraph is well-formed when its vertices have distinct names, its arcs have distinct pairs of ends, every end of an
arc is a vertex, and what is written down about an arc at its source and at its target agrees with the arcs themselves.
Every change of a digraph keeps it so, and what can be looked up afterwards is said for each of them. What only depends
on the paths of a digraph holds of the proper ones, which may list an arc several times.
-/

namespace OpGraph.Digraph

variable {α β : Type}

variable {g g' : Digraph α β} {k src dst j x y : String} {v : Vertex α} {a : Arc β} {arcs : List (Arc β)} {val : α}
  {seq : UInt64}

/-- The vertices have distinct names, the arcs have distinct pairs of ends, the ends are vertices, and the lists of
neighbours and the counter say the same as the arcs. -/
structure WellFormed (g : Digraph α β) : Prop where
  keys_nodup : g.keys.Nodup
  arcs_nodup : (g.arcs.map fun a => (a.src, a.dst)).Nodup
  src_mem : ∀ a ∈ g.arcs, a.src ∈ g.keys
  dst_mem : ∀ a ∈ g.arcs, a.dst ∈ g.keys
  out_get : ∀ k, g.out.get? k = if k ∈ g.keys then some (targets g.arcs k) else none
  into_get : ∀ k, g.into.get? k = if k ∈ g.keys then some (sources g.arcs k) else none
  arcCount_eq : g.arcCount = g.arcs.length

/-- The vertices have distinct names, arcs lead from vertices to vertices, and both ends of an arc list it, equally
often. -/
structure Proper (g : Digraph α β) : Prop where
  keys_nodup : g.keys.Nodup
  hasVertex_src : ∀ {src dst}, g.hasArc src dst → g.hasVertex src
  hasVertex_dst : ∀ {src dst}, g.hasArc src dst → g.hasVertex dst
  mem_succs : ∀ {k j}, j ∈ g.succs k ↔ g.hasArc k j
  count_preds : ∀ k j, (g.preds j).count k = (g.succs k).count j

/-- The empty digraph is well-formed. -/
lemma wellFormed_empty : (∅ : Digraph α β).WellFormed :=
  ⟨List.nodup_nil, List.nodup_nil, List.forall_mem_nil _, List.forall_mem_nil _, fun _ => rfl, fun _ => rfl, rfl⟩

/-! ### Views -/

/-- A vertex is there exactly if its name is listed. -/
lemma hasVertex_iff : g.hasVertex k ↔ k ∈ g.keys := by
  simp [hasVertex, vertex?, keys, List.find?_isSome]

/-- A vertex is there exactly if it can be looked up. -/
lemma hasVertex_iff_exists : g.hasVertex k ↔ ∃ v, g.vertex? k = some v := by
  simp [hasVertex, Option.isSome_iff_exists]

/-- A vertex cannot be looked up exactly if its name is not listed. -/
lemma vertex?_eq_none_iff : g.vertex? k = none ↔ k ∉ g.keys := by
  rw [← hasVertex_iff, hasVertex]
  simp

/-- What is looked up under a name has that name. -/
lemma key_of_vertex? (h : g.vertex? k = some v) : v.key = k := by
  simpa using List.find?_some h

/-- What is looked up is a vertex. -/
lemma mem_of_vertex? (h : g.vertex? k = some v) : v ∈ g.vertices :=
  List.mem_of_find?_eq_some h

/-- A list with distinct keys finds every one of its elements by its key. -/
lemma find?_eq_some_of_nodup {γ κ : Type} [BEq κ] [LawfulBEq κ] (f : γ → κ) :
    ∀ {xs : List γ} {x : γ}, (xs.map f).Nodup → x ∈ xs → xs.find? (fun y => f y == f x) = some x
  | [], _, _, h => by cases h
  | y :: ys, x, hn, h => by
    rw [List.map_cons, List.nodup_cons] at hn
    rcases List.mem_cons.1 h with rfl | h
    · simp
    · have hne : f y ≠ f x := fun e => hn.1 (e ▸ List.mem_map_of_mem h)
      rw [List.find?_cons_of_neg (by simpa using hne)]
      exact find?_eq_some_of_nodup f hn.2 h

/-- A vertex is found under its name, and nothing else is. -/
lemma WellFormed.vertex?_eq_some_iff (wf : g.WellFormed) : g.vertex? k = some v ↔ v ∈ g.vertices ∧ v.key = k := by
  constructor
  · intro h
    exact ⟨mem_of_vertex? h, key_of_vertex? h⟩
  · rintro ⟨hv, rfl⟩
    exact find?_eq_some_of_nodup (fun v : Vertex α => v.key) wf.keys_nodup hv

/-- An arc is there exactly if one with these ends is listed. -/
lemma hasArc_iff : g.hasArc src dst ↔ ∃ a ∈ g.arcs, a.src = src ∧ a.dst = dst := by
  simp [hasArc, arc?, List.find?_isSome]

/-- An arc that is listed is there. -/
lemma hasArc_of_mem (h : a ∈ g.arcs) : g.hasArc a.src a.dst :=
  hasArc_iff.2 ⟨a, h, rfl, rfl⟩

/-- An arc is there exactly if it can be looked up. -/
lemma hasArc_iff_exists : g.hasArc src dst ↔ ∃ a, g.arc? src dst = some a := by
  simp [hasArc, Option.isSome_iff_exists]

/-- What is looked up is an arc. -/
lemma mem_of_arc? (h : g.arc? src dst = some a) : a ∈ g.arcs :=
  List.mem_of_find?_eq_some h

/-- What is looked up between two ends has these ends. -/
lemma ends_of_arc? (h : g.arc? src dst = some a) : a.src = src ∧ a.dst = dst := by
  simpa using List.find?_some h

/-- An arc is found between its ends. -/
lemma WellFormed.arc?_of_mem (wf : g.WellFormed) (h : a ∈ g.arcs) : g.arc? a.src a.dst = some a := by
  have hf := find?_eq_some_of_nodup (fun a : Arc β => (a.src, a.dst)) wf.arcs_nodup h
  rw [← hf, arc?]
  congr 1

/-- Two arcs with the same ends are the same. -/
lemma WellFormed.arc_unique (wf : g.WellFormed) {b : Arc β} (ha : a ∈ g.arcs) (hb : b ∈ g.arcs)
    (hs : a.src = b.src) (hd : a.dst = b.dst) : a = b := by
  have h := wf.arc?_of_mem ha
  rw [hs, hd, wf.arc?_of_mem hb] at h
  cases h
  rfl

/-! ### Neighbours -/

section ends

variable {near far : Arc β → String} {arcs : List (Arc β)}

/-- The far ends of a name belong to the arcs that have it as their near end. -/
lemma mem_ends : j ∈ ends near far arcs k ↔ ∃ a ∈ arcs, near a = k ∧ far a = j := by
  simp [ends, and_assoc]

/-- Only the two ends of the arcs matter, not their payloads. -/
lemma ends_eq_map (k : String) :
    ends near far arcs k = ((arcs.map fun a => (near a, far a)).filter (·.1 == k)).map (·.2) := by
  simp [ends, List.filter_map, Function.comp_def]

/-- Arcs with distinct pairs of ends have distinct far ends at one near end. -/
lemma ends_nodup (h : (arcs.map fun a => (near a, far a)).Nodup) (k : String) : (ends near far arcs k).Nodup := by
  rw [ends_eq_map]
  refine (h.filter _).map_on ?_
  rintro ⟨x, y⟩ hp ⟨x', y'⟩ hq rfl
  have hx : x = k := by simpa using (List.mem_filter.1 hp).2
  have hx' : x' = k := by simpa using (List.mem_filter.1 hq).2
  rw [hx, hx']

/-- A name that is the near end of no arc has no far ends. -/
lemma ends_eq_nil (h : ∀ a ∈ arcs, near a ≠ k) : ends near far arcs k = [] := by
  rw [List.eq_nil_iff_forall_not_mem]
  intro j hj
  obtain ⟨a, ha, hk, -⟩ := mem_ends.1 hj
  exact h a ha hk

/-- One more arc adds its far end at its near end. -/
lemma ends_concat (a : Arc β) (k : String) :
    ends near far (arcs ++ [a]) k = if k = near a then ends near far arcs k ++ [far a] else ends near far arcs k := by
  by_cases h : k = near a
  · simp [ends, h]
  · simp [ends, h, Ne.symm h]

/-- Of arcs with distinct pairs of ends, taking one out takes its far end out of those of its near end. -/
lemma ends_filter (h : (arcs.map fun a => (near a, far a)).Nodup) (x y k : String) :
    ends near far (arcs.filter fun a => !(near a == x && far a == y)) k =
      if k = x then (ends near far arcs k).erase y else ends near far arcs k := by
  have hsplit : ∀ a, ((near a == k) && !(near a == x && far a == y)) =
      ((if k = x then far a != y else true) && (near a == k)) := by
    intro a
    by_cases ha : near a = k
    · by_cases hk : k = x <;> simp [ha, hk, bne]
    · simp [beq_eq_false_iff_ne.2 ha]
  rw [ends, List.filter_filter, List.filter_congr fun a _ => hsplit a, ← List.filter_filter]
  split
  · rw [(ends_nodup h k).erase_eq_filter, ends, List.filter_map]
    rfl
  · simp [ends]

end ends

/-- A name is among the targets of another one if an arc leads to it. -/
lemma mem_targets : j ∈ targets arcs k ↔ ∃ a ∈ arcs, a.src = k ∧ a.dst = j :=
  mem_ends

/-- A name is among the sources of another one if an arc leads from it. -/
lemma mem_sources : j ∈ sources arcs k ↔ ∃ a ∈ arcs, a.src = j ∧ a.dst = k := by
  rw [sources, mem_ends]
  exact exists_congr fun a => and_congr_right fun _ => and_comm

/-- Pairs of ends that are distinct stay so the other way round. -/
lemma nodup_swap (h : (arcs.map fun a => (a.src, a.dst)).Nodup) : (arcs.map fun a => (a.dst, a.src)).Nodup := by
  have hs := h.map Prod.swap_injective
  rwa [List.map_map] at hs

/-- A name is listed as often among the sources of another one as that one is among its targets. -/
lemma count_sources (arcs : List (Arc β)) (k j : String) : (sources arcs j).count k = (targets arcs k).count j := by
  have hcount : ∀ near far : Arc β → String, ∀ x y : String,
      (ends near far arcs x).count y = arcs.countP fun a => far a == y && near a == x := by
    intro near far x y
    rw [ends, List.count, List.countP_map, List.countP_filter]
    rfl
  rw [sources, targets, hcount, hcount]
  exact List.countP_congr fun a _ => by rw [Bool.and_comm]

/-- A table that has the far ends of arcs under every name that is a near end gives them for all names. -/
lemma getD_ends {near far : Arc β → String} {keys : List String} {table : Dict (List String)}
    (ht : ∀ k, table.get? k = if k ∈ keys then some (ends near far arcs k) else none) (hn : ∀ a ∈ arcs, near a ∈ keys)
    (k : String) : table.getD k [] = ends near far arcs k := by
  rw [Dict.getD, ht]
  split
  · rfl
  · rename_i hk
    exact (ends_eq_nil fun a ha (he : near a = k) => hk (he ▸ hn a ha)).symm

/-- Arcs between vertices make a proper digraph if their lists are read off them, also if some join the same two. -/
lemma proper_of_ends (hk : g.keys.Nodup) (hs : ∀ a ∈ g.arcs, a.src ∈ g.keys)
    (hd : ∀ a ∈ g.arcs, a.dst ∈ g.keys) (hout : ∀ k, g.succs k = targets g.arcs k)
    (hinto : ∀ k, g.preds k = sources g.arcs k) : g.Proper where
  keys_nodup := hk
  hasVertex_src := fun h => by
    obtain ⟨a, ha, rfl, rfl⟩ := hasArc_iff.1 h
    exact hasVertex_iff.2 (hs a ha)
  hasVertex_dst := fun h => by
    obtain ⟨a, ha, rfl, rfl⟩ := hasArc_iff.1 h
    exact hasVertex_iff.2 (hd a ha)
  mem_succs := by
    intro k j
    rw [hout, mem_targets, hasArc_iff]
  count_preds := fun k j => by rw [hinto, hout, count_sources]

/-- The arcs that start at a name, in their order. -/
def arcsFrom (g : Digraph α β) (k : String) : List (Arc β) :=
  g.arcs.filter (·.src == k)

/-- An arc is among those of its source. -/
lemma mem_arcsFrom : a ∈ g.arcsFrom k ↔ a ∈ g.arcs ∧ a.src = k := by
  simp [arcsFrom]

namespace WellFormed

variable {g : Digraph α β}

/-- The successors of a name are the targets of its arcs, also if it is no vertex. -/
lemma succs_eq (wf : g.WellFormed) (k : String) : g.succs k = targets g.arcs k :=
  getD_ends wf.out_get wf.src_mem k

/-- The predecessors of a name are the sources of its arcs, also if it is no vertex. -/
lemma preds_eq (wf : g.WellFormed) (k : String) : g.preds k = sources g.arcs k :=
  getD_ends wf.into_get wf.dst_mem k

/-- Both ends of an arc list it once, and no other pair is listed. -/
lemma proper (wf : g.WellFormed) : g.Proper :=
  proper_of_ends wf.keys_nodup wf.src_mem wf.dst_mem wf.succs_eq wf.preds_eq

/-- The successors of a vertex are those it has an arc to. -/
lemma mem_succs (wf : g.WellFormed) : j ∈ g.succs k ↔ g.hasArc k j := by
  rw [wf.succs_eq, mem_targets, hasArc_iff]

/-- The predecessors of a vertex are those it has an arc from. -/
lemma mem_preds (wf : g.WellFormed) : j ∈ g.preds k ↔ g.hasArc j k := by
  rw [wf.preds_eq, mem_sources, hasArc_iff]

/-- No successor is listed twice. -/
lemma succs_nodup (wf : g.WellFormed) (k : String) : (g.succs k).Nodup := by
  rw [wf.succs_eq]
  exact ends_nodup wf.arcs_nodup k

/-- No predecessor is listed twice. -/
lemma preds_nodup (wf : g.WellFormed) (k : String) : (g.preds k).Nodup := by
  rw [wf.preds_eq]
  exact ends_nodup (nodup_swap wf.arcs_nodup) k

/-- The arcs out of a vertex are those of its source, in their order. -/
lemma outArcs_eq (wf : g.WellFormed) (k : String) : g.outArcs k = g.arcsFrom k := by
  rw [outArcs, wf.succs_eq, targets, ends, List.filterMap_map]
  refine (List.filterMap_congr fun a ha => ?_).trans List.filterMap_some
  obtain ⟨ha, hk⟩ := List.mem_filter.1 ha
  rw [Function.comp_apply, ← (beq_iff_eq.1 hk : a.src = k), wf.arc?_of_mem ha]

/-- The arcs into a vertex are those of its target, in their order. -/
lemma inArcs_eq (wf : g.WellFormed) (k : String) : g.inArcs k = g.arcs.filter (·.dst == k) := by
  rw [inArcs, wf.preds_eq, sources, ends, List.filterMap_map]
  refine (List.filterMap_congr fun a ha => ?_).trans List.filterMap_some
  obtain ⟨ha, hk⟩ := List.mem_filter.1 ha
  rw [Function.comp_apply, ← (beq_iff_eq.1 hk : a.dst = k), wf.arc?_of_mem ha]

/-- An arc leaves a vertex exactly when the vertex is its source. -/
lemma mem_outArcs (wf : g.WellFormed) : a ∈ g.outArcs k ↔ a ∈ g.arcs ∧ a.src = k := by
  rw [wf.outArcs_eq, mem_arcsFrom]

/-- An arc enters a vertex exactly when the vertex is its target. -/
lemma mem_inArcs (wf : g.WellFormed) : a ∈ g.inArcs k ↔ a ∈ g.arcs ∧ a.dst = k := by
  simp [wf.inArcs_eq]

/-- The successors are the ends of the arcs out of a vertex. -/
lemma map_dst_outArcs (wf : g.WellFormed) (k : String) : (g.outArcs k).map (·.dst) = g.succs k := by
  rw [wf.outArcs_eq, wf.succs_eq, targets, ends, arcsFrom]

/-- The predecessors are the starts of the arcs into a vertex. -/
lemma map_src_inArcs (wf : g.WellFormed) (k : String) : (g.inArcs k).map (·.src) = g.preds k := by
  rw [wf.inArcs_eq, wf.preds_eq, sources, ends]

/-- The number of predecessors is that of the arcs into a vertex. -/
lemma inDegree_eq (wf : g.WellFormed) (k : String) : g.inDegree k = (g.inArcs k).length := by
  rw [inDegree, ← wf.map_src_inArcs, List.length_map]

/-- An arc starts at a vertex. -/
lemma hasVertex_src (wf : g.WellFormed) (h : g.hasArc src dst) : g.hasVertex src :=
  wf.proper.hasVertex_src h

/-- An arc ends at a vertex. -/
lemma hasVertex_dst (wf : g.WellFormed) (h : g.hasArc src dst) : g.hasVertex dst :=
  wf.proper.hasVertex_dst h

/-- All arcs are listed by their sources. -/
lemma mem_arcsBySource (wf : g.WellFormed) : a ∈ g.arcsBySource ↔ a ∈ g.arcs := by
  simp only [arcsBySource, List.mem_flatMap, wf.mem_outArcs]
  constructor
  · rintro ⟨_, -, h, -⟩
    exact h
  · intro h
    exact ⟨a.src, wf.src_mem a h, h, rfl⟩

end WellFormed

/-- Of lists with pairwise different tags, the filter for one tag gives the list of that tag. -/
lemma filter_flatMap_eq {γ : Type} (tag : γ → String) (f : String → List γ) (k : String)
    (hf : ∀ j, ∀ x ∈ f j, tag x = j) :
    ∀ {ks : List String}, ks.Nodup → (ks.flatMap f).filter (fun x => tag x == k) = if k ∈ ks then f k else []
  | [], _ => by simp
  | j :: ks, hn => by
    rw [List.nodup_cons] at hn
    rw [List.flatMap_cons, List.filter_append, filter_flatMap_eq tag f k hf hn.2]
    by_cases hj : j = k
    · subst hj
      have hall : (f j).filter (fun x => tag x == j) = f j :=
        List.filter_eq_self.2 fun x hx => by simp [hf j x hx]
      simp [hall, hn.1]
    · have hnone : (f j).filter (fun x => tag x == k) = [] :=
        List.filter_eq_nil_iff.2 fun x hx => by simp [hf j x hx, hj]
      simp [hnone, Ne.symm hj]

/-- Listing the arcs by their sources keeps the order of the arcs of each source. -/
lemma WellFormed.filter_arcsBySource (wf : g.WellFormed) (k : String) :
    g.arcsBySource.filter (fun a => a.src == k) = g.outArcs k := by
  rw [arcsBySource, filter_flatMap_eq (·.src) g.outArcs k (fun j a ha => (wf.mem_outArcs.1 ha).2) wf.keys_nodup]
  split
  · rfl
  · rename_i hk
    symm
    rw [List.eq_nil_iff_forall_not_mem]
    intro a ha
    obtain ⟨hm, rfl⟩ := wf.mem_outArcs.1 ha
    exact hk (wf.src_mem a hm)

/-- Listed by their sources, the arcs are the same ones in another order. -/
lemma WellFormed.arcsBySource_perm (wf : g.WellFormed) : g.arcsBySource.Perm g.arcs := by
  classical
  refine List.perm_iff_count.2 fun a => ?_
  -- Of the arcs of its source, both lists have the same.
  have hown : ∀ arcs : List (Arc β), (arcs.filter fun b => b.src == a.src).count a = arcs.count a :=
    fun arcs => List.count_filter (by simp)
  rw [← hown, wf.filter_arcsBySource, wf.outArcs_eq, arcsFrom, hown]

/-- A well-formed digraph is determined by its vertices, its arcs and the number it counts up. -/
lemma WellFormed.eq_of (wf : g.WellFormed) (wf' : g'.WellFormed) (hv : g'.vertices = g.vertices)
    (ha : g'.arcs = g.arcs) (hn : g'.nextSeq = g.nextSeq) : g' = g := by
  have hk : g'.keys = g.keys := by rw [keys, hv, keys]
  have hout : g'.out = g.out := Dict.ext_get? fun k => by rw [wf'.out_get, wf.out_get, hk, ha]
  have hinto : g'.into = g.into := Dict.ext_get? fun k => by rw [wf'.into_get, wf.into_get, hk, ha]
  have hcount : g'.arcCount = g.arcCount := by rw [wf'.arcCount_eq, wf.arcCount_eq, ha]
  cases g
  cases g'
  simp_all

section ofArcs

variable {vertices : List (Vertex α)} {arcs : List (Arc β)} {nextSeq : UInt64}

/-- A digraph that is made of arcs has the given vertices. -/
@[simp] lemma vertices_ofArcs : (ofArcs vertices arcs nextSeq).vertices = vertices := rfl

/-- A digraph that is made of arcs has the given arcs. -/
@[simp] lemma arcs_ofArcs : (ofArcs vertices arcs nextSeq).arcs = arcs := rfl

/-- The tables of a digraph that is made from lists are those of the arcs. -/
lemma get?_ofArcs (k : String) :
    (ofArcs vertices arcs nextSeq).out.get? k = (if k ∈ vertices.map (·.key) then some (targets arcs k) else none) ∧
      (ofArcs vertices arcs nextSeq).into.get? k = if k ∈ vertices.map (·.key) then some (sources arcs k) else none :=
  ⟨Dict.get?_ofList_map (fun v : Vertex α => v.key) (targets arcs) vertices k,
    Dict.get?_ofList_map (fun v : Vertex α => v.key) (sources arcs) vertices k⟩

/-- A list of vertices with distinct names and of arcs between them is proper. -/
lemma proper_ofArcs (hv : (vertices.map (·.key)).Nodup) (hs : ∀ a ∈ arcs, a.src ∈ vertices.map (·.key))
    (hd : ∀ a ∈ arcs, a.dst ∈ vertices.map (·.key)) : (ofArcs vertices arcs nextSeq).Proper :=
  proper_of_ends hv hs hd (getD_ends (fun k => (get?_ofArcs k).1) hs) (getD_ends (fun k => (get?_ofArcs k).2) hd)

/-- A list of vertices with distinct names and of arcs between them with distinct ends is well-formed. -/
lemma wellFormed_ofArcs (hv : (vertices.map (·.key)).Nodup) (ha : (arcs.map fun a => (a.src, a.dst)).Nodup)
    (hs : ∀ a ∈ arcs, a.src ∈ vertices.map (·.key)) (hd : ∀ a ∈ arcs, a.dst ∈ vertices.map (·.key)) :
    (ofArcs vertices arcs nextSeq).WellFormed where
  keys_nodup := hv
  arcs_nodup := ha
  src_mem := hs
  dst_mem := hd
  out_get := fun k => (get?_ofArcs k).1
  into_get := fun k => (get?_ofArcs k).2
  arcCount_eq := rfl

end ofArcs

/-! ### Adding and replacing vertices -/

/-- Placing a vertex adds it to the others. -/
lemma place_perm (v : Vertex α) : ∀ ws : List (Vertex α), (place v ws).Perm (v :: ws)
  | [] => .refl _
  | w :: ws => by
    rw [place]
    split
    · exact .refl _
    · exact ((place_perm v ws).cons w).trans (.swap v w ws)

/-- After a vertex with a new name was placed it is found, and so are all others. -/
lemma find?_place : ∀ {ws : List (Vertex α)}, (∀ w ∈ ws, w.key ≠ v.key) →
      (place v ws).find? (·.key == k) = if v.key = k then some v else ws.find? (·.key == k)
  | [], _ => by
    by_cases h : v.key = k <;> simp [place, h]
  | w :: ws, hne => by
    rw [place]
    split
    · by_cases h : v.key = k <;> simp [h]
    · have ih := @find?_place ws fun u hu => hne u (List.mem_cons_of_mem _ hu)
      by_cases hw : w.key = k
      · have hv : v.key ≠ k := fun e => hne w List.mem_cons_self (hw.trans e.symm)
        simp [hw, hv]
      · simp [hw, ih]

/-- A vertex can be added exactly when its name is free. -/
lemma addVertexAt_ok_iff : g.addVertexAt k val seq = .ok g' ↔ ¬ g.hasVertex k ∧ g' = { g with
        vertices := place ⟨k, val, seq⟩ g.vertices
        out := g.out.insert k []
        into := g.into.insert k []
        nextSeq := if seq ≥ g.nextSeq then seq + 1 else g.nextSeq } := by
  unfold addVertexAt
  split
  · rename_i h
    simp [h]
  · rename_i h
    simp [h, eq_comm]

/-- A vertex that was added is found, and so are all others. -/
lemma vertex?_addVertexAt     (h : g.addVertexAt k val seq = .ok g') (j : String) :
    g'.vertex? j = if j = k then some ⟨k, val, seq⟩ else g.vertex? j := by
  obtain ⟨hk, rfl⟩ := addVertexAt_ok_iff.1 h
  have hne : ∀ w ∈ g.vertices, w.key ≠ k := by
    rintro w hw rfl
    exact hk (hasVertex_iff.2 (List.mem_map_of_mem hw))
  rw [vertex?, find?_place hne]
  by_cases hj : j = k
  · simp [hj]
  · simp [hj, Ne.symm hj, vertex?]

/-- Adding a vertex leaves the arcs alone. -/
lemma arcs_addVertexAt     (h : g.addVertexAt k val seq = .ok g') : g'.arcs = g.arcs := by
  obtain ⟨-, rfl⟩ := addVertexAt_ok_iff.1 h
  rfl

/-- After a vertex was added its name is listed too. -/
lemma mem_keys_addVertexAt     (h : g.addVertexAt k val seq = .ok g') : j ∈ g'.keys ↔ j = k ∨ j ∈ g.keys := by
  rw [← hasVertex_iff, ← hasVertex_iff, hasVertex, vertex?_addVertexAt h, hasVertex]
  by_cases hj : j = k <;> simp [hj]

/-- Adding a vertex keeps a digraph well-formed. -/
lemma WellFormed.addVertexAt (wf : g.WellFormed)     (h : g.addVertexAt k val seq = .ok g') : g'.WellFormed := by
  obtain ⟨hk, he⟩ := addVertexAt_ok_iff.1 h
  have hnew : ∀ a ∈ g.arcs, a.src ≠ k ∧ a.dst ≠ k := fun a ha =>
    ⟨fun hs => hk (hasVertex_iff.2 (hs ▸ wf.src_mem a ha)), fun hd => hk (hasVertex_iff.2 (hd ▸ wf.dst_mem a ha))⟩
  refine ⟨?_, ?_, ?_, ?_, fun j => ?_, fun j => ?_, ?_⟩
  · have hp : g'.keys.Perm (k :: g.keys) := by
      rw [he]
      exact (place_perm _ g.vertices).map _
    rw [hp.nodup_iff, List.nodup_cons]
    exact ⟨fun hm => hk (hasVertex_iff.2 hm), wf.keys_nodup⟩
  · rw [arcs_addVertexAt h]
    exact wf.arcs_nodup
  · intro a ha
    rw [arcs_addVertexAt h] at ha
    exact (mem_keys_addVertexAt h).2 (.inr (wf.src_mem a ha))
  · intro a ha
    rw [arcs_addVertexAt h] at ha
    exact (mem_keys_addVertexAt h).2 (.inr (wf.dst_mem a ha))
  · have hnone : targets g.arcs k = [] := ends_eq_nil fun a ha => (hnew a ha).1
    have hout : g'.out = g.out.insert k [] := by rw [he]
    rw [hout, Dict.get?_insert, wf.out_get, arcs_addVertexAt h, if_congr (mem_keys_addVertexAt h) rfl rfl]
    by_cases hj : j = k <;> simp [hj, hnone]
  · have hnone : sources g.arcs k = [] := ends_eq_nil fun a ha => (hnew a ha).2
    have hinto : g'.into = g.into.insert k [] := by rw [he]
    rw [hinto, Dict.get?_insert, wf.into_get, arcs_addVertexAt h, if_congr (mem_keys_addVertexAt h) rfl rfl]
    by_cases hj : j = k <;> simp [hj, hnone]
  · rw [arcs_addVertexAt h, ← wf.arcCount_eq, he]

/-- The payload of a vertex can be replaced exactly when the vertex is there. -/
lemma setVertex_ok_iff : g.setVertex k val = .ok g' ↔ g.hasVertex k ∧ g' = { g with
        vertices := g.vertices.map fun v => if v.key = k then { v with val := val } else v } := by
  unfold setVertex
  split
  · rename_i h
    simp [h, eq_comm]
  · rename_i h
    simp [h]

/-- What changes no name can be done before or after looking up a name. -/
lemma find?_map_of_key {γ : Type} (key : γ → String) (f : γ → γ) (k : String) (hf : ∀ x, key (f x) = key x) :
    ∀ xs : List γ, (xs.map f).find? (fun x => key x == k) = (xs.find? fun x => key x == k).map f
  | [] => rfl
  | x :: xs => by
    by_cases h : key x = k
    · simp [hf, h]
    · simp only [List.map_cons]
      rw [List.find?_cons_of_neg (by simpa [hf] using h), List.find?_cons_of_neg (by simpa using h)]
      exact find?_map_of_key key f k hf xs

/-- A vertex that was set has the new value, and the others have the old one. -/
lemma vertex?_setVertex (h : g.setVertex k val = .ok g') (j : String) :
    g'.vertex? j = if j = k then (g.vertex? k).map ({ · with val := val }) else g.vertex? j := by
  obtain ⟨-, rfl⟩ := setVertex_ok_iff.1 h
  have hf : ∀ v : Vertex α, (if v.key = k then { v with val := val } else v).key = v.key := by
    intro v
    split <;> rfl
  rw [vertex?, find?_map_of_key (fun v : Vertex α => v.key) _ j hf]
  split
  · rename_i hj
    subst hj
    cases hv : g.vertices.find? fun v => v.key == j with
    | none => simp [vertex?, hv]
    | some v =>
      have hk : v.key = j := by simpa using List.find?_some hv
      simp [vertex?, hv, hk]
  · rename_i hj
    cases hv : g.vertices.find? fun v => v.key == j with
    | none => simp [vertex?, hv]
    | some v =>
      have hk : v.key ≠ k := by
        have hkj : v.key = j := by simpa using List.find?_some hv
        rwa [hkj]
      simp [vertex?, hv, hk]

/-- Setting a vertex leaves the names alone. -/
lemma keys_setVertex (h : g.setVertex k val = .ok g') : g'.keys = g.keys := by
  obtain ⟨-, rfl⟩ := setVertex_ok_iff.1 h
  rw [keys, keys, List.map_map]
  apply List.map_congr_left
  intro v _
  simp only [Function.comp]
  split <;> rfl

/-- Setting a vertex leaves the arcs alone. -/
lemma arcs_setVertex (h : g.setVertex k val = .ok g') : g'.arcs = g.arcs := by
  obtain ⟨-, rfl⟩ := setVertex_ok_iff.1 h
  rfl

/-- One digraph has the shape of another: they differ in payloads only. -/
structure SameShape {γ δ : Type} (g : Digraph α β) (g' : Digraph γ δ) : Prop where
  keys : g'.keys = g.keys
  ends : (g'.arcs.map fun a => (a.src, a.dst)) = g.arcs.map fun a => (a.src, a.dst)
  out : g'.out = g.out
  into : g'.into = g.into
  arcCount : g'.arcCount = g.arcCount

/-- Only the shape matters to being well-formed. -/
lemma WellFormed.of_shape {γ δ : Type} {g' : Digraph γ δ} (wf : g.WellFormed) (h : SameShape g g') : g'.WellFormed := by
  have hmem : ∀ a ∈ g'.arcs, ∃ b ∈ g.arcs, b.src = a.src ∧ b.dst = a.dst := by
    intro a ha
    have hpair : (a.src, a.dst) ∈ g.arcs.map fun a => (a.src, a.dst) := h.ends ▸ List.mem_map_of_mem ha
    obtain ⟨b, hb, hba⟩ := List.mem_map.1 hpair
    exact ⟨b, hb, Prod.mk.inj hba⟩
  refine ⟨?_, ?_, ?_, ?_, fun k => ?_, fun k => ?_, ?_⟩
  · rw [h.keys]
    exact wf.keys_nodup
  · rw [h.ends]
    exact wf.arcs_nodup
  · intro a ha
    obtain ⟨b, hb, hs, -⟩ := hmem a ha
    rw [h.keys, ← hs]
    exact wf.src_mem b hb
  · intro a ha
    obtain ⟨b, hb, -, hd⟩ := hmem a ha
    rw [h.keys, ← hd]
    exact wf.dst_mem b hb
  · rw [h.out, wf.out_get, h.keys, targets, targets, ends_eq_map, ends_eq_map, h.ends]
  · have hswap := congrArg (List.map Prod.swap) h.ends
    rw [List.map_map, List.map_map] at hswap
    rw [h.into, wf.into_get, h.keys, sources, sources, ends_eq_map, ends_eq_map]
    exact congrArg (fun ps => if k ∈ g.keys then some ((ps.filter (·.1 == k)).map (·.2)) else none) hswap.symm
  · rw [h.arcCount, wf.arcCount_eq, ← List.length_map (fun a : Arc β => (a.src, a.dst)), ← h.ends, List.length_map]

/-- A new payload of a vertex leaves the shape as it is. -/
lemma sameShape_setVertex (h : g.setVertex k val = .ok g') : SameShape g g' := by
  have hk := keys_setVertex h
  obtain ⟨-, rfl⟩ := setVertex_ok_iff.1 h
  exact ⟨hk, rfl, rfl, rfl, rfl⟩

/-- Setting a vertex keeps a digraph well-formed. -/
lemma WellFormed.setVertex (wf : g.WellFormed)     (h : g.setVertex k val = .ok g') : g'.WellFormed :=
  wf.of_shape (sameShape_setVertex h)

/-! ### Adding and removing arcs -/

/-- An arc can be added exactly when its ends are different vertices that are not joined yet and it closes no
cycle. -/
lemma addArc_ok_iff {val : β} : g.addArc src dst val = .ok g' ↔
      src ≠ dst ∧ g.hasVertex src ∧ g.hasVertex dst ∧ ¬ g.hasArc src dst ∧ ¬ g.reachable dst src ∧ g' = { g with
          out := g.out.modify src (· ++ [dst])
          arcs := g.arcs ++ [⟨src, dst, val⟩]
          into := g.into.modify dst (· ++ [src])
          arcCount := g.arcCount + 1 } := by
  unfold addArc
  by_cases h₁ : src = dst
  · simp [h₁]
  · by_cases h₂ : g.hasVertex src
    · by_cases h₃ : g.hasVertex dst
      · by_cases h₄ : g.hasArc src dst
        · simp [h₁, h₂, h₃, h₄]
        · by_cases h₅ : g.reachable dst src
          · simp [h₁, h₂, h₃, h₄, h₅]
          · simp [h₁, h₂, h₃, h₄, h₅, eq_comm]
      · simp [h₁, h₂, h₃]
    · simp [h₁, h₂]

/-- Adding an arc leaves the vertices alone. -/
lemma vertices_addArc {val : β} (h : g.addArc src dst val = .ok g') : g'.vertices = g.vertices := by
  obtain ⟨-, -, -, -, -, rfl⟩ := addArc_ok_iff.1 h
  rfl

/-- An arc that was added is listed last. -/
lemma arcs_addArc {val : β} (h : g.addArc src dst val = .ok g') : g'.arcs = g.arcs ++ [⟨src, dst, val⟩] := by
  obtain ⟨-, -, -, -, -, rfl⟩ := addArc_ok_iff.1 h
  rfl

/-- Adding an arc leaves the names alone. -/
lemma keys_addArc {val : β} (h : g.addArc src dst val = .ok g') : g'.keys = g.keys := by
  rw [keys, vertices_addArc h, keys]

/-- Adding an arc leaves what is found under a name alone. -/
lemma vertex?_addArc {val : β} (h : g.addArc src dst val = .ok g') (k : String) : g'.vertex? k = g.vertex? k := by
  rw [vertex?, vertices_addArc h, vertex?]

/-- After an arc was added it is there, and so are all others. -/
lemma hasArc_addArc {val : β} (h : g.addArc src dst val = .ok g')
    : g'.hasArc x y ↔ (x = src ∧ y = dst) ∨ g.hasArc x y := by
  simp only [hasArc_iff, arcs_addArc h, List.mem_append, List.mem_singleton]
  constructor
  · rintro ⟨a, ha | rfl, rfl, rfl⟩
    · exact .inr ⟨a, ha, rfl, rfl⟩
    · exact .inl ⟨rfl, rfl⟩
  · rintro (⟨rfl, rfl⟩ | ⟨a, ha, rfl, rfl⟩)
    · exact ⟨⟨x, y, val⟩, .inr rfl, rfl, rfl⟩
    · exact ⟨a, .inl ha, rfl, rfl⟩

/-- Adding an arc keeps a digraph well-formed. -/
lemma WellFormed.addArc (wf : g.WellFormed) {val : β} (h : g.addArc src dst val = .ok g') : g'.WellFormed := by
  obtain ⟨-, hs, hd, hn, -, he⟩ := addArc_ok_iff.1 h
  have hm : ∀ a ∈ g'.arcs, a.src ∈ g'.keys ∧ a.dst ∈ g'.keys := by
    intro a ha
    rw [arcs_addArc h, List.mem_append, List.mem_singleton] at ha
    rw [keys_addArc h]
    rcases ha with ha | rfl
    · exact ⟨wf.src_mem a ha, wf.dst_mem a ha⟩
    · exact ⟨hasVertex_iff.1 hs, hasVertex_iff.1 hd⟩
  refine ⟨?_, ?_, fun a ha => (hm a ha).1, fun a ha => (hm a ha).2, fun j => ?_, fun j => ?_, ?_⟩
  · rw [keys_addArc h]
    exact wf.keys_nodup
  · rw [arcs_addArc h, List.map_append, List.nodup_append]
    refine ⟨wf.arcs_nodup, List.nodup_singleton _, ?_⟩
    rintro p hp q hq rfl
    obtain ⟨a, ha, hap⟩ := List.mem_map.1 hp
    rw [List.map_singleton, List.mem_singleton, ← hap, Prod.mk.injEq] at hq
    exact hn (hasArc_iff.2 ⟨a, ha, hq⟩)
  · have hout : g'.out = g.out.modify src (· ++ [dst]) := by rw [he]
    rw [hout, Dict.get?_modify, wf.out_get, arcs_addArc h, keys_addArc h, targets, targets, ends_concat]
    by_cases hj : j = src <;> by_cases hmem : j ∈ g.keys <;> simp [hj, hmem]
  · have hinto : g'.into = g.into.modify dst (· ++ [src]) := by rw [he]
    rw [hinto, Dict.get?_modify, wf.into_get, arcs_addArc h, keys_addArc h, sources, sources, ends_concat]
    by_cases hj : j = dst <;> by_cases hmem : j ∈ g.keys <;> simp [hj, hmem]
  · have hcount : g'.arcCount = g.arcCount + 1 := by rw [he]
    rw [hcount, wf.arcCount_eq, arcs_addArc h, List.length_append, List.length_singleton, Nat.cast_succ]

/-- The arcs that are left without one of them. -/
lemma arcs_dropArc (g : Digraph α β) (src dst : String) :
    (g.dropArc src dst).arcs = g.arcs.filter fun a => !(a.src == src && a.dst == dst) := by
  unfold dropArc
  split
  · rfl
  · rename_i h
    symm
    rw [List.filter_eq_self]
    intro a ha
    have hne : ¬ (a.src = src ∧ a.dst = dst) := fun he => h (hasArc_iff.2 ⟨a, ha, he⟩)
    rw [Bool.not_eq_true', Bool.and_eq_false_imp]
    simpa using hne

/-- Removing an arc leaves the vertices alone. -/
lemma vertices_dropArc (g : Digraph α β) (src dst : String) : (g.dropArc src dst).vertices = g.vertices := by
  unfold dropArc
  split <;> rfl

/-- Removing an arc leaves the names alone. -/
lemma keys_dropArc (g : Digraph α β) (src dst : String) : (g.dropArc src dst).keys = g.keys := by
  rw [keys, vertices_dropArc, keys]

/-- Removing an arc leaves what is found under a name. -/
lemma vertex?_dropArc (g : Digraph α β) (src dst k : String) : (g.dropArc src dst).vertex? k = g.vertex? k := by
  rw [vertex?, vertices_dropArc, vertex?]

/-- Removing an arc leaves the next sequence number alone. -/
lemma nextSeq_dropArc (g : Digraph α β) (src dst : String) : (g.dropArc src dst).nextSeq = g.nextSeq := by
  unfold dropArc
  split <;> rfl

/-- Dropping an arc leaves those with other ends. -/
lemma mem_arcs_dropArc : a ∈ (g.dropArc src dst).arcs ↔ a ∈ g.arcs ∧ ¬ (a.src = src ∧ a.dst = dst) := by
  simp only [arcs_dropArc, List.mem_filter, Bool.not_eq_true', Bool.and_eq_false_imp, beq_iff_eq, beq_eq_false_iff_ne,
    ne_eq, not_and]

/-- An arc can be removed exactly when it is there. -/
lemma removeArc_ok (h : g.hasArc src dst) : ∃ val, g.removeArc src dst = .ok (g.dropArc src dst, val) := by
  obtain ⟨a, ha⟩ := hasArc_iff_exists.1 h
  exact ⟨a.val, by rw [removeArc, ha]⟩

/-- Of arcs with distinct pairs of ends, exactly one has the ends of an arc that is there. -/
lemma WellFormed.length_arcs_dropArc (wf : g.WellFormed) (h : g.hasArc src dst) :
    (g.dropArc src dst).arcs.length + 1 = g.arcs.length := by
  obtain ⟨a, ha, hs, hd⟩ := hasArc_iff.1 h
  have hmem : (src, dst) ∈ g.arcs.map fun a => (a.src, a.dst) := List.mem_map.2 ⟨a, ha, by rw [hs, hd]⟩
  have hone : (g.arcs.countP fun a => a.src == src && a.dst == dst) = 1 := by
    rw [← List.count_eq_one_of_mem wf.arcs_nodup hmem, List.count, List.countP_map]
    rfl
  have hsum := List.length_eq_countP_add_countP (fun a => a.src == src && a.dst == dst) (l := g.arcs)
  simp only [hone, Bool.not_eq_true, Bool.decide_eq_false] at hsum
  rw [arcs_dropArc, ← List.countP_eq_length_filter, hsum, Nat.add_comm]

/-- Dropping an arc keeps a digraph well-formed. -/
lemma WellFormed.dropArc (wf : g.WellFormed) (src dst : String) : (g.dropArc src dst).WellFormed := by
  by_cases h : g.hasArc src dst
  · have hk := keys_dropArc g src dst
    have he : g.dropArc src dst = { g with
        arcs := g.arcs.filter fun a => !(a.src == src && a.dst == dst)
        out := g.out.modify src (·.erase dst)
        into := g.into.modify dst (·.erase src)
        arcCount := g.arcCount - 1 } := if_pos h
    refine ⟨?_, ?_, ?_, ?_, fun k => ?_, fun k => ?_, ?_⟩
    · rw [hk]
      exact wf.keys_nodup
    · rw [arcs_dropArc]
      exact wf.arcs_nodup.sublist (List.filter_sublist.map _)
    · intro a ha
      rw [hk]
      exact wf.src_mem a (mem_arcs_dropArc.1 ha).1
    · intro a ha
      rw [hk]
      exact wf.dst_mem a (mem_arcs_dropArc.1 ha).1
    · have hout : (g.dropArc src dst).out = g.out.modify src (·.erase dst) := by rw [he]
      rw [hout, Dict.get?_modify, wf.out_get, hk, arcs_dropArc, targets, targets, ends_filter wf.arcs_nodup]
      by_cases hks : k = src <;> by_cases hmem : k ∈ g.keys <;> simp [hks, hmem]
    · have hinto : (g.dropArc src dst).into = g.into.modify dst (·.erase src) := by rw [he]
      have hcomm : ∀ a ∈ g.arcs, (!(a.src == src && a.dst == dst)) = !(a.dst == dst && a.src == src) :=
        fun a _ => by rw [Bool.and_comm]
      rw [hinto, Dict.get?_modify, wf.into_get, hk, arcs_dropArc, List.filter_congr hcomm, sources, sources,
        ends_filter (nodup_swap wf.arcs_nodup)]
      by_cases hkd : k = dst <;> by_cases hmem : k ∈ g.keys <;> simp [hkd, hmem]
    · have hcount : (g.dropArc src dst).arcCount = g.arcCount - 1 := by rw [he]
      have hlen := wf.length_arcs_dropArc h
      rw [hcount, wf.arcCount_eq]
      omega
  · rw [Digraph.dropArc, if_neg h]
    exact wf

/-! ### Taking out several arcs -/

section several

variable {γ : Type} (src dst : γ → String)

/-- The arcs that are left without several of them. -/
lemma arcs_foldl_dropArc :
    ∀ (xs : List γ) (g : Digraph α β), (xs.foldl (fun g x => g.dropArc (src x) (dst x)) g).arcs =
      g.arcs.filter fun a => xs.all fun x => !(a.src == src x && a.dst == dst x)
  | [], g => by simp
  | x :: xs, g => by
    rw [List.foldl_cons, arcs_foldl_dropArc xs, arcs_dropArc, List.filter_filter]
    exact List.filter_congr fun a _ => by rw [List.all_cons, Bool.and_comm]

/-- Dropping arcs leaves the vertices alone. -/
lemma vertices_foldl_dropArc (xs : List γ) (g : Digraph α β) :
    (xs.foldl (fun g x => g.dropArc (src x) (dst x)) g).vertices = g.vertices :=
  List.foldlRecOn (motive := fun g' : Digraph α β => g'.vertices = g.vertices) xs _ rfl
    fun _ h _ _ => (vertices_dropArc _ _ _).trans h

/-- Dropping arcs leaves the next number alone. -/
lemma nextSeq_foldl_dropArc (xs : List γ) (g : Digraph α β) :
    (xs.foldl (fun g x => g.dropArc (src x) (dst x)) g).nextSeq = g.nextSeq :=
  List.foldlRecOn (motive := fun g' : Digraph α β => g'.nextSeq = g.nextSeq) xs _ rfl
    fun _ h _ _ => (nextSeq_dropArc _ _ _).trans h

/-- Dropping arcs keeps a digraph well-formed. -/
lemma WellFormed.foldl_dropArc (wf : g.WellFormed) (xs : List γ) :
    (xs.foldl (fun g x => g.dropArc (src x) (dst x)) g).WellFormed :=
  List.foldlRecOn xs _ wf fun _ h _ _ => h.dropArc _ _

end several

/-! ### Removing vertices -/

/-- Isolating a vertex leaves the vertices alone. -/
lemma vertices_isolate (g : Digraph α β) (k : String) : (g.isolate k).vertices = g.vertices := by
  rw [isolate, vertices_foldl_dropArc, vertices_foldl_dropArc]

/-- Isolating a vertex leaves the next number alone. -/
lemma nextSeq_isolate (g : Digraph α β) (k : String) : (g.isolate k).nextSeq = g.nextSeq := by
  rw [isolate, nextSeq_foldl_dropArc, nextSeq_foldl_dropArc]

/-- Isolating a vertex keeps a digraph well-formed. -/
lemma WellFormed.isolate (wf : g.WellFormed) (k : String) : (g.isolate k).WellFormed :=
  (wf.foldl_dropArc _ _ _).foldl_dropArc _ _ _

/-- The lists at a vertex name all arcs at it, so none of these is left. -/
lemma WellFormed.arcs_isolate (wf : g.WellFormed) (k : String) :
    (g.isolate k).arcs = g.arcs.filter fun a => a.src != k && a.dst != k := by
  have wf' := wf.foldl_dropArc (fun src => src) (fun _ => k) (g.preds k)
  have harcs := arcs_foldl_dropArc (fun src => src) (fun _ => k) (g.preds k) g
  rw [Digraph.isolate, arcs_foldl_dropArc (fun _ => k) (fun dst => dst), harcs, List.filter_filter]
  refine List.filter_congr fun a ha => ?_
  rw [Bool.eq_iff_iff]
  simp only [Bool.and_eq_true, List.all_eq_true, Bool.not_eq_true', Bool.and_eq_false_imp, beq_iff_eq,
    beq_eq_false_iff_ne, bne_iff_ne, wf'.mem_succs, wf.mem_preds]
  constructor
  · rintro ⟨hout, hin⟩
    have hdst : a.dst ≠ k := fun hd => hin a.src (hasArc_iff.2 ⟨a, ha, rfl, hd⟩) rfl hd
    refine ⟨fun hs => ?_, hdst⟩
    -- An arc out of the vertex was not among those into it, and so is listed still.
    have hleft : a ∈ ((g.preds k).foldl (fun g src => g.dropArc src k) g).arcs := by
      rw [harcs, List.mem_filter]
      exact ⟨ha, by simp [hdst]⟩
    exact hout a.dst (hasArc_iff.2 ⟨a, hleft, hs, rfl⟩) hs rfl
  · rintro ⟨hs, hd⟩
    exact ⟨fun _ _ hs' => absurd hs' hs, fun _ _ _ hd' => hd hd'⟩

/-- No arc comes in with the removal of a vertex. -/
lemma mem_of_mem_arcs_dropVertex (h : a ∈ (g.dropVertex k).arcs) : a ∈ g.arcs := by
  have ha : a ∈ (g.isolate k).arcs := h
  rw [isolate, arcs_foldl_dropArc (fun _ => k) (fun dst => dst), arcs_foldl_dropArc (fun src => src) (fun _ => k)] at ha
  exact List.mem_of_mem_filter (List.mem_of_mem_filter ha)

/-- Dropping a vertex leaves all others. -/
lemma vertices_dropVertex (g : Digraph α β) (k : String) :
    (g.dropVertex k).vertices = g.vertices.filter (·.key != k) := by
  rw [dropVertex, vertices_isolate]

/-- No vertex comes in with the removal of another one. -/
lemma mem_of_mem_vertices_dropVertex (h : v ∈ (g.dropVertex k).vertices) : v ∈ g.vertices := by
  rw [vertices_dropVertex] at h
  exact List.mem_of_mem_filter h

/-- Dropping a vertex leaves the next number alone. -/
lemma nextSeq_dropVertex (g : Digraph α β) (k : String) : (g.dropVertex k).nextSeq = g.nextSeq := by
  rw [dropVertex, nextSeq_isolate]

/-- Dropping a vertex leaves the arcs that it is no end of. -/
lemma WellFormed.arcs_dropVertex (wf : g.WellFormed) (k : String) :
    (g.dropVertex k).arcs = g.arcs.filter fun a => a.src != k && a.dst != k :=
  wf.arcs_isolate k

/-- A vertex that was dropped is not found, and all others are. -/
lemma vertex?_dropVertex (g : Digraph α β) (k j : String) :
    (g.dropVertex k).vertex? j = if j = k then none else g.vertex? j := by
  rw [vertex?, vertices_dropVertex, List.find?_filter]
  by_cases hj : j = k
  · subst hj
    simp only [if_true]
    rw [List.find?_eq_none]
    intro v _
    simp
  · simp only [hj, if_false, vertex?]
    congr 1
    funext v
    by_cases hv : v.key = j
    · simp [hv, hj]
    · simp [hv]

/-- After a vertex was dropped its name is not listed. -/
lemma mem_keys_dropVertex : j ∈ (g.dropVertex k).keys ↔ j ≠ k ∧ j ∈ g.keys := by
  rw [← hasVertex_iff, ← hasVertex_iff, hasVertex, vertex?_dropVertex, hasVertex]
  by_cases hj : j = k <;> simp [hj]

/-- An arc stays when a vertex is dropped exactly if the vertex is no end of it. -/
lemma WellFormed.mem_arcs_dropVertex (wf : g.WellFormed) :
    a ∈ (g.dropVertex k).arcs ↔ a ∈ g.arcs ∧ a.src ≠ k ∧ a.dst ≠ k := by
  simp [wf.arcs_dropVertex]

/-- Two vertices are joined after one was dropped exactly if they were before and neither is that one. -/
lemma WellFormed.hasArc_dropVertex (wf : g.WellFormed) :
    (g.dropVertex k).hasArc src dst ↔ g.hasArc src dst ∧ src ≠ k ∧ dst ≠ k := by
  simp only [hasArc_iff, wf.mem_arcs_dropVertex]
  constructor
  · rintro ⟨a, ⟨ha, hs, hd⟩, rfl, rfl⟩
    exact ⟨⟨a, ha, rfl, rfl⟩, hs, hd⟩
  · rintro ⟨⟨a, ha, rfl, rfl⟩, hs, hd⟩
    exact ⟨a, ⟨ha, hs, hd⟩, rfl, rfl⟩

/-- Dropping a vertex keeps a digraph well-formed. -/
lemma WellFormed.dropVertex (wf : g.WellFormed) (k : String) : (g.dropVertex k).WellFormed := by
  have wf' := wf.isolate k
  have hkeys : (g.isolate k).keys = g.keys := by rw [keys, vertices_isolate, keys]
  have hfree : ∀ {a}, a ∈ (g.isolate k).arcs → a.src ≠ k ∧ a.dst ≠ k := by
    intro a ha
    rw [wf.arcs_isolate, List.mem_filter] at ha
    simpa using ha.2
  have hmem : ∀ {j}, j ∈ (g.dropVertex k).keys ↔ j ≠ k ∧ j ∈ (g.isolate k).keys := by
    intro j
    rw [mem_keys_dropVertex, hkeys]
  refine ⟨?_, wf'.arcs_nodup, fun a ha => ?_, fun a ha => ?_, fun j => ?_, fun j => ?_, wf'.arcCount_eq⟩
  · exact wf'.keys_nodup.sublist (List.filter_sublist.map _)
  · exact hmem.2 ⟨(hfree ha).1, wf'.src_mem a ha⟩
  · exact hmem.2 ⟨(hfree ha).2, wf'.dst_mem a ha⟩
  · have hout : (g.dropVertex k).out = (g.isolate k).out.erase k := rfl
    rw [hout, Dict.get?_erase, wf'.out_get, if_congr hmem rfl rfl]
    by_cases hj : j = k <;> simp [hj, Digraph.dropVertex]
  · have hinto : (g.dropVertex k).into = (g.isolate k).into.erase k := rfl
    rw [hinto, Dict.get?_erase, wf'.into_get, if_congr hmem rfl rfl]
    by_cases hj : j = k <;> simp [hj, Digraph.dropVertex]

/-- Dropping a vertex that is not there changes nothing. -/
lemma WellFormed.dropVertex_of_not_mem (wf : g.WellFormed) (h : ¬ g.hasVertex k) : g.dropVertex k = g := by
  have hv : g.vertices.filter (·.key != k) = g.vertices := by
    rw [List.filter_eq_self]
    intro v hv
    have hne : v.key ≠ k := by
      rintro rfl
      exact h (hasVertex_iff.2 (List.mem_map_of_mem hv))
    simpa using hne
  have ha : g.arcs.filter (fun a => a.src != k && a.dst != k) = g.arcs := by
    rw [List.filter_eq_self]
    intro a ha
    have hs : a.src ≠ k := by
      rintro rfl
      exact h (hasVertex_iff.2 (wf.src_mem a ha))
    have hd : a.dst ≠ k := by
      rintro rfl
      exact h (hasVertex_iff.2 (wf.dst_mem a ha))
    simp [hs, hd]
  refine wf.eq_of (wf.dropVertex k) ?_ ?_ (nextSeq_dropVertex g k)
  · rw [vertices_dropVertex, hv]
  · rw [wf.arcs_dropVertex, ha]

/-- What is left after several vertices were removed. -/
lemma vertex?_foldl_dropVertex (j : String) :
    ∀ (ks : List String) (g : Digraph α β),
      (ks.foldl dropVertex g).vertex? j = if j ∈ ks then none else g.vertex? j
  | [], g => by simp
  | k :: ks, g => by
    rw [List.foldl_cons, vertex?_foldl_dropVertex j ks, vertex?_dropVertex]
    by_cases hj : j = k <;> simp [hj]

/-- After vertices were dropped the names of all others are listed. -/
lemma mem_keys_foldl_dropVertex {ks : List String} : j ∈ (ks.foldl dropVertex g).keys ↔ j ∈ g.keys ∧ j ∉ ks := by
  rw [← hasVertex_iff, ← hasVertex_iff, hasVertex, vertex?_foldl_dropVertex, hasVertex]
  by_cases hj : j ∈ ks <;> simp [hj]

/-- An arc stays when vertices are dropped exactly if none of them is an end of it. -/
lemma WellFormed.mem_arcs_foldl_dropVertex : ∀ {ks : List String} {g : Digraph α β}, g.WellFormed →
      (a ∈ (ks.foldl Digraph.dropVertex g).arcs ↔ a ∈ g.arcs ∧ a.src ∉ ks ∧ a.dst ∉ ks)
  | [], g, _ => by simp
  | k :: ks, g, wf => by
    rw [List.foldl_cons, (wf.dropVertex k).mem_arcs_foldl_dropVertex, wf.mem_arcs_dropVertex, List.mem_cons,
      List.mem_cons]
    tauto

/-! ### Arcs that stay -/

/-- Dropping an arc leaves what is found between other ends. -/
lemma arc?_dropArc (h : ¬ (x = src ∧ y = dst)) : (g.dropArc src dst).arc? x y = g.arc? x y := by
  rw [arc?, arcs_dropArc, List.find?_filter]
  apply List.find?_congr
  intro a _
  rw [Bool.eq_iff_iff]
  simp only [decide_eq_true_eq, Bool.and_eq_true, beq_iff_eq, Bool.not_eq_true', Bool.and_eq_false_imp,
    beq_eq_false_iff_ne, and_iff_right_iff_imp]
  rintro ⟨rfl, rfl⟩ hsrc hdst
  exact h ⟨hsrc, hdst⟩

/-- An arc stays that is none of several removed ones. -/
lemma arc?_foldl_dropArc {γ : Type} (src dst : γ → String) {xs : List γ} (h : ∀ z ∈ xs, ¬ (x = src z ∧ y = dst z)) :
    (xs.foldl (fun g z => g.dropArc (src z) (dst z)) g).arc? x y = g.arc? x y :=
  List.foldlRecOn (motive := fun g' : Digraph α β => g'.arc? x y = g.arc? x y) xs _ rfl
    fun _ hg z hz => (arc?_dropArc (h z hz)).trans hg

/-- An arc stays that is not at a removed vertex. -/
lemma arc?_dropVertex (hx : x ≠ k) (hy : y ≠ k) : (g.dropVertex k).arc? x y = g.arc? x y := by
  show (g.isolate k).arc? x y = g.arc? x y
  rw [isolate, arc?_foldl_dropArc _ _ fun _ _ h => hx h.1, arc?_foldl_dropArc _ _ fun _ _ h => hy h.2]

/-- Adding an arc leaves what is found between other ends. -/
lemma arc?_addArc {val : β} (h : g.addArc src dst val = .ok g')
    (hne : ¬ (src = x ∧ dst = y)) : g'.arc? x y = g.arc? x y := by
  rw [arc?, arcs_addArc h, List.find?_append, List.find?_singleton, if_neg (by simpa using hne), Option.or_none, arc?]

end OpGraph.Digraph
