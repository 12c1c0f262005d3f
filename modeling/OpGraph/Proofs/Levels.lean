import Mathlib
import OpGraph.Proofs.Schedule

/-!
# Levels are longest paths

The depth that a schedule records for a vertex is final when the vertex becomes ready: it is the length of the longest
path that ends there. Vertices become ready in the order of their depths, because the last predecessor to be taken is
one of the deepest. So the levels of a topology without cycles cut its order into pieces, and none of them is empty.
-/

namespace OpGraph

variable {t : Topology} {v : String}

namespace Topology

/-- A path with a number of arcs ends in a vertex. -/
inductive PathTo (t : Topology) : String → Nat → Prop where
  | start {v : String} (hv : v ∈ t.vertices) : PathTo t v 0
  | step {u v : String} {n : Nat} (h : PathTo t u n) (huv : t.Adj u v) : PathTo t v (n + 1)

/-- A path leads to a vertex. -/
lemma PathTo.vertex (hc : t.Consistent) {n : Nat} (h : t.PathTo v n) : v ∈ t.vertices := by
  cases h with
  | start hv => exact hv
  | step _ huv => exact hc.closed huv

/-! ### Depths -/

namespace Progress

/-- The length of the longest path followed to a vertex. -/
def depthOf (p : Progress) (v : String) : Nat :=
  p.depth.getD v 0

/-- Following an arc makes its target one deeper than its source at least. -/
lemma depthOf_follow (d : Nat) (p : Progress) (next v : String) :
    (p.follow d next).depthOf v = if v = next then max (p.depthOf next) (d + 1) else p.depthOf v := by
  have hdepth : (p.follow d next).depth =
      if d + 1 > p.depthOf next then p.depth.insert next (d + 1) else p.depth := rfl
  rw [depthOf, hdepth]
  by_cases hlt : d + 1 > p.depthOf next
  · rw [if_pos hlt, max_eq_right hlt.le]
    simp only [depthOf, Dict.getD, Dict.get?_insert]
    split <;> rfl
  · rw [if_neg hlt, max_eq_left (Nat.le_of_not_lt hlt)]
    split
    · rename_i hv
      rw [hv, depthOf]
    · rfl

/-- The vertices of a list become as deep as the arcs to them make them, the others stay as they are. -/
lemma depthOf_foldl_follow (d : Nat) (v : String) :
    ∀ (next : List String) (p : Progress),
      (next.foldl (follow d) p).depthOf v = if v ∈ next then max (p.depthOf v) (d + 1) else p.depthOf v
  | [], p => by simp
  | w :: next, p => by
    rw [List.foldl_cons, depthOf_foldl_follow d v next, depthOf_follow]
    by_cases hv : v = w
    · subst hv
      simp
    · simp [hv]

/-- Taking a vertex makes its successors one deeper than it at least. -/
lemma depthOf_take (t : Topology) (p : Progress) (v : String) (rest : List String) (w : String) :
    (p.take t v rest).depthOf w =
      if w ∈ t.successors v then max (p.depthOf w) (p.depthOf v + 1) else p.depthOf w :=
  depthOf_foldl_follow _ w (t.successors v) { p with ready := rest }

end Progress

/-- What holds of the depths after the vertices in `taken`: a vertex is one deeper than the deepest of its predecessors
that were taken, and vertices were taken and are ready in the order of their depths. -/
structure Layering (t : Topology) (taken : List String) (p : Progress) : Prop where
  above : ∀ {u v}, t.Adj u v → u ∈ taken → p.depthOf u + 1 ≤ p.depthOf v
  attained : ∀ v, p.depthOf v = 0 ∨ ∃ u ∈ taken, t.Adj u v ∧ p.depthOf v = p.depthOf u + 1
  sorted : (taken ++ p.ready).Pairwise fun u v => p.depthOf u ≤ p.depthOf v

namespace Layering

variable {t : Topology} {taken : List String} {p : Progress}

/-- At first no vertex is deeper than another. -/
lemma start (t : Topology) : t.Layering [] t.start := by
  refine ⟨fun _ hu => ?_, fun _ => .inl rfl, List.pairwise_of_forall fun _ _ => Nat.le_refl 0⟩
  cases hu

/-- Nothing is more than one deeper than the first vertex that is ready, for all that was taken is not deeper than
that. -/
lemma depthOf_le (h : t.Layering taken p) {rest : List String} (hp : p.ready = v :: rest) (w : String) :
    p.depthOf w ≤ p.depthOf v + 1 := by
  have hsorted := h.sorted
  rw [hp, List.pairwise_append] at hsorted
  rcases h.attained w with hzero | ⟨u, hu, -, hd⟩
  · omega
  · have hle := hsorted.2.2 u hu v List.mem_cons_self
    omega

/-- Taking the next vertex keeps the layers. -/
lemma take (hc : t.Consistent) (hs : t.Scheduling taken p) (h : t.Layering taken p) {rest : List String}
    (hp : p.ready = v :: rest) : t.Layering (taken ++ [v]) (p.take t v rest) := by
  have hvr : v ∈ p.ready := hp ▸ List.mem_cons_self
  obtain ⟨hv, -⟩ := hs.of_ready hvr
  -- the depths of what was taken or is ready do not change any more
  have hsame : ∀ {w}, w ∈ taken ++ p.ready → (p.take t v rest).depthOf w = p.depthOf w := by
    intro w hw
    rw [Progress.depthOf_take, if_neg]
    exact fun hvw => hs.not_mem_of_adj hc hvr ⟨hv, hvw⟩ hw
  have hgrow : ∀ w, p.depthOf w ≤ (p.take t v rest).depthOf w := by
    intro w
    rw [Progress.depthOf_take]
    split
    · exact le_max_left _ _
    · exact le_rfl
  have htaken : ∀ {u}, u ∈ taken → (p.take t v rest).depthOf u = p.depthOf u :=
    fun hu => hsame (List.mem_append_left _ hu)
  have hself : (p.take t v rest).depthOf v = p.depthOf v := hsame (List.mem_append_right _ hvr)
  have hnext : ∀ {w}, t.Adj v w → (p.take t v rest).depthOf w = p.depthOf v + 1 := by
    intro w hvw
    rw [Progress.depthOf_take, if_pos hvw.2, max_eq_right (h.depthOf_le hp w)]
  refine ⟨fun {u w} huw hu => ?_, fun w => ?_, ?_⟩
  · rcases List.mem_append.1 hu with hu | hu
    · rw [htaken hu]
      exact (h.above huw hu).trans (hgrow w)
    · obtain rfl := List.mem_singleton.1 hu
      rw [hself, hnext huw]
  · by_cases hvw : t.Adj v w
    · exact .inr ⟨v, List.mem_append_right _ (List.mem_singleton_self v), hvw, by rw [hnext hvw, hself]⟩
    · have hd : (p.take t v rest).depthOf w = p.depthOf w := by
        rw [Progress.depthOf_take, if_neg]
        exact fun hw => hvw ⟨hv, hw⟩
      rw [hd]
      rcases h.attained w with hzero | ⟨u, hu, huw, hdu⟩
      · exact .inl hzero
      · exact .inr ⟨u, List.mem_append_left _ hu, huw, by rw [hdu, htaken hu]⟩
  · obtain ⟨new, hlist, -, hmem⟩ := hs.exists_ready_take hc hp
    have hnew : ∀ w ∈ new, (p.take t v rest).depthOf w = p.depthOf v + 1 := fun w hw => hnext ((hmem w).1 hw).1
    rw [hlist, List.pairwise_append]
    refine ⟨h.sorted.imp_of_mem fun ha hb hab => ?_, List.pairwise_of_forall_mem_list fun a ha b hb => ?_,
      fun a ha b hb => ?_⟩
    · rw [hsame ha, hsame hb]
      exact hab
    · rw [hnew a ha, hnew b hb]
    · rw [hsame ha, hnew b hb]
      exact h.depthOf_le hp a

/-- No path to a vertex that was taken has more arcs than the vertex is deep. -/
lemma le_depthOf (h : t.Layering taken p) (he : t.Exhausts taken) {n : Nat} (hpath : t.PathTo v n)
    (hv : v ∈ taken) : n ≤ p.depthOf v := by
  induction hpath with
  | start => exact Nat.zero_le _
  | step _ huv ih =>
    have hu := (he.mem _ (he.vertex _ hv)).1 hv _ huv
    exact (Nat.succ_le_succ (ih hu)).trans (h.above huv hu)

/-- A path as long as a vertex is deep ends in it. -/
lemma pathTo (h : t.Layering taken p) (he : t.Exhausts taken) :
    ∀ {n : Nat} {v : String}, v ∈ taken → p.depthOf v = n → t.PathTo v n
  | 0, v, hv, _ => .start (he.vertex v hv)
  | n + 1, v, hv, hd => by
    rcases h.attained v with hzero | ⟨u, hu, huv, hdu⟩
    · omega
    · exact .step (h.pathTo he hu (by omega)) huv

/-- Once all vertices are taken, the depth of one is the length of the longest path to it. -/
lemma isGreatest_depthOf (h : t.Layering taken p) (he : t.Exhausts taken) (hv : v ∈ taken) :
    IsGreatest {n | t.PathTo v n} (p.depthOf v) :=
  ⟨h.pathTo he hv rfl, fun _ hpath => h.le_depthOf he hpath hv⟩

/-- Below a vertex that was taken there is one of every smaller depth. -/
lemma exists_depthOf_eq (h : t.Layering taken p) {d : Nat} :
    ∀ {n : Nat} {v : String}, v ∈ taken → p.depthOf v = d + n → ∃ u ∈ taken, p.depthOf u = d
  | 0, v, hv, hd => ⟨v, hv, hd⟩
  | n + 1, v, hv, hd => by
    rcases h.attained v with hzero | ⟨u, hu, -, hdu⟩
    · omega
    · exact h.exists_depthOf_eq (n := n) hu (by omega)

end Layering

/-- The vertices that are worked off are in layers. -/
lemma Consistent.layering_worked (h : t.Consistent) : t.Layering t.worked.1 t.worked.2 := by
  have hboth : t.Scheduling t.worked.1 t.worked.2 ∧ t.Layering t.worked.1 t.worked.2 :=
    Progress.run_induct (I := fun taken p => t.Scheduling taken p ∧ t.Layering taken p)
      (fun hs hp => ⟨hs.1.take h hp, hs.2.take h hs.1 hp⟩) ⟨.start h, .start t⟩
  exact hboth.2

/-! ### Groups by depth -/

/-- The height that is counted up along a list is above exactly the depths up to the greatest one. -/
lemma lt_height_iff (depth : Dict Nat) (d : Nat) :
    ∀ (order : List String) (h : Nat), d < order.foldl (fun h v => max h (depth.getD v 0 + 1)) h ↔
      d < h ∨ ∃ v ∈ order, d ≤ depth.getD v 0
  | [], h => by simp
  | v :: order, h => by
    rw [List.foldl_cons, lt_height_iff depth d order, lt_max_iff, Nat.lt_succ_iff, or_assoc]
    simp only [List.mem_cons, exists_eq_or_imp]

/-- A vertex is in the group of its depth. -/
lemma mem_byDepth_iff {depth : Dict Nat} {order : List String} {i : Nat} :
    (∃ l, (byDepth depth order)[i]? = some l ∧ v ∈ l) ↔ v ∈ order ∧ depth.getD v 0 = i := by
  have hget : ∀ l, (byDepth depth order)[i]? = some l ↔
      (∃ u ∈ order, i ≤ depth.getD u 0) ∧ (order.filter fun v => depth.getD v 0 == i) = l := by
    intro l
    simp [byDepth, List.getElem?_eq_some_iff, lt_height_iff]
  constructor
  · rintro ⟨l, hl, hv⟩
    obtain ⟨-, rfl⟩ := (hget l).1 hl
    simpa using hv
  · rintro ⟨hv, rfl⟩
    exact ⟨_, (hget _).2 ⟨⟨v, hv, le_rfl⟩, rfl⟩, List.mem_filter.2 ⟨hv, beq_self_eq_true _⟩⟩

/-- In a sorted list the vertices of a depth follow on those that are less deep. -/
lemma filter_append_filter {depth : Dict Nat} (n : Nat) :
    ∀ {order : List String}, order.Pairwise (fun u v => depth.getD u 0 ≤ depth.getD v 0) →
      (order.filter fun v => depth.getD v 0 < n) ++ (order.filter fun v => depth.getD v 0 == n) =
        order.filter fun v => depth.getD v 0 < n + 1
  | [], _ => rfl
  | v :: order, h => by
    obtain ⟨hle, hrest⟩ := List.pairwise_cons.1 h
    have ih := filter_append_filter n hrest
    simp only [List.filter_cons, decide_eq_true_eq, beq_iff_eq]
    rcases lt_trichotomy (depth.getD v 0) n with hlt | heq | hgt
    · rw [if_pos hlt, if_neg hlt.ne, if_pos (by omega), List.cons_append, ih]
    · -- nothing behind `v` is less deep than it
      have hnone : (order.filter fun u => depth.getD u 0 < n) = [] := by
        refine List.filter_eq_nil_iff.2 fun u hu => ?_
        have := hle u hu
        rw [decide_eq_true_eq]
        omega
      rw [hnone, List.nil_append] at ih
      rw [if_neg (by omega), if_pos heq, if_pos (by omega), hnone, List.nil_append, ih]
    · rw [if_neg hgt.le.not_gt, if_neg hgt.ne', if_neg (by omega), ih]

/-- Put together, the groups of a sorted list are the list again. -/
lemma flatten_byDepth {depth : Dict Nat} {order : List String}
    (h : order.Pairwise fun u v => depth.getD u 0 ≤ depth.getD v 0) : (byDepth depth order).flatten = order := by
  have hbelow : ∀ n : Nat, ((List.range n).map fun d => order.filter fun v => depth.getD v 0 == d).flatten =
      order.filter fun v => depth.getD v 0 < n := by
    intro n
    induction n with
    | zero => simp
    | succ n ih => rw [List.range_succ, List.map_append, List.flatten_append, ih, ← filter_append_filter n h]; simp
  rw [byDepth, hbelow, List.filter_eq_self]
  exact fun v hv => decide_eq_true ((lt_height_iff depth _ order 0).2 (.inr ⟨v, hv, le_rfl⟩))

/-! ### Levels -/

/-- If all vertices are worked off, the levels are these in the order of their depths. -/
lemma levels_eq (hlen : t.worked.1.length = t.vertices.length) :
    t.levels = .ok (byDepth t.worked.2.depth t.worked.1) := by
  rw [levels, schedule_eq, if_pos hlen]
  rfl

/-- Every level has a vertex: going back from a deepest vertex along a longest path to it visits all of them. -/
lemma Consistent.ne_nil_of_mem_byDepth (h : t.Consistent) {l : List String}
    (hl : l ∈ byDepth t.worked.2.depth t.worked.1) : l ≠ [] := by
  obtain ⟨d, hd, rfl⟩ := List.mem_map.1 hl
  obtain hzero | ⟨v, hv, hle⟩ := (lt_height_iff t.worked.2.depth d t.worked.1 0).1 (List.mem_range.1 hd)
  · omega
  · obtain ⟨u, hu, hdu⟩ := h.layering_worked.exists_depthOf_eq hv (Nat.add_sub_cancel' hle).symm
    exact List.ne_nil_of_mem (List.mem_filter.2 ⟨hu, beq_iff_eq.2 hdu⟩)

/-- Levels lay out the order by longest paths: a consistent topology without cycles has levels, none of which is empty.
A vertex is in the level that the longest path to it has arcs, and one after the other the levels are the order. -/
theorem levels_exact {t : Topology} (h : t.Consistent) (ac : t.Acyclic) :
    ∃ levels, t.levels = .ok levels ∧ t.order = .ok levels.flatten ∧ (∀ l ∈ levels, l ≠ []) ∧
      ∀ {v i}, (∃ l, levels[i]? = some l ∧ v ∈ l) ↔ IsGreatest {n | t.PathTo v n} i := by
  have hlen := h.length_worked_iff.2 ac
  have hlayer := h.layering_worked
  have hsorted := hlayer.sorted
  rw [h.ready_worked, List.append_nil] at hsorted
  refine ⟨_, levels_eq hlen, order_ok_iff.2 ⟨hlen, flatten_byDepth hsorted⟩, fun l hl => h.ne_nil_of_mem_byDepth hl,
    fun {v i} => ?_⟩
  rw [mem_byDepth_iff]
  constructor
  · rintro ⟨hv, rfl⟩
    exact hlayer.isGreatest_depthOf h.exhausts_worked hv
  · intro hi
    have hv : v ∈ t.worked.1 := (h.perm_of_order (order_ok_iff.2 ⟨hlen, rfl⟩)).mem_iff.2 (hi.1.vertex h)
    exact ⟨hv, (hlayer.isGreatest_depthOf h.exhausts_worked hv).unique hi⟩

/-- A detour beside a direct arc, and one vertex to which two arcs lead from the same vertex. -/
def detour : Topology :=
  ofArcs ["d", "c", "b", "a"] [("a", "d"), ("a", "b"), ("b", "d"), ("a", "c"), ("a", "c")]

/-- The detour counts, not the direct arc. -/
theorem levels_exact_detour : detour.Consistent ∧ detour.Acyclic ∧ detour.levels = .ok [["a"], ["b", "c"], ["d"]] ∧
    detour.order = .ok ["a", "b", "c", "d"] ∧ IsGreatest {n | detour.PathTo "d" n} 2 := by
  have h : detour.Consistent := consistent_ofArcs (by decide) (by decide)
  have ac : detour.Acyclic := h.length_worked_iff.1 (by decide +kernel)
  have hlevels : detour.levels = .ok [["a"], ["b", "c"], ["d"]] := by decide +kernel
  obtain ⟨levels, hl, horder, -, hmem⟩ := levels_exact h ac
  obtain rfl := Except.ok.inj (hlevels.symm.trans hl)
  exact ⟨h, ac, hlevels, horder, hmem.1 ⟨["d"], rfl, List.mem_singleton_self _⟩⟩

end Topology

end OpGraph
