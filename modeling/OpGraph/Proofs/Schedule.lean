import Mathlib
import OpGraph.Proofs.Lookup
import OpGraph.Proofs.Reach
import OpGraph.Schedule

/-!
# Schedules are complete

The schedule of a consistent topology takes vertices whose predecessors were all taken before, and it goes on as long as
there is one. What it can not take are the vertices on a cycle and those that a path from a cycle leads to, so it takes
all of them exactly when there is no cycle. Arcs may be listed several times; each of them is followed and counted.
-/

namespace OpGraph

open Relation

variable {t : Topology} {v u : String} {order : List String}

namespace Topology

/-! ### Consistent topologies -/

/-- An arc leads from one vertex to another. -/
def Adj (t : Topology) (u v : String) : Prop :=
  u ∈ t.vertices ∧ v ∈ t.successors u

/-- No path leads from a vertex back to it. -/
def Acyclic (t : Topology) : Prop :=
  ∀ v, ¬ TransGen t.Adj v v

/-- A vertex lies on a cycle, or a path from a cycle leads to it. -/
def Blocked (t : Topology) (v : String) : Prop :=
  ∃ c, TransGen t.Adj c c ∧ ReflTransGen t.Adj c v

/-- The parts of a topology fit together: each vertex is listed once, arcs lead to vertices, and as many arcs are
counted into a vertex as lists of successors name it. -/
structure Consistent (t : Topology) : Prop where
  nodup : t.vertices.Nodup
  closed : ∀ {u v}, t.Adj u v → v ∈ t.vertices
  counted : ∀ v ∈ t.vertices, t.inDegree v = (t.vertices.flatMap t.successors).count v

/-- Cycles and what they lead to consist of vertices. -/
lemma Consistent.vertex_of_blocked (h : t.Consistent) (hv : t.Blocked v) : v ∈ t.vertices := by
  obtain ⟨c, hcycle, hpath⟩ := hv
  rcases hpath.cases_tail with rfl | ⟨u, -, huv⟩
  · obtain ⟨u, hcu, -⟩ := TransGen.head'_iff.1 hcycle
    exact hcu.1
  · exact h.closed huv

/-- How many arcs lead into a vertex from vertices that were not taken yet. -/
def missing (t : Topology) (taken : List String) (v : String) : Nat :=
  ((t.vertices.filter (· ∉ taken)).flatMap t.successors).count v

/-- Nothing is missing at a vertex exactly if all its predecessors were taken. -/
lemma missing_eq_zero_iff {taken : List String} : t.missing taken v = 0 ↔ ∀ u, t.Adj u v → u ∈ taken := by
  rw [missing, List.count_eq_zero, List.mem_flatMap]
  simp only [List.mem_filter, decide_eq_true_eq, not_exists, not_and]
  constructor
  · intro h u huv
    by_contra hu
    exact h u ⟨huv.1, hu⟩ huv.2
  · intro h u hu huv
    exact hu.2 (h u ⟨hu.1, huv⟩)

/-- Taking a vertex leaves as many arcs less as it lists. -/
lemma missing_append (hnd : t.vertices.Nodup) {taken : List String} (hu : u ∈ t.vertices)
    (hut : u ∉ taken) (v : String) : t.missing taken v = t.missing (taken ++ [u]) v + (t.successors u).count v := by
  have hmem : u ∈ t.vertices.filter (· ∉ taken) := List.mem_filter.2 ⟨hu, by simpa using hut⟩
  have hrest : t.vertices.filter (· ∉ taken ++ [u]) = (t.vertices.filter (· ∉ taken)).erase u := by
    rw [(hnd.filter _).erase_eq_filter, List.filter_filter]
    refine List.filter_congr fun x _ => ?_
    rw [Bool.eq_iff_iff]
    simp [and_comm]
  have hperm := ((List.perm_cons_erase hmem).flatMap_right t.successors).count_eq v
  rw [missing, missing, hrest, hperm, List.flatMap_cons, List.count_append, Nat.add_comm]

/-! ### Following arcs -/

namespace Progress

/-- How many arcs into a vertex are still to be followed. -/
def left (p : Progress) (v : String) : Int :=
  p.pending.getD v 0

/-- Following an arc leaves one less at its end. -/
lemma left_follow (d : Nat) (p : Progress) (next v : String) :
    (p.follow d next).left v = if v = next then p.left next - 1 else p.left v := by
  simp only [left, follow, Dict.getD, Dict.get?_insert]
  split <;> rfl

/-- Following an arc makes its end ready if it was the last one. -/
lemma ready_follow (d : Nat) (p : Progress) (next : String) :
    (p.follow d next).ready = p.ready ++ if p.left next = 1 then [next] else [] := by
  have hzero : p.pending.getD next 0 - 1 = 0 ↔ p.left next = 1 := sub_eq_zero
  simp only [follow, hzero]
  split <;> simp

/-- Following a list of arcs takes from what is left at a vertex as often as it is listed. -/
lemma left_foldl_follow (d : Nat) (v : String) :
    ∀ (next : List String) (p : Progress), (next.foldl (follow d) p).left v = p.left v - next.count v
  | [], p => by simp
  | w :: next, p => by
    rw [List.foldl_cons, left_foldl_follow d v next, left_follow, List.count_cons]
    by_cases hv : v = w
    · subst hv
      simp only [if_true, beq_self_eq_true, Nat.cast_add, Nat.cast_one]
      omega
    · have hwv : (w == v) = false := by simpa using Ne.symm hv
      simp [hv, hwv]

/-- A vertex becomes ready, and does so once, when as many arcs to it are followed as were left. -/
lemma ready_foldl_follow (d : Nat) :
    ∀ (next : List String) (p : Progress), ∃ new, (next.foldl (follow d) p).ready = p.ready ++ new ∧ new.Nodup ∧
      ∀ v, v ∈ new ↔ 0 < p.left v ∧ p.left v ≤ next.count v
  | [], p => ⟨[], by simp, List.nodup_nil, fun v => by simp⟩
  | w :: next, p => by
    obtain ⟨new, hready, hnd, hmem⟩ := ready_foldl_follow d next (p.follow d w)
    refine ⟨(if p.left w = 1 then [w] else []) ++ new, ?_, ?_, fun v => ?_⟩
    · rw [List.foldl_cons, hready, ready_follow, List.append_assoc]
    · by_cases hone : p.left w = 1
      · rw [if_pos hone, List.singleton_append, List.nodup_cons]
        refine ⟨fun hw => ?_, hnd⟩
        have hpos := ((hmem w).1 hw).1
        rw [left_follow, if_pos rfl, hone] at hpos
        omega
      · rwa [if_neg hone, List.nil_append]
    · rw [List.mem_append, hmem, left_follow, List.count_cons]
      by_cases hv : v = w
      · subst hv
        by_cases hone : p.left v = 1
        · simp [hone]
        · simp only [hone, if_false, List.not_mem_nil, false_or, if_true, beq_self_eq_true, Nat.cast_add, Nat.cast_one]
          omega
      · have hwv : (w == v) = false := by simpa using Ne.symm hv
        by_cases hone : p.left w = 1 <;> simp [hone, hv, hwv]

/-! ### Taking vertices -/

/-- The state after the first vertex that is ready was taken. -/
def take (t : Topology) (p : Progress) (v : String) (rest : List String) : Progress :=
  (t.successors v).foldl (follow (p.depth.getD v 0)) { p with ready := rest }

/-- A run with nothing ready stops. -/
lemma run_of_ready_nil {p : Progress} (hp : p.ready = []) (n : Nat) : run t n p = ([], p) := by
  cases n with
  | zero => rfl
  | succ n => rw [run, hp]

/-- A run takes the first vertex that is ready and goes on. -/
lemma run_succ_of_ready_cons {p : Progress} {rest : List String} (hp : p.ready = v :: rest)
    (n : Nat) : run t (n + 1) p = (v :: (run t n (p.take t v rest)).1, (run t n (p.take t v rest)).2) := by
  rw [run, hp]
  rfl

/-- What holds of the vertices that were taken, and of the state, holds after a run if taking one vertex keeps it. -/
lemma run_induct {I : List String → Progress → Prop}
    (step : ∀ {taken p v rest}, I taken p → p.ready = v :: rest → I (taken ++ [v]) (p.take t v rest)) :
    ∀ {n : Nat} {taken : List String} {p : Progress}, I taken p → I (taken ++ (run t n p).1) (run t n p).2
  | 0, taken, p, h => by
    rw [run, List.append_nil]
    exact h
  | n + 1, taken, p, h => by
    cases hp : p.ready with
    | nil =>
      rw [run_of_ready_nil hp, List.append_nil]
      exact h
    | cons v rest =>
      have hrun := run_induct step (n := n) (step h hp)
      rw [List.append_assoc, List.singleton_append] at hrun
      rw [run_succ_of_ready_cons hp]
      exact hrun

end Progress

/-! ### Runs -/

/-- What holds of a schedule after the vertices in `taken`: what is left at a vertex are the arcs from vertices that
were not taken, those without any are ready, and no arc leads from a vertex to one that was taken before it. -/
structure Scheduling (t : Topology) (taken : List String) (p : Progress) : Prop where
  nodup : (taken ++ p.ready).Nodup
  vertex : ∀ v ∈ taken ++ p.ready, v ∈ t.vertices
  left : ∀ v ∈ t.vertices, p.left v = t.missing taken v
  ready : ∀ v ∈ t.vertices, v ∈ taken ++ p.ready ↔ ∀ u, t.Adj u v → u ∈ taken
  forward : ∀ {u v}, t.Adj u v → v ∈ taken → taken.idxOf u < taken.idxOf v

namespace Scheduling

variable {t : Topology} {taken : List String} {p : Progress}

/-- What holds of a schedule holds at its start. -/
lemma start (h : t.Consistent) : t.Scheduling [] t.start := by
  have hmissing : ∀ v ∈ t.vertices, t.missing [] v = t.inDegree v := by
    intro v hv
    rw [missing, h.counted v hv]
    simp
  have hready : t.start.ready = t.vertices.filter fun v => t.inDegree v == 0 := rfl
  refine ⟨?_, ?_, ?_, ?_, ?_⟩
  · rw [List.nil_append, hready]
    exact h.nodup.filter _
  · intro v hv
    rw [List.nil_append, hready] at hv
    exact List.mem_of_mem_filter hv
  · intro v hv
    have hget : t.start.pending.get? v = some (t.inDegree v : Int) := by
      rw [Topology.start, Dict.ofList, List.foldl_map, Dict.get?_foldl_insert (fun v => v)]
      have hfind : t.vertices.reverse.find? (fun x => x == v) = some v :=
        Digraph.find?_eq_some_of_nodup (fun x => x) (by simpa using h.nodup) (List.mem_reverse.2 hv)
      rw [hfind]
      rfl
    rw [Progress.left, Dict.getD_of_some hget, hmissing v hv]
  · intro v hv
    rw [List.nil_append, hready, List.mem_filter, ← missing_eq_zero_iff, hmissing v hv, beq_iff_eq]
    exact and_iff_right hv
  · intro u v _ hv
    cases hv

/-- A vertex that is ready was not taken. -/
lemma of_ready (h : t.Scheduling taken p) (hv : v ∈ p.ready) : v ∈ t.vertices ∧ v ∉ taken :=
  ⟨h.vertex v (List.mem_append_right _ hv), fun hin => (List.nodup_append.1 h.nodup).2.2 v hin v hv rfl⟩

/-- The successors of a vertex that is ready are not ready yet. -/
lemma not_mem_of_adj (hc : t.Consistent) (h : t.Scheduling taken p) {w : String} (hv : v ∈ p.ready) (hvw : t.Adj v w) :
    w ∉ taken ++ p.ready :=
  fun hin => (h.of_ready hv).2 ((h.ready w (hc.closed hvw)).1 hin v hvw)

/-- Taking the first vertex that is ready makes those of its successors ready that miss no other predecessor. -/
lemma exists_ready_take (hc : t.Consistent) (h : t.Scheduling taken p) {rest : List String} (hp : p.ready = v :: rest) :
    ∃ new, taken ++ [v] ++ (p.take t v rest).ready = taken ++ p.ready ++ new ∧ new.Nodup ∧
      ∀ w, w ∈ new ↔ t.Adj v w ∧ ∀ u, t.Adj u w → u ∈ taken ++ [v] := by
  obtain ⟨new, hready, hnd, hmem⟩ :=
    Progress.ready_foldl_follow (p.depth.getD v 0) (t.successors v) { p with ready := rest }
  obtain ⟨hv, hvt⟩ := h.of_ready (hp ▸ List.mem_cons_self)
  have hlist : taken ++ [v] ++ (p.take t v rest).ready = taken ++ p.ready ++ new := by
    rw [Progress.take, hready, hp, List.append_assoc, List.append_assoc]
    rfl
  refine ⟨new, hlist, hnd, fun w => ?_⟩
  rw [hmem]
  by_cases hvw : t.Adj v w
  · have hw := hc.closed hvw
    have hleft : ({ p with ready := rest } : Progress).left w = t.missing taken w := h.left w hw
    have hcount := missing_append hc.nodup hv hvt w
    have hpos : 0 < (t.successors v).count w := List.count_pos_iff.2 hvw.2
    rw [hleft, ← missing_eq_zero_iff, and_iff_right hvw]
    omega
  · have hzero : (t.successors v).count w = 0 := List.count_eq_zero.2 fun hw => hvw ⟨hv, hw⟩
    rw [hzero]
    constructor
    · rintro ⟨hpos, hle⟩
      omega
    · exact fun hw => absurd hw.1 hvw

/-- What holds of a schedule holds after one more vertex was taken. -/
lemma take (hc : t.Consistent) (h : t.Scheduling taken p) {rest : List String} (hp : p.ready = v :: rest) :
    t.Scheduling (taken ++ [v]) (p.take t v rest) := by
  obtain ⟨new, hlist, hnd, hmem⟩ := h.exists_ready_take hc hp
  have hvr : v ∈ p.ready := hp ▸ List.mem_cons_self
  obtain ⟨hv, hvt⟩ := h.of_ready hvr
  refine ⟨?_, ?_, ?_, ?_, ?_⟩
  · rw [hlist, List.nodup_append]
    refine ⟨h.nodup, hnd, ?_⟩
    rintro w hw _ hnew rfl
    exact h.not_mem_of_adj hc hvr ((hmem w).1 hnew).1 hw
  · intro w hw
    rw [hlist, List.mem_append] at hw
    exact hw.elim (h.vertex w) fun hnew => hc.closed ((hmem w).1 hnew).1
  · intro w hw
    have hcount := missing_append hc.nodup hv hvt w
    rw [Progress.take, Progress.left_foldl_follow]
    have hleft : ({ p with ready := rest } : Progress).left w = t.missing taken w := h.left w hw
    omega
  · intro w hw
    rw [hlist, List.mem_append, hmem, h.ready w hw]
    constructor
    · rintro (hall | ⟨-, hall⟩)
      · exact fun u hu => List.mem_append_left _ (hall u hu)
      · exact hall
    · intro hall
      by_cases hvw : t.Adj v w
      · exact .inr ⟨hvw, hall⟩
      · refine .inl fun u hu => ?_
        rcases List.mem_append.1 (hall u hu) with hut | huv
        · exact hut
        · exact absurd (List.mem_singleton.1 huv ▸ hu) hvw
  · intro u w huw hw
    rcases List.mem_append.1 hw with hwt | hwv
    · have hlt := h.forward huw hwt
      have hut : u ∈ taken := List.idxOf_lt_length_iff.1 (hlt.trans (List.idxOf_lt_length_of_mem hwt))
      rw [List.idxOf_append_of_mem hut, List.idxOf_append_of_mem hwt]
      exact hlt
    · obtain rfl := List.mem_singleton.1 hwv
      have hut := (h.ready w hv).1 (List.mem_append_right _ hvr) u huw
      rw [List.idxOf_append_of_mem hut, List.idxOf_append_of_notMem hvt, List.idxOf_cons_self, Nat.add_zero]
      exact List.idxOf_lt_length_of_mem hut

/-- With enough steps a run ends when no vertex is ready. -/
lemma ready_run (hc : t.Consistent) :
    ∀ {n : Nat} {taken : List String} {p : Progress}, t.Scheduling taken p → taken.length + n = t.vertices.length →
      (Progress.run t n p).2.ready = []
  | 0, taken, p, h, hn => by
    have hle := (List.subperm_of_subset h.nodup h.vertex).length_le
    rw [List.length_append] at hle
    have hzero : p.ready.length = 0 := by omega
    exact List.length_eq_zero_iff.1 hzero
  | n + 1, taken, p, h, hn => by
    cases hp : p.ready with
    | nil => rwa [Progress.run_of_ready_nil hp]
    | cons v rest =>
      rw [Progress.run_succ_of_ready_cons hp]
      refine ready_run hc (h.take hc hp) ?_
      rw [List.length_append, List.length_singleton]
      omega

end Scheduling

/-! ### What can be ordered -/

/-- A list of vertices, each behind all its predecessors, that leaves out only vertices with a predecessor that it
leaves out. -/
structure Exhausts (t : Topology) (order : List String) : Prop where
  nodup : order.Nodup
  vertex : ∀ v ∈ order, v ∈ t.vertices
  mem : ∀ v ∈ t.vertices, v ∈ order ↔ ∀ u, t.Adj u v → u ∈ order
  forward : ∀ {u v}, t.Adj u v → v ∈ order → order.idxOf u < order.idxOf v

namespace Exhausts

variable {t : Topology} {order : List String}

/-- A path that ends in the list goes forward in it. -/
lemma idxOf_lt_of_path (h : t.Exhausts order) (huv : TransGen t.Adj u v) (hv : v ∈ order) :
    u ∈ order ∧ order.idxOf u < order.idxOf v := by
  induction huv with
  | single hadj => exact ⟨(h.mem _ (h.vertex _ hv)).1 hv _ hadj, h.forward hadj hv⟩
  | tail _ hadj ih =>
    obtain ⟨hu, hlt⟩ := ih ((h.mem _ (h.vertex _ hv)).1 hv _ hadj)
    exact ⟨hu, hlt.trans (h.forward hadj hv)⟩

/-- What was ordered was not blocked. -/
lemma not_blocked (h : t.Exhausts order) (hv : v ∈ order) : ¬ t.Blocked v := by
  rintro ⟨c, hcycle, hpath⟩
  have hc : c ∈ order := by
    rcases reflTransGen_iff_eq_or_transGen.1 hpath with rfl | hpath
    · exact hv
    · exact (h.idxOf_lt_of_path hpath hv).1
  exact lt_irrefl _ (h.idxOf_lt_of_path hcycle hc).2

/-- Going back from a vertex that is left out to a predecessor that is left out has to end on a cycle. -/
lemma blocked_of_not_mem (h : t.Exhausts order) (hv : v ∈ t.vertices) (hvo : v ∉ order) : t.Blocked v := by
  by_contra hfree
  let r : {x // x ∈ t.vertices ∧ ¬ t.Blocked x} → {x // x ∈ t.vertices ∧ ¬ t.Blocked x} → Prop :=
    fun x y => TransGen t.Adj x y
  have hwf : WellFounded r := by
    have hfinite : Finite {x // x ∈ t.vertices ∧ ¬ t.Blocked x} :=
      (t.vertices.finite_toSet.subset fun x hx => hx.1).to_subtype
    have htrans : IsTrans _ r := ⟨fun _ _ _ => TransGen.trans⟩
    have hirrefl : Std.Irrefl r := ⟨fun x hx => x.2.2 ⟨x, hx, .refl⟩⟩
    exact Finite.wellFounded_of_trans_of_irrefl r
  obtain ⟨⟨x, hx, hxfree⟩, hxo, hmin⟩ := hwf.has_min {x | x.1 ∉ order} ⟨⟨v, hv, hfree⟩, hvo⟩
  have hex : ∃ u, t.Adj u x ∧ u ∉ order := by
    by_contra hnone
    push Not at hnone
    exact hxo ((h.mem x hx).2 hnone)
  obtain ⟨u, hux, huo⟩ := hex
  have hufree : ¬ t.Blocked u := fun ⟨c, hcycle, hpath⟩ => hxfree ⟨c, hcycle, hpath.tail hux⟩
  exact hmin ⟨u, hux.1, hufree⟩ huo (.single hux)

/-- The vertices that are left out are as many as are blocked. -/
lemma length_add_ncard (h : t.Exhausts order) (hc : t.Consistent) :
    order.length + {v | t.Blocked v}.ncard = t.vertices.length := by
  have hlisted : (t.vertices.filter (· ∈ order)).Perm order := by
    refine (List.perm_ext_iff_of_nodup (hc.nodup.filter _) h.nodup).2 fun v => ?_
    rw [List.mem_filter, decide_eq_true_eq]
    exact and_iff_right_of_imp (h.vertex v)
  have hblocked : {v | t.Blocked v} = (t.vertices.filter (· ∉ order)).toFinset := by
    ext v
    rw [Set.mem_ofPred_eq, Finset.mem_coe, List.mem_toFinset, List.mem_filter, decide_eq_true_eq]
    exact ⟨fun hv => ⟨hc.vertex_of_blocked hv, fun ho => h.not_blocked ho hv⟩, fun hv => h.blocked_of_not_mem hv.1 hv.2⟩
  rw [hblocked, Set.ncard_coe_finset, List.toFinset_card_of_nodup (hc.nodup.filter _), ← hlisted.length_eq]
  simpa using (List.length_eq_length_filter_add (l := t.vertices) (· ∈ order)).symm

end Exhausts

/-! ### Orders -/

/-- The vertices that a schedule takes, and the state in which it ends. -/
def worked (t : Topology) : List String × Progress :=
  Progress.run t t.vertices.length t.start

namespace Consistent

variable {t : Topology}

/-- What holds of a schedule holds when it has worked off all that it can. -/
lemma scheduling_worked (h : t.Consistent) : t.Scheduling t.worked.1 t.worked.2 :=
  Progress.run_induct (I := t.Scheduling) (fun hs hp => hs.take h hp) (.start h)

/-- When a schedule has worked off all that it can, nothing is ready. -/
lemma ready_worked (h : t.Consistent) : t.worked.2.ready = [] :=
  (Scheduling.start h).ready_run h (Nat.zero_add _)

/-- A schedule goes on until all vertices that are left miss one of the others. -/
lemma exhausts_worked (h : t.Consistent) : t.Exhausts t.worked.1 := by
  obtain ⟨hnd, hvertex, -, hmem, hforward⟩ := h.scheduling_worked
  rw [h.ready_worked, List.append_nil] at hnd hvertex
  rw [h.ready_worked] at hmem
  simp only [List.append_nil] at hmem
  exact ⟨hnd, hvertex, hmem, hforward⟩

/-- A schedule takes all vertices exactly when there is no cycle. -/
lemma length_worked_iff (h : t.Consistent) : t.worked.1.length = t.vertices.length ↔ t.Acyclic := by
  have hlen := h.exhausts_worked.length_add_ncard h
  have hfinite : {v | t.Blocked v}.Finite := t.vertices.finite_toSet.subset fun v hv => h.vertex_of_blocked hv
  constructor
  · intro he v hv
    have hzero : {v | t.Blocked v}.ncard = 0 := by omega
    exact Set.eq_empty_iff_forall_notMem.1 ((Set.ncard_eq_zero hfinite).1 hzero) v ⟨v, hv, .refl⟩
  · intro ac
    have hnone : {v | t.Blocked v} = ∅ := Set.eq_empty_iff_forall_notMem.2 fun v ⟨c, hcycle, _⟩ => ac c hcycle
    rw [hnone, Set.ncard_empty] at hlen
    omega

end Consistent

/-- A schedule succeeds exactly if it took as many vertices as there are, and otherwise says how many are left. -/
lemma schedule_eq (t : Topology) :
    t.schedule = if t.worked.1.length = t.vertices.length then .ok (t.worked.1, t.worked.2.depth)
    else .error ⟨t.vertices.length - t.worked.1.length, t.vertices.length⟩ := rfl

/-- An order is what was worked off, provided that it has all vertices. -/
lemma order_ok_iff : t.order = .ok order ↔ t.worked.1.length = t.vertices.length ∧ order = t.worked.1 := by
  rw [Topology.order, schedule_eq]
  split
  · rename_i hlen
    exact ⟨fun h => ⟨hlen, (Except.ok.inj h).symm⟩, fun h => congrArg Except.ok h.2.symm⟩
  · rename_i hlen
    exact ⟨fun h => (by cases h), fun h => absurd h.1 hlen⟩

/-- Without an order, the error says how many vertices were left. -/
lemma order_error_iff {e : Stuck} : t.order = .error e ↔ t.worked.1.length ≠ t.vertices.length ∧
      e = ⟨t.vertices.length - t.worked.1.length, t.vertices.length⟩ := by
  rw [Topology.order, schedule_eq]
  split
  · rename_i hlen
    exact ⟨fun h => (by cases h), fun h => absurd hlen h.1⟩
  · rename_i hlen
    exact ⟨fun h => ⟨hlen, (Except.error.inj h).symm⟩, fun h => congrArg Except.error h.2.symm⟩

/-- An order lists every vertex once. -/
lemma Consistent.perm_of_order (h : t.Consistent) (ho : t.order = .ok order) : order.Perm t.vertices := by
  obtain ⟨hlen, rfl⟩ := order_ok_iff.1 ho
  have hsub := List.subperm_of_subset h.exhausts_worked.nodup h.exhausts_worked.vertex
  exact hsub.perm_of_length_le hlen.ge

/-- In an order every vertex comes behind its predecessors. -/
lemma Consistent.idxOf_lt_of_order (h : t.Consistent) (ho : t.order = .ok order)
    (huv : t.Adj u v) : order.idxOf u < order.idxOf v := by
  have hv := (h.perm_of_order ho).mem_iff.2 (h.closed huv)
  obtain ⟨-, rfl⟩ := order_ok_iff.1 ho
  exact h.exhausts_worked.forward huv hv

/-- Orders are found whenever there are any: a consistent topology has an order exactly when it has no cycle. The order
lists every vertex once, behind its predecessors; and a topology without one is reported as an invalid graph, together
with the number of vertices that lie on a cycle or that one leads to. -/
theorem order_exact {t : Topology} (h : t.Consistent) :
    ((∃ order, t.order = .ok order) ↔ t.Acyclic) ∧
      (∀ {order}, t.order = .ok order →
        order.Perm t.vertices ∧ ∀ {u v}, t.Adj u v → order.idxOf u < order.idxOf v) ∧
      ∀ {e}, t.order = .error e → e.toFailure.kind = .invalidGraph ∧
        e = ⟨{v | t.Blocked v}.ncard, t.vertices.length⟩ := by
  refine ⟨?_, fun ho => ⟨h.perm_of_order ho, fun huv => h.idxOf_lt_of_order ho huv⟩, fun he => ⟨rfl, ?_⟩⟩
  · rw [← h.length_worked_iff]
    constructor
    · rintro ⟨order, ho⟩
      exact (order_ok_iff.1 ho).1
    · exact fun hlen => ⟨_, order_ok_iff.2 ⟨hlen, rfl⟩⟩
  · obtain ⟨-, rfl⟩ := order_error_iff.1 he
    have hlen := h.exhausts_worked.length_add_ncard h
    rw [← hlen]
    congr
    omega

/-- The topology of a list of arcs between vertices that are listed once is consistent. -/
lemma consistent_ofArcs {vertices : List String} {arcs : List (String × String)} (hnd : vertices.Nodup)
    (harcs : ∀ a ∈ arcs, a.2 ∈ vertices) : (ofArcs vertices arcs).Consistent where
  nodup := hnd
  closed := by
    intro u v huv
    obtain ⟨a, ha, rfl⟩ := List.mem_map.1 huv.2
    exact harcs a (List.mem_of_mem_filter ha)
  counted := by
    intro v _
    have hfold : ∀ (vs : List String) (d : Nat),
      vs.foldl (fun d w => d + ((ofArcs vertices arcs).successors w).count v) d =
        d + (vs.flatMap (ofArcs vertices arcs).successors).count v := by
      intro vs
      induction vs with
      | nil => intro d; simp
      | cons w vs ih => intro d; rw [List.foldl_cons, ih, List.flatMap_cons, List.count_append, Nat.add_assoc]
    exact (hfold vertices 0).trans (Nat.zero_add _)

/-- A cycle with a vertex before it and one behind it, to which two arcs lead, beside a vertex without arcs. -/
def looped : Topology :=
  ofArcs ["a", "b", "c", "d", "e"] [("a", "b"), ("b", "c"), ("c", "b"), ("c", "d"), ("c", "d")]

/-- The vertices of the cycle and the one behind it can not be ordered. -/
theorem order_exact_looped : looped.Consistent ∧ ¬ looped.Acyclic ∧ looped.order = .error ⟨3, 5⟩ ∧
    {v | looped.Blocked v}.ncard = 3 := by
  have h : looped.Consistent := consistent_ofArcs (by decide) (by decide)
  have he : looped.order = .error ⟨3, 5⟩ := by decide +kernel
  obtain ⟨hiff, -, herror⟩ := order_exact h
  obtain ⟨-, hcount⟩ := herror he
  refine ⟨h, fun ac => ?_, he, ?_⟩
  · obtain ⟨order, ho⟩ := hiff.2 ac
    rw [he] at ho
    cases ho
  · have hleft : (3 : Int) = {v | looped.Blocked v}.ncard := congrArg Stuck.left hcount
    exact_mod_cast hleft.symm

end Topology

namespace Digraph

variable {α β : Type} {g : Digraph α β}

/-- The topology of a proper digraph has its arcs. -/
lemma Proper.adj_topology_iff (hg : g.Proper) : g.topology.Adj u v ↔ g.Adj u v := by
  rw [Topology.Adj, Adj, ← hg.mem_succs]
  exact and_iff_right_of_imp fun huv => hasVertex_iff.1 (hg.hasVertex_src (hg.mem_succs.1 huv))

/-- The topology of a proper digraph is consistent. -/
lemma Proper.consistent_topology (hg : g.Proper) : g.topology.Consistent where
  nodup := hg.keys_nodup
  closed := fun huv => hasVertex_iff.1 (hg.hasVertex_dst (hg.adj_topology_iff.1 huv))
  counted := by
    intro v _
    have hkeys : ∀ u ∈ (g.preds v : Multiset String), u ∈ g.keys.toFinset := by
      intro u hu
      have hv : v ∈ g.succs u := by
        rw [← List.count_pos_iff, ← hg.count_preds u v, List.count_pos_iff]
        exact hu
      exact List.mem_toFinset.2 (hasVertex_iff.1 (hg.hasVertex_src (hg.mem_succs.1 hv)))
    have hsum := Multiset.sum_count_eq_card hkeys
    simp only [Multiset.coe_count, Multiset.coe_card] at hsum
    calc (g.preds v).length
      _ = ∑ u ∈ g.keys.toFinset, (g.preds v).count u := hsum.symm
      _ = ∑ u ∈ g.keys.toFinset, (g.succs u).count v := Finset.sum_congr rfl fun u _ => hg.count_preds u v
      _ = (g.keys.flatMap g.succs).count v := by
        rw [List.sum_toFinset _ hg.keys_nodup, List.count_flatMap]
        rfl

/-- The topology of a proper digraph is acyclic exactly if the digraph is. -/
lemma Proper.acyclic_topology_iff (hg : g.Proper) : g.topology.Acyclic ↔ g.Acyclic := by
  have hadj : g.topology.Adj = g.Adj := funext₂ fun _ _ => propext hg.adj_topology_iff
  rw [Topology.Acyclic, Acyclic, hadj]

/-- A well-formed digraph without cycles has an order, and it lists every vertex once. -/
lemma WellFormed.exists_order (wf : g.WellFormed) (ac : g.Acyclic) :
    ∃ order, g.topology.order = .ok order ∧ order.Perm g.keys := by
  have hc := wf.proper.consistent_topology
  have ho := Topology.order_ok_iff.2 ⟨hc.length_worked_iff.2 (wf.proper.acyclic_topology_iff.2 ac), rfl⟩
  exact ⟨_, ho, hc.perm_of_order ho⟩

/-- In an order every vertex comes behind its predecessors. -/
lemma WellFormed.idxOf_lt_of_order (wf : g.WellFormed)
    (h : g.topology.order = .ok order) (huv : g.hasArc u v) : order.idxOf u < order.idxOf v :=
  wf.proper.consistent_topology.idxOf_lt_of_order h (wf.proper.adj_topology_iff.2 huv)

end Digraph

end OpGraph
