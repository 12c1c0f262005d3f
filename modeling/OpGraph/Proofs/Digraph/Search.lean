import Mathlib
import OpGraph.Proofs.Schedule

/-!
# Searches without a bound

The searches of a digraph stop after as many steps as there are vertices at the latest. Here their runs are written down
without such a bound: a worklist that goes on until it is empty, and a traversal that visits every successor of a vertex
before it is done with it. A run is a derivation, so there is one only if the search comes to an end. On a proper graph,
with cycles or without, both searches do, and they answer what the bounded ones answer: which vertices a path leads to,
and whether there is a cycle. The check for cycles and the schedule, which has its own way to find them, agree.
-/

namespace OpGraph.Digraph

open Relation

variable {α β : Type} {g : Digraph α β}

/-! ### The worklist -/

/-- Goes along the successors of a vertex and puts those on the stack that were not seen before, which marks them as
seen. There is no stack left when one of them is the vertex that is looked for. -/
def push (dst : String) : List String → List String → List String → Option (List String × List String)
  | [], seen, stack => some (seen, stack)
  | next :: rest, seen, stack =>
    if next = dst then none
    else if seen.contains next then push dst rest seen stack
    else push dst rest (next :: seen) (next :: stack)

/-- The runs of a search for `dst`, from what was seen and is on the stack to the answer. As long as there is something
on the stack the top is taken; the search is over when `dst` is one of its successors. -/
inductive Searches (g : Digraph α β) (dst : String) : List String → List String → Bool → Prop where
  | exhausted {seen : List String} : Searches g dst seen [] false
  | found {seen rest : List String} {k : String} (hk : g.hasVertex k) (hp : push dst (g.succs k) seen rest = none) :
      Searches g dst seen (k :: rest) true
  | pushed {seen rest seen' stack : List String} {k : String} {b : Bool} (hk : g.hasVertex k)
      (hp : push dst (g.succs k) seen rest = some (seen', stack)) (h : Searches g dst seen' stack b) :
      Searches g dst seen (k :: rest) b
  | skipped {seen rest : List String} {k : String} {b : Bool} (hk : ¬ g.hasVertex k) (h : Searches g dst seen rest b) :
      Searches g dst seen (k :: rest) b

/-- A search from one name to another ends with an answer. The way from a name to itself is not searched for. -/
inductive SearchesFrom (g : Digraph α β) : String → String → Bool → Prop where
  | stay {src : String} : SearchesFrom g src src (g.hasVertex src)
  | leave {src dst : String} {b : Bool} (hne : src ≠ dst) (h : g.Searches dst [src] [src] b) : SearchesFrom g src dst b

/-- A search that meets what it looks for among the successors has no stack left. -/
lemma push_of_mem {dst : String} : ∀ {next : List String} {seen stack : List String}, dst ∈ next →
    push dst next seen stack = none
  | y :: next, seen, stack, h => by
    rw [push]
    by_cases hy : y = dst
    · rw [if_pos hy]
    · have hmem : dst ∈ next := (List.mem_cons.1 h).resolve_left (Ne.symm hy)
      rw [if_neg hy, push_of_mem hmem, push_of_mem hmem, ite_self]

/-- Those that go on the stack are the successors that were not seen, each once. -/
lemma push_of_not_mem {dst : String} : ∀ {next : List String} (seen stack : List String), dst ∉ next →
    ∃ new, push dst next seen stack = some (new ++ seen, new ++ stack) ∧ new.Nodup ∧ ∀ x, x ∈ new ↔ x ∈ next ∧ x ∉ seen
  | [], seen, stack, _ => ⟨[], rfl, List.nodup_nil, by simp⟩
  | y :: next, seen, stack, h => by
    rw [List.mem_cons, not_or] at h
    rw [push, if_neg (Ne.symm h.1)]
    by_cases hy : y ∈ seen
    · obtain ⟨new, hpush, hnd, hmem⟩ := push_of_not_mem seen stack h.2
      refine ⟨new, by rw [if_pos (List.contains_iff_mem.2 hy), hpush], hnd, fun x => ?_⟩
      rw [hmem, List.mem_cons]
      constructor
      · exact fun hx => ⟨.inr hx.1, hx.2⟩
      · rintro ⟨rfl | hx, hseen⟩
        · exact absurd hy hseen
        · exact ⟨hx, hseen⟩
    · obtain ⟨new, hpush, hnd, hmem⟩ := push_of_not_mem (y :: seen) (y :: stack) h.2
      refine ⟨new ++ [y], ?_, ?_, fun x => ?_⟩
      · rw [if_neg fun hc => hy (List.contains_iff_mem.1 hc), hpush]
        simp
      · refine hnd.append (List.nodup_singleton y) ?_
        rw [List.disjoint_singleton]
        exact fun hnew => ((hmem y).1 hnew).2 List.mem_cons_self
      · rw [List.mem_append, hmem, List.mem_singleton, List.mem_cons, List.mem_cons, not_or]
        constructor
        · rintro (⟨hx, -, hseen⟩ | rfl)
          · exact ⟨.inr hx, hseen⟩
          · exact ⟨.inl rfl, hy⟩
        · rintro ⟨hx, hseen⟩
          by_cases hxy : x = y
          · exact .inr hxy
          · exact .inl ⟨hx.resolve_left hxy, hxy, hseen⟩

/-- What holds during a search for `dst` from `src`: a path leads to all that was seen, `dst` is not among it, and what
is no longer on the stack has all its successors seen. -/
structure Searching (g : Digraph α β) (src dst : String) (seen stack : List String) : Prop where
  start : src ∈ seen
  reached : ∀ x ∈ seen, ReflTransGen g.Adj src x
  missed : dst ∉ seen
  stacked : ∀ x ∈ stack, x ∈ seen
  expanded : ∀ x ∈ seen, x ∉ stack → ∀ y, g.Adj x y → y ∈ seen

namespace Searching

variable {src dst k : String} {seen stack rest new : List String}

/-- Taking a vertex from the stack keeps it so, if it does not lead to `dst`. -/
lemma pushed (hg : g.Proper) (h : g.Searching src dst seen (k :: rest)) (hdst : dst ∉ g.succs k)
    (hnew : ∀ x, x ∈ new ↔ x ∈ g.succs k ∧ x ∉ seen) : g.Searching src dst (new ++ seen) (new ++ rest) where
  start := List.mem_append_right _ h.start
  reached := by
    intro x hx
    rcases List.mem_append.1 hx with hx | hx
    · exact (h.reached k (h.stacked k List.mem_cons_self)).tail (hg.mem_succs.1 ((hnew x).1 hx).1)
    · exact h.reached x hx
  missed := by
    intro hmem
    rcases List.mem_append.1 hmem with hmem | hmem
    · exact hdst ((hnew dst).1 hmem).1
    · exact h.missed hmem
  stacked := by
    intro x hx
    rcases List.mem_append.1 hx with hx | hx
    · exact List.mem_append_left _ hx
    · exact List.mem_append_right _ (h.stacked x (List.mem_cons_of_mem _ hx))
  expanded := by
    intro x hx hstack y hxy
    rw [List.mem_append, not_or] at hstack
    have hseen : x ∈ seen := (List.mem_append.1 hx).resolve_left hstack.1
    rw [List.mem_append]
    by_cases hxk : x = k
    · subst hxk
      by_cases hy : y ∈ seen
      · exact .inr hy
      · exact .inl ((hnew y).2 ⟨hg.mem_succs.2 hxy, hy⟩)
    · have hout : x ∉ k :: rest := fun hmem => (List.mem_cons.1 hmem).elim hxk hstack.2
      exact .inr (h.expanded x hseen hout y hxy)

/-- A name that is no vertex has no successors to be seen. -/
lemma skipped (hg : g.Proper) (h : g.Searching src dst seen (k :: rest)) (hk : ¬ g.hasVertex k) :
    g.Searching src dst seen rest where
  start := h.start
  reached := h.reached
  missed := h.missed
  stacked := fun x hx => h.stacked x (List.mem_cons_of_mem _ hx)
  expanded := by
    intro x hx hstack y hxy
    refine h.expanded x hx (fun hmem => ?_) y hxy
    rcases List.mem_cons.1 hmem with rfl | hmem
    · exact hk (hg.hasVertex_src hxy)
    · exact hstack hmem

/-- With an empty stack nothing is left that a path could lead to. -/
lemma not_reached (h : g.Searching src dst seen []) : ¬ ReflTransGen g.Adj src dst := by
  intro hpath
  have hseen : ∀ {x}, ReflTransGen g.Adj src x → x ∈ seen := by
    intro x hx
    induction hx with
    | refl => exact h.start
    | tail _ hadj ih => exact h.expanded _ ih List.not_mem_nil _ hadj
  exact h.missed (hseen hpath)

/-- The answer of a search is whether a path leads to `dst`. -/
lemma answer (hg : g.Proper) {b : Bool} (hrun : g.Searches dst seen stack b) (h : g.Searching src dst seen stack) :
    b ↔ ReflTransGen g.Adj src dst := by
  induction hrun with
  | exhausted => exact iff_of_false Bool.false_ne_true h.not_reached
  | @found seen rest k hk hp =>
    have hdst : dst ∈ g.succs k := by
      by_contra hdst
      obtain ⟨new, hpush, -⟩ := push_of_not_mem seen rest hdst
      cases hp.symm.trans hpush
    exact iff_of_true rfl ((h.reached k (h.stacked k List.mem_cons_self)).tail (hg.mem_succs.1 hdst))
  | @pushed seen rest seen' stack k b hk hp _ ih =>
    have hdst : dst ∉ g.succs k := fun hdst => by cases hp.symm.trans (push_of_mem hdst)
    obtain ⟨new, hpush, -, hnew⟩ := push_of_not_mem seen rest hdst
    cases hp.symm.trans hpush
    exact ih (h.pushed hg hdst hnew)
  | skipped hk _ ih => exact ih (h.skipped hg hk)

end Searching

/-- The vertices that were not seen yet. -/
def unseen (g : Digraph α β) (seen : List String) : List String :=
  g.keys.filter (· ∉ seen)

/-- Vertices that are marked as seen are no longer among those that were not. -/
lemma Proper.length_unseen (hg : g.Proper) {seen new : List String} (hnd : new.Nodup)
    (hnew : ∀ x ∈ new, x ∈ g.keys ∧ x ∉ seen) :
    (g.unseen (new ++ seen)).length + new.length ≤ (g.unseen seen).length := by
  have hdisjoint : (g.unseen (new ++ seen)).Disjoint new := by
    intro x hx hxnew
    have hout : x ∉ new ++ seen := by simpa using (List.mem_filter.1 hx).2
    exact hout (List.mem_append_left _ hxnew)
  have hsub : g.unseen (new ++ seen) ++ new ⊆ g.unseen seen := by
    intro x hx
    rw [unseen, List.mem_filter, decide_eq_true_eq]
    rcases List.mem_append.1 hx with hx | hx
    · obtain ⟨hkey, hout⟩ := List.mem_filter.1 hx
      have hout : x ∉ new ++ seen := by simpa using hout
      exact ⟨hkey, fun hseen => hout (List.mem_append_right _ hseen)⟩
    · exact hnew x hx
  have hle := (List.subperm_of_subset ((hg.keys_nodup.filter _).append hnd hdisjoint) hsub).length_le
  rwa [List.length_append] at hle

/-- A search ends, wherever it starts: every step takes one from what is on the stack and unseen together. -/
lemma Proper.exists_searches (hg : g.Proper) (dst : String) :
    ∀ {n : Nat} (seen stack : List String), (g.unseen seen).length + stack.length ≤ n →
      ∃ b, g.Searches dst seen stack b := by
  intro n
  induction n with
  | zero =>
    intro seen stack hn
    obtain rfl : stack = [] := List.length_eq_zero_iff.1 (by omega)
    exact ⟨false, .exhausted⟩
  | succ n ih =>
    intro seen stack hn
    cases stack with
    | nil => exact ⟨false, .exhausted⟩
    | cons k rest =>
      rw [List.length_cons] at hn
      by_cases hk : g.hasVertex k
      · by_cases hdst : dst ∈ g.succs k
        · exact ⟨true, .found hk (push_of_mem hdst)⟩
        · obtain ⟨new, hpush, hnd, hnew⟩ := push_of_not_mem seen rest hdst
          have hkeys : ∀ x ∈ new, x ∈ g.keys ∧ x ∉ seen := by
            intro x hx
            obtain ⟨hsucc, hseen⟩ := (hnew x).1 hx
            exact ⟨hasVertex_iff.1 (hg.hasVertex_dst (hg.mem_succs.1 hsucc)), hseen⟩
          have hless := hg.length_unseen hnd hkeys
          obtain ⟨b, hrun⟩ := ih (new ++ seen) (new ++ rest) (by rw [List.length_append]; omega)
          exact ⟨b, .pushed hk hpush hrun⟩
      · obtain ⟨b, hrun⟩ := ih seen rest (by omega)
        exact ⟨b, .skipped hk hrun⟩

/-- The answer of a search from a name is whether it is a vertex and a path leads from it. -/
lemma SearchesFrom.answer (hg : g.Proper) {src dst : String} {b : Bool} (hrun : g.SearchesFrom src dst b) :
    b ↔ g.hasVertex src ∧ ReflTransGen g.Adj src dst := by
  cases hrun with
  | stay => exact (and_iff_left .refl).symm
  | leave hne hrun =>
    have hstart : g.Searching src dst [src] [src] := by
      refine ⟨List.mem_singleton_self _, fun x hx => ?_, fun h => hne (List.mem_singleton.1 h).symm, fun x hx => hx, ?_⟩
      · rw [List.mem_singleton.1 hx]
      · exact fun x hx hout => absurd hx hout
    have hvertex : ReflTransGen g.Adj src dst → g.hasVertex src := by
      intro hpath
      obtain ⟨x, hx, -⟩ := (ReflTransGen.cases_head hpath).resolve_left hne
      exact hg.hasVertex_src hx
    rw [hstart.answer hg hrun]
    exact (and_iff_right_of_imp hvertex).symm

/-- A search from a name ends, with the answer of the bounded one. -/
lemma Proper.searchesFrom_iff (hg : g.Proper) {src dst : String} {b : Bool} :
    g.SearchesFrom src dst b ↔ b = g.reachable src dst := by
  have hanswer : ∀ {b}, g.SearchesFrom src dst b → b = g.reachable src dst := by
    intro b hrun
    rw [Bool.eq_iff_iff, hg.reachable_iff]
    exact hrun.answer hg
  refine ⟨hanswer, ?_⟩
  rintro rfl
  by_cases hne : src = dst
  · subst hne
    exact hanswer .stay ▸ .stay
  · obtain ⟨b, hrun⟩ := hg.exists_searches dst [src] [src] le_rfl
    exact hanswer (.leave hne hrun) ▸ .leave hne hrun

/-- Reachability is exact: the worklist comes to an end for any two names, with the answer of the bounded search; and
the answer is yes exactly if the first name is a vertex and a path, possibly without arcs, leads from it to the
second. -/
theorem reachable_exact (hg : g.Proper) (src dst : String) :
    (∀ b, g.SearchesFrom src dst b ↔ b = g.reachable src dst) ∧
      (g.reachable src dst ↔ g.hasVertex src ∧ ReflTransGen g.Adj src dst) :=
  ⟨fun _ => hg.searchesFrom_iff, hg.reachable_iff⟩

/-- A vertex that leads to a cycle of two others and, twice, to one behind it, and a vertex that leads to itself. -/
def knot : Digraph Unit Unit :=
  .ofArcs [⟨"a", (), 0⟩, ⟨"b", (), 1⟩, ⟨"c", (), 2⟩, ⟨"d", (), 3⟩, ⟨"e", (), 4⟩]
    [⟨"a", "b", ()⟩, ⟨"b", "c", ()⟩, ⟨"c", "b", ()⟩, ⟨"c", "d", ()⟩, ⟨"a", "d", ()⟩, ⟨"a", "d", ()⟩, ⟨"e", "e", ()⟩] 5

/-- The ends of its arcs are vertices, so it is proper although it has a cycle and a doubled arc. -/
lemma proper_knot : knot.Proper :=
  proper_ofArcs (by decide) (by decide) (by decide)

/-- The search goes through the cycle once. It finds no way back to the first vertex, and none from or to a name that is
no vertex, not even to itself. -/
theorem reachable_exact_knot : knot.Proper ∧ knot.SearchesFrom "a" "c" true ∧ ReflTransGen knot.Adj "a" "c" ∧
    knot.SearchesFrom "d" "a" false ∧ ¬ ReflTransGen knot.Adj "d" "a" ∧
    knot.SearchesFrom "b" "x" false ∧ knot.SearchesFrom "x" "x" false := by
  have hrun := fun src dst => ((reachable_exact proper_knot src dst).1 _).2 rfl
  have hpath := (reachable_exact proper_knot "a" "c").2.1 (by decide)
  have hback : ¬ knot.reachable "d" "a" := by decide
  refine ⟨proper_knot, hrun "a" "c", hpath.2, hrun "d" "a", fun hda => ?_, hrun "b" "x", hrun "x" "x"⟩
  exact hback ((reachable_exact proper_knot "d" "a").2.2 ⟨by decide, hda⟩)

/-! ### The traversal -/

/-- The marks of a traversal: the vertices on the way to the one that is visited, and those whose visit is over. -/
structure Marks where
  temporary : List String
  permanent : List String

mutual

/-- The visits of a vertex, from the marks before to those after, or to the vertex that was met on its own way. The
temporary mark of a vertex stays until its successors were visited, so that a vertex that is met with such a mark lies
on a cycle. -/
inductive Explores (g : Digraph α β) : Marks → String → Except Error Marks → Prop where
  | done {m : Marks} {k : String} (hp : k ∈ m.permanent) : Explores g m k (.ok m)
  | met {m : Marks} {k : String} (hp : k ∉ m.permanent) (ht : k ∈ m.temporary) : Explores g m k (.error (.onCycle k))
  | entered {m : Marks} {k : String} {r : Except Error Marks} (hp : k ∉ m.permanent) (ht : k ∉ m.temporary)
      (h : ExploresAll g ⟨k :: m.temporary, m.permanent⟩ (g.succs k) r) :
      Explores g m k (r.map fun m' => ⟨m'.temporary.erase k, k :: m'.permanent⟩)

/-- Visits of several vertices, one after the other up to the first that fails. -/
inductive ExploresAll (g : Digraph α β) : Marks → List String → Except Error Marks → Prop where
  | nil {m : Marks} : ExploresAll g m [] (.ok m)
  | cons {m m' : Marks} {k : String} {ks : List String} {r : Except Error Marks} (h : Explores g m k (.ok m'))
      (hs : ExploresAll g m' ks r) : ExploresAll g m (k :: ks) r
  | stopped {m : Marks} {k : String} {ks : List String} {e : Error} (h : Explores g m k (.error e)) :
      ExploresAll g m (k :: ks) (.error e)

end

/-- A traversal of the whole graph ends with an answer. -/
def Traverses (g : Digraph α β) (answer : Except Error Unit) : Prop :=
  ∃ r, g.ExploresAll ⟨[], []⟩ g.keys r ∧ answer = r.map fun _ => ()

section Visits

variable {m : Marks} {k : String} {r : Except Error Marks}

/-- A vertex that is done with is passed over. -/
lemma explores_of_permanent (hp : k ∈ m.permanent) : g.Explores m k r ↔ r = .ok m := by
  constructor
  · intro hrun
    cases hrun with
    | done _ => rfl
    | met hnp _ => exact absurd hp hnp
    | entered hnp _ _ => exact absurd hp hnp
  · rintro rfl
    exact .done hp

/-- A vertex that is met again before it is done with lies on a cycle. -/
lemma explores_of_temporary (hp : k ∉ m.permanent) (ht : k ∈ m.temporary) :
    g.Explores m k r ↔ r = .error (.onCycle k) := by
  constructor
  · intro hrun
    cases hrun with
    | done hdone => exact absurd hdone hp
    | met _ _ => rfl
    | entered _ hnt _ => exact absurd ht hnt
  · rintro rfl
    exact .met hp ht

/-- A vertex that has no mark yet is done with once its successors are. -/
lemma explores_of_unmarked (hp : k ∉ m.permanent) (ht : k ∉ m.temporary) :
    g.Explores m k r ↔ ∃ r', g.ExploresAll ⟨k :: m.temporary, m.permanent⟩ (g.succs k) r' ∧
      r = r'.map fun m' => ⟨m'.temporary.erase k, k :: m'.permanent⟩ := by
  constructor
  · intro hrun
    cases hrun with
    | done hdone => exact absurd hdone hp
    | met _ hpath => exact absurd hpath ht
    | entered _ _ h => exact ⟨_, h, rfl⟩
  · rintro ⟨r', h, rfl⟩
    exact .entered hp ht h

end Visits

/-- Visits that leave the temporary marks as they were do so one after the other. -/
lemma exploresAll_iff {path : List String} {visit : List String → String → Except Error (List String)} :
    ∀ {ks done : List String} {r : Except Error Marks},
      (∀ done, ∀ k ∈ ks, ∀ r, g.Explores ⟨path, done⟩ k r ↔ r = (visit done k).map (Marks.mk path)) →
        (g.ExploresAll ⟨path, done⟩ ks r ↔ r = (ks.foldlM visit done).map (Marks.mk path))
  | [], done, r, _ => by
    constructor
    · rintro ⟨⟩
      rfl
    · rintro rfl
      exact .nil
  | k :: ks, done, r, h => by
    have hk := h done k List.mem_cons_self
    have hks := fun done' => @exploresAll_iff path visit ks done' r fun done j hj =>
      h done j (List.mem_cons_of_mem _ hj)
    rw [List.foldlM_cons]
    cases hv : visit done k with
    | error e =>
      rw [hv] at hk
      constructor
      · intro hrun
        cases hrun with
        | cons hrun _ => cases (hk _).1 hrun
        | stopped hrun =>
          cases (hk _).1 hrun
          rfl
      · rintro rfl
        exact .stopped ((hk _).2 rfl)
    | ok done' =>
      rw [hv] at hk
      constructor
      · intro hrun
        cases hrun with
        | cons hrun hs =>
          cases (hk _).1 hrun
          exact (hks done').1 hs
        | stopped hrun => cases (hk _).1 hrun
      · intro hr
        exact .cons ((hk _).2 rfl) ((hks done').2 hr)

/-- A visit ends, and as the bounded one does: the vertices on the way to it are distinct, so that no more are to come
than there are others. -/
lemma Proper.explores_iff (hg : g.Proper) :
    ∀ {n : Nat} {path done : List String} {k : String} {r : Except Error Marks}, g.keys.length < n + path.length →
      path.Nodup → (∀ x ∈ path, x ∈ g.keys) → k ∈ g.keys →
        (g.Explores ⟨path, done⟩ k r ↔ r = (g.visit n path done k).map (Marks.mk path))
  | 0, path, _, _, _, hlen, hnd, hsub, _ => by
    have hle : path.length ≤ g.keys.length := (hnd.subperm fun x hx => hsub x hx).length_le
    omega
  | n + 1, path, done, k, r, hlen, hnd, hsub, hk => by
    rw [visit]
    by_cases hp : k ∈ done
    · rw [if_pos (List.contains_iff_mem.2 hp)]
      exact explores_of_permanent hp
    rw [if_neg fun hc => hp (List.contains_iff_mem.1 hc)]
    by_cases ht : k ∈ path
    · rw [if_pos (List.contains_iff_mem.2 ht)]
      exact explores_of_temporary hp ht
    rw [if_neg fun hc => ht (List.contains_iff_mem.1 hc)]
    have hsuccs : ∀ done', ∀ j ∈ g.succs k, ∀ r,
        g.Explores ⟨k :: path, done'⟩ j r ↔ r = (g.visit n (k :: path) done' j).map (Marks.mk (k :: path)) := by
      intro done' j hj r
      refine hg.explores_iff (by rw [List.length_cons]; omega) (List.nodup_cons.2 ⟨ht, hnd⟩) ?_
        (hasVertex_iff.1 (hg.hasVertex_dst (hg.mem_succs.1 hj)))
      exact List.forall_mem_cons.2 ⟨hk, hsub⟩
    rw [explores_of_unmarked hp ht]
    simp only [exploresAll_iff hsuccs, exists_eq_left]
    cases (g.succs k).foldlM (g.visit n (k :: path)) done with
    | error e => rfl
    | ok done' =>
      -- The mark that was set for the visit is the one that is taken away.
      have herase : (k :: path).erase k = path := List.erase_cons_head k path
      simp only [Except.map, herase]
      rfl

/-- A traversal ends, with the answer of the bounded check. -/
lemma Proper.traverses_iff (hg : g.Proper) {answer : Except Error Unit} :
    g.Traverses answer ↔ answer = g.checkAcyclic := by
  have hvisit : ∀ done, ∀ k ∈ g.keys, ∀ r,
      g.Explores ⟨[], done⟩ k r ↔ r = (g.visit (g.keys.length + 1) [] done k).map (Marks.mk []) :=
    fun done k hk r => hg.explores_iff (by simp) List.nodup_nil (by simp) hk
  have hanswer : g.checkAcyclic = ((g.keys.foldlM (g.visit (g.keys.length + 1) []) []).map (Marks.mk [])).map
    fun _ => () := by
    rw [checkAcyclic]
    cases g.keys.foldlM (g.visit (g.keys.length + 1) []) [] with
    | error e => rfl
    | ok done => rfl
  simp only [Traverses, exploresAll_iff hvisit, exists_eq_left]
  rw [hanswer]

/-- All ways to find cycles agree: the traversal ends, with the answer of the bounded check; the check accepts a graph
exactly if it has no cycle, and exactly if the schedule orders it; and the vertex that is reported otherwise lies on a
cycle. -/
theorem checkAcyclic_exact (hg : g.Proper) :
    (∀ answer, g.Traverses answer ↔ answer = g.checkAcyclic) ∧ (g.checkAcyclic = .ok () ↔ g.Acyclic) ∧
      (g.checkAcyclic = .ok () ↔ ∃ order, g.topology.order = .ok order) ∧
      ∀ e, g.checkAcyclic = .error e → ∃ k, e = .onCycle k ∧ g.hasVertex k ∧ TransGen g.Adj k k := by
  refine ⟨fun _ => hg.traverses_iff, hg.checkAcyclic_ok_iff, ?_, fun e he => ?_⟩
  · rw [hg.checkAcyclic_ok_iff, ← hg.acyclic_topology_iff, ← hg.consistent_topology.length_worked_iff]
    simp only [Topology.order_ok_iff, exists_and_left, exists_eq, and_true]
  · obtain ⟨k, rfl, hcycle⟩ := hg.onCycle_of_checkAcyclic he
    obtain ⟨x, hx, -⟩ := TransGen.head'_iff.1 hcycle
    exact ⟨k, rfl, hg.hasVertex_src hx, hcycle⟩

/-- The traversal reports the vertex at which it came into the cycle, and the schedule is stuck. -/
theorem checkAcyclic_exact_knot : knot.Proper ∧ knot.Traverses (.error (.onCycle "b")) ∧
    TransGen knot.Adj "b" "b" ∧ ¬ knot.Acyclic ∧ ∀ order, knot.topology.order ≠ .ok order := by
  obtain ⟨hall, -, horder, hreport⟩ := checkAcyclic_exact proper_knot
  have herror : knot.checkAcyclic = .error (.onCycle "b") := by decide +kernel
  obtain ⟨k, hk, -, hcycle⟩ := hreport _ herror
  cases hk
  refine ⟨proper_knot, (hall _).2 herror.symm, hcycle, fun ac => ac "b" hcycle, fun order ho => ?_⟩
  have hok := horder.2 ⟨order, ho⟩
  rw [herror] at hok
  cases hok

end OpGraph.Digraph
