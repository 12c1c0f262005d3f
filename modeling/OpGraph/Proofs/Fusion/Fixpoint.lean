import Mathlib
import OpGraph.Proofs.Fusion.Steps

/-!
# Where a run ends

A sandbox is stable if no pass changes it: nothing can be dropped and nothing merged. A run ends well exactly in stable
sandboxes, and a run that starts in one ends at once.
-/

namespace OpGraph

/-- How many changes were counted. -/
def Stats.changes (st : Stats) : Nat :=
  st.fused + st.dropped

namespace Engine

open Sandbox

/-- A pattern finds a chain at a node that can be merged. -/
def Merges (s : Sandbox) (head : String) (p : Pattern) : Prop :=
  ∃ members r, Engine.find s head p = .chain members ∧ s.merge members (s.uniqueName p.name) p.name p.name = .ok r

/-- A pattern finds a chain to merge where the attributes of the members of one go together. -/
lemma merges_iff {g : Graph} {s : Sandbox} (hs : Edited g (Sandbox.copy g none) s) {head : String} {p : Pattern} :
    Merges s head p ↔ ∃ members, members.head? = some head ∧ 2 ≤ members.length ∧ Chain s p.ops members ∧
      ∃ attrs, s.fusedAttrs members = .ok attrs := by
  constructor
  · rintro ⟨members, ⟨t, n⟩, hfind, hok⟩
    obtain ⟨hm, hn, -⟩ := merge_ok_iff.1 hok
    obtain ⟨attrs, hattrs, -⟩ := fusedNode_ok_iff.1 hn
    obtain ⟨hhead, hc⟩ := (find_eq_chain_iff (ops_ne_nil hfind hm.two)).1 hfind
    exact ⟨members, hhead, hm.two, hc, attrs, hattrs⟩
  · rintro ⟨members, hhead, hlen, hc, hattrs⟩
    have hops : p.ops ≠ [] := by
      intro hnil
      have hlength := hc.length_eq
      rw [hnil, List.length_nil] at hlength
      omega
    have hfind := (find_eq_chain_iff hops).2 ⟨hhead, hc⟩
    obtain ⟨r, hr⟩ := (merge_find_ok_iff hs hlen hfind).2 hattrs
    exact ⟨members, r, hfind, hr⟩

/-- A sandbox that a pass leaves as it is. -/
structure Stable (e : Engine) (s : Sandbox) : Prop where
  drops : ∀ n ∈ s.nodes, n.type ∈ e.elided → ∀ t, s.drop n.name ≠ .ok t
  merges : ∀ head ∈ s.dag.keys, ∀ p ∈ e.patterns, ¬ Merges s head p

/-! ### Passes -/

/-- Steps each of which counts what it changes leave a state as it is exactly if nothing is counted. -/
lemma foldl_count {σ τ α : Type} {f : σ → α → σ} {c : σ → Nat} {v : σ → τ} {Q : τ → α → Prop}
    (h : ∀ s x, (v (f s x) = v s ∧ c (f s x) = c s ∧ Q (v s) x) ∨ (c s < c (f s x) ∧ ¬ Q (v s) x)) :
    ∀ (xs : List α) (s : σ), c s ≤ c (xs.foldl f s) ∧
      (c (xs.foldl f s) = c s ↔ ∀ x ∈ xs, Q (v s) x) ∧ (c (xs.foldl f s) = c s → v (xs.foldl f s) = v s)
  | [], s => by simp
  | x :: xs, s => by
    obtain ⟨hle, hiff, hv⟩ := foldl_count h xs (f s x)
    rw [List.foldl_cons, List.forall_mem_cons]
    rcases h s x with ⟨hsame, hcount, hq⟩ | ⟨hlt, hq⟩
    · rw [hsame, hcount] at hiff hv
      rw [hcount] at hle
      exact ⟨hle, hiff.trans (and_iff_right hq).symm, hv⟩
    · exact ⟨by omega, ⟨fun heq => by omega, fun hall => absurd hall.1 hq⟩, fun heq => by omega⟩

/-- Trying to drop a node leaves the run as it is or drops the node and counts it. -/
lemma tryDrop_cases (run : Sandbox × Stats) (name : String) :
    (tryDrop run name = run ∧ ∀ t, run.1.drop name ≠ .ok t) ∨
      (run.1.drop name = .ok (tryDrop run name).1 ∧
      (tryDrop run name).2 = { run.2 with dropped := run.2.dropped + 1 }) := by
  unfold tryDrop
  split
  · rename_i t ht
    exact .inr ⟨ht, rfl⟩
  · rename_i err herr
    refine .inl ⟨rfl, fun t ht => ?_⟩
    rw [herr] at ht
    cases ht

/-- What trying patterns at a node leads to: no pattern finds a chain that can be merged, or one was merged. -/
inductive Tried (head : String) (ps : List Pattern) (run after : Sandbox × Stats) : Prop where
  | still (hs : after.1 = run.1) (hst : after.2 = { run.2 with rejected := after.2.rejected })
      (hno : ∀ p ∈ ps, ¬ Merges run.1 head p)
  | merged {p : Pattern} {members : List String} {n : Node}
      (hst : after.2 = { run.2 with fused := run.2.fused + 1, rejected := after.2.rejected }) (hp : p ∈ ps)
      (hfind : Engine.find run.1 head p = .chain members)
      (hok : run.1.merge members (run.1.uniqueName p.name) p.name p.name = .ok (after.1, n))

/-- A pattern that finds nothing to merge leaves it to the others. -/
lemma Tried.cons {head : String} {p : Pattern} {ps : List Pattern} {s : Sandbox} {st st' : Stats}
    {after : Sandbox × Stats}
    (h : Tried head ps (s, st') after) (hst : st' = { st with rejected := st'.rejected }) (hno : ¬ Merges s head p) :
    Tried head (p :: ps) (s, st) after := by
  cases h with
  | still hs hst' hall =>
    refine .still hs ?_ (List.forall_mem_cons.2 ⟨hno, hall⟩)
    rw [hst', hst]
  | merged hst' hq hfind hok =>
    refine .merged ?_ (List.mem_cons_of_mem _ hq) hfind hok
    rw [hst', hst]

/-- Trying patterns at a node finds the first one that can be merged, if there is one. -/
lemma tried_tryPatterns (head : String) :
    ∀ (ps : List Pattern) (run : Sandbox × Stats), Tried head ps run (tryPatterns head ps run)
  | [], _ => .still rfl rfl (by simp)
  | p :: ps, (s, stats) => by
    rw [tryPatterns]
    cases hfind : Engine.find s head p with
    | none =>
      refine (tried_tryPatterns head ps (s, stats)).cons rfl ?_
      rintro ⟨members, r, hchain, -⟩
      rw [hfind] at hchain
      cases hchain
    | refused =>
      refine (tried_tryPatterns head ps _).cons rfl ?_
      rintro ⟨members, r, hchain, -⟩
      rw [hfind] at hchain
      cases hchain
    | chain members =>
      cases hmerge : s.merge members (s.uniqueName p.name) p.name p.name with
      | ok r =>
        simp only [hmerge]
        exact .merged rfl List.mem_cons_self hfind hmerge
      | error err =>
        simp only [hmerge]
        refine (tried_tryPatterns head ps _).cons rfl ?_
        rintro ⟨members', r, hchain, hok⟩
        rw [hfind] at hchain
        cases hchain
        rw [hmerge] at hok
        cases hok

/-- What trying a node as the first of a chain leads to. -/
lemma tried_tryHead (ps : List Pattern) (run : Sandbox × Stats) (head : String) :
    (tryHead ps run head = run ∧ (run.1.anchors.contains head ∨ head ∉ run.1.dag.keys)) ∨
      (head ∈ run.1.dag.keys ∧ Tried head ps run (tryHead ps run head)) := by
  unfold tryHead
  split
  · rename_i hskip
    refine .inl ⟨rfl, ?_⟩
    rw [← Digraph.hasVertex_iff]
    simpa [isAnchor] using hskip
  · rename_i hskip
    simp only [Bool.or_eq_true, Bool.not_eq_true', not_or, Bool.not_eq_false] at hskip
    exact .inr ⟨Digraph.hasVertex_iff.1 hskip.2, tried_tryPatterns head ps run⟩

/-- The part of a run that no rejected chain changes. -/
def essence (run : Sandbox × Stats) : Sandbox × Stats :=
  (run.1, { run.2 with rejected := 0 })

/-- Dropping counts what it changes. -/
lemma foldl_tryDrop_count (ns : List Node) (run : Sandbox × Stats) :
    run.2.changes ≤ (ns.foldl (fun run n => tryDrop run n.name) run).2.changes ∧
      ((ns.foldl (fun run n => tryDrop run n.name) run).2.changes = run.2.changes ↔
        ∀ n ∈ ns, ∀ t, run.1.drop n.name ≠ .ok t) ∧
      ((ns.foldl (fun run n => tryDrop run n.name) run).2.changes = run.2.changes →
        essence (ns.foldl (fun run n => tryDrop run n.name) run) = essence run) := by
  refine foldl_count (f := fun run (n : Node) => tryDrop run n.name) (c := fun run : Sandbox × Stats => run.2.changes)
    (v := essence) (Q := fun run n => ∀ t, run.1.drop n.name ≠ .ok t) (fun run n => ?_) ns run
  rcases tryDrop_cases run n.name with ⟨heq, hno⟩ | ⟨hok, hst⟩
  · exact .inl ⟨by rw [heq], by rw [heq], hno⟩
  · refine .inr ⟨?_, fun hno => hno _ hok⟩
    rw [hst]
    simp only [Stats.changes]
    omega

/-- Merging counts what it changes. -/
lemma foldl_tryHead_count (ps : List Pattern) (heads : List String) (run : Sandbox × Stats) :
    run.2.changes ≤ (heads.foldl (tryHead ps) run).2.changes ∧
      ((heads.foldl (tryHead ps) run).2.changes = run.2.changes ↔
        ∀ head ∈ heads, ¬ run.1.anchors.contains head → head ∈ run.1.dag.keys → ∀ p ∈ ps, ¬ Merges run.1 head p) ∧
      ((heads.foldl (tryHead ps) run).2.changes = run.2.changes →
        essence (heads.foldl (tryHead ps) run) = essence run) := by
  refine foldl_count (f := tryHead ps) (c := fun run : Sandbox × Stats => run.2.changes) (v := essence)
    (Q := fun run head => ¬ run.1.anchors.contains head → head ∈ run.1.dag.keys → ∀ p ∈ ps, ¬ Merges run.1 head p)
    (fun run head => ?_) heads run
  by_cases ha : run.1.anchors.contains head
  · have heq : tryHead ps run head = run := by rw [tryHead, isAnchor, ha]; rfl
    exact .inl ⟨by rw [heq], by rw [heq], fun hno => absurd ha hno⟩
  rcases tried_tryHead ps run head with ⟨heq, hskip⟩ | ⟨hlive, htried⟩
  · exact .inl ⟨by rw [heq], by rw [heq], fun _ hl => absurd hl (hskip.resolve_left ha)⟩
  · cases htried with
    | still hs hst hno =>
      refine .inl ⟨?_, by rw [hst]; rfl, fun _ _ => hno⟩
      rw [essence, hs, hst]
      rfl
    | merged hst hp hfind hok =>
      refine .inr ⟨?_, fun hno => hno ha hlive _ hp ⟨_, _, hfind, hok⟩⟩
      rw [hst]
      simp only [Stats.changes]
      omega

/-- Dropping nodes counts no pass. -/
lemma iterations_foldl_tryDrop (ns : List Node) (run : Sandbox × Stats) :
    (ns.foldl (fun run n => tryDrop run n.name) run).2.iterations = run.2.iterations := by
  refine @foldl_eq_of_step _ _ _ _ (fun run : Sandbox × Stats => run.2.iterations) (fun run (n : Node) => ?_) ns run
  rcases tryDrop_cases run n.name with ⟨heq, -⟩ | ⟨-, hst⟩
  · rw [heq]
  · rw [hst]

/-- Merging chains counts no pass. -/
lemma iterations_foldl_tryHead (ps : List Pattern) (heads : List String) (run : Sandbox × Stats) :
    (heads.foldl (tryHead ps) run).2.iterations = run.2.iterations := by
  refine @foldl_eq_of_step _ _ _ _ (fun run : Sandbox × Stats => run.2.iterations) (fun run head => ?_) heads run
  rcases tried_tryHead ps run head with ⟨heq, -⟩ | ⟨-, htried⟩
  · rw [heq]
  · cases htried with
    | still hs hst hno => rw [hst]
    | merged hst hp hfind hok => rw [hst]

/-- A chain that can be merged starts inside the region. -/
lemma Merges.inside {s : Sandbox} {head : String} {p : Pattern} (h : Merges s head p) : ¬ s.anchors.contains head := by
  obtain ⟨members, ⟨t, n⟩, hfind, hok⟩ := h
  have htwo := (merge_ok_iff.1 hok).1.two
  obtain ⟨hhead, hc⟩ := (find_eq_chain_iff (ops_ne_nil hfind htwo)).1 hfind
  exact hc.inside (List.mem_of_mem_head? hhead)

section Passes

variable {g : Graph} {o s : Sandbox} {e : Engine}

/-- A pass drops nodes and then merges chains from every node on. -/
lemma pass_eq (hs : Roster g o s) (st : Stats) :
    ∃ order : List String, order.Perm (dropAll e.elided (s, st)).1.dag.keys ∧
      e.pass (s, st) = (order.foldl (tryHead e.patterns) (dropAll e.elided (s, st)), none) := by
  have hd : Roster g o (dropAll e.elided (s, st)).1 := ((Reaches.refl (e := e) (s, st)).dropAll e.elided).roster hs
  obtain ⟨order, hok, hperm⟩ := hd.wellFormed.exists_order hd.acyclic
  refine ⟨order, hperm, ?_⟩
  unfold pass
  simp only [hok]

/-- No node of the given types can be dropped. Whether it is inside the region does not matter, for others never can. -/
lemma forall_drop_iff {elided : List String} :
    (∀ n ∈ (s.nodes.filter fun n => elided.contains n.type && !s.isAnchor n.name), ∀ t, s.drop n.name ≠ .ok t) ↔
      ∀ n ∈ s.nodes, n.type ∈ elided → ∀ t, s.drop n.name ≠ .ok t := by
  constructor
  · intro h n hn hty t hok
    obtain ⟨src, hd, -⟩ := drop_ok_iff.1 hok
    have ha : s.isAnchor n.name = false := Bool.eq_false_iff.2 hd.inside
    exact h n (List.mem_filter.2 ⟨hn, by simp [ha, hty]⟩) t hok
  · intro h n hn
    obtain ⟨hn, hty⟩ := List.mem_filter.1 hn
    rw [Bool.and_eq_true, List.contains_iff_mem] at hty
    exact h n hn hty.1

/-- A pass counts its changes: it leaves a sandbox as it is exactly if the sandbox is stable. -/
lemma exists_pass (hs : Roster g o s) (st : Stats) :
    ∃ after, e.pass (s, st) = (after, none) ∧ after.2.iterations = st.iterations ∧ st.changes ≤ after.2.changes ∧
      (after.2.changes = st.changes ↔ e.Stable s) ∧
      (after.2.changes = st.changes → after = (s, { st with rejected := after.2.rejected })) := by
  obtain ⟨order, hperm, heq⟩ := pass_eq (e := e) hs st
  obtain ⟨hle, hiff, hsame⟩ := foldl_tryDrop_count
    (s.nodes.filter fun n => e.elided.contains n.type && !s.isAnchor n.name) (s, st)
  obtain ⟨hle', hiff', hsame'⟩ := foldl_tryHead_count e.patterns order (dropAll e.elided (s, st))
  have hdrops : (dropAll e.elided (s, st)).2.changes = st.changes ↔
      ∀ n ∈ s.nodes, n.type ∈ e.elided → ∀ t, s.drop n.name ≠ .ok t := hiff.trans forall_drop_iff
  refine ⟨_, heq, (iterations_foldl_tryHead _ _ _).trans (iterations_foldl_tryDrop _ _), hle.trans hle', ⟨?_, ?_⟩, ?_⟩
  · intro hcount
    have hfirst : (dropAll e.elided (s, st)).2.changes = st.changes := le_antisymm (hcount ▸ hle') hle
    have hs' : (dropAll e.elided (s, st)).1 = s := congrArg (·.1) (hsame hfirst)
    have hrest := hiff'.1 (hcount.trans hfirst.symm)
    rw [hs'] at hrest hperm
    exact ⟨hdrops.1 hfirst, fun head hh p hp hm => hrest head (hperm.mem_iff.2 hh) hm.inside hh p hp hm⟩
  · intro hst
    have hfirst := hdrops.2 hst.drops
    have hs' : (dropAll e.elided (s, st)).1 = s := congrArg (·.1) (hsame hfirst)
    refine (hiff'.2 fun head hh _ => ?_).trans hfirst
    rw [hs']
    exact hst.merges head
  · intro hcount
    have hfirst : (dropAll e.elided (s, st)).2.changes = st.changes := le_antisymm (hcount ▸ hle') hle
    have hess := (hsame' (hcount.trans hfirst.symm)).trans (hsame hfirst)
    simp only [essence, Prod.mk.injEq, Stats.mk.injEq, and_true] at hess
    obtain ⟨hsb, hit, hfu, hdr⟩ := hess
    refine Prod.ext hsb ?_
    rw [← hit, ← hfu, ← hdr]

/-- A pass without progress changes nothing. -/
lemma changes_eq_of_not_progressed {before after : Stats} (h : ¬ progressed before after) :
    after.changes = before.changes := by
  simp only [progressed, Bool.or_eq_true, bne_iff_ne, not_or, not_not] at h
  simp only [Stats.changes]
  omega

/-- A pass over a stable sandbox is the last one. -/
lemma loop_of_stable (hs : Roster g o s) (hst : e.Stable s) (n : Nat) (st : Stats) :
    ∃ rejected, e.loop (n + 1) (s, st) = ((s, { st with iterations := st.iterations + 1, rejected }), none) := by
  obtain ⟨after, heq, -, -, hiff, hsame⟩ := exists_pass (e := e) hs { st with iterations := st.iterations + 1 }
  have hafter := hsame (hiff.2 hst)
  refine ⟨after.2.rejected, ?_⟩
  unfold loop
  simp only [heq]
  rw [hafter]
  simp [progressed]

/-- A loop that ends well ends in a stable sandbox. -/
lemma stable_of_loop :
    ∀ {n : Nat} {run after : Sandbox × Stats}, Roster g o run.1 → e.loop n run = (after, none) → e.Stable after.1
  | 0, _, _, _, h => by cases h
  | n + 1, (s, st), after, hs, h => by
    obtain ⟨mid, heq, -, -, hiff, hsame⟩ := exists_pass (e := e) hs { st with iterations := st.iterations + 1 }
    have hmid : Roster g o mid.1 := by
      have hr := (Reaches.refl (e := e) (s, { st with iterations := st.iterations + 1 })).pass
      rw [heq] at hr
      exact hr.roster hs
    unfold loop at h
    simp only [heq] at h
    split at h
    · exact stable_of_loop hmid h
    · rename_i hno
      obtain rfl : mid = after := congrArg Prod.fst h
      have hcount : mid.2.changes = st.changes := changes_eq_of_not_progressed hno
      rw [hsame hcount]
      exact hiff.1 hcount

end Passes

/-- An engine makes one pass at least. -/
lemma one_le_passes (e : Engine) : 1 ≤ e.passes := by
  unfold passes standardCap
  split <;> omega

end Engine

end OpGraph
