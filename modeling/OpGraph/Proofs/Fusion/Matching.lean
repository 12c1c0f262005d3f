import Mathlib
import OpGraph.Proofs.Fusion.Engine
import OpGraph.Proofs.Sandbox.Effects
import OpGraph.Proofs.Sandbox.Refine

/-!
# Chains that can be merged

A pattern finds a chain of nodes each of which has the next one as its only consumer. Such a chain can always be merged
under a free name, unless the attributes of its members do not go together. A merge of a chain and a drop leave the
number of edges into every other node as it is.
-/

namespace OpGraph

namespace Sandbox

/-! ### Sandboxes of the whole graph -/

namespace Edited

variable {g : Graph} {s : Sandbox}

/-- A sandbox of a whole graph has no anchors. -/
lemma not_anchor (h : Edited g (Sandbox.copy g none) s) (k : String) : ¬ s.anchors.contains k := by
  rw [h.tracks.anchors]
  exact Bool.false_ne_true

/-- A sandbox that is edited was not committed. -/
lemma isOpen (h : Edited g (Sandbox.copy g none) s) : s.committed = false :=
  h.tracks.committed

end Edited

end Sandbox

/-! ### Chains -/

namespace Engine

open Sandbox

/-- Nodes that satisfy constraints one by one, each but the last with the next one as its only consumer. What is between
them is seen by nobody else. -/
inductive Chain (s : Sandbox) : List Constraint → List String → Prop where
  | last {c : Constraint} {name : String} (hf : fits s c name) (hi : ¬ s.anchors.contains name) : Chain s [c] [name]
  | link {c : Constraint} {cs : List Constraint} {name next : String} {rest : List String} (hf : fits s c name)
      (hi : ¬ s.anchors.contains name) (hs : s.dag.succs name = [next]) (ho : ¬ s.outs.contains name)
      (hr : ¬ s.registered.contains (EdgeId.arc name next)) (h : Chain s cs (next :: rest)) :
      Chain s (c :: cs) (name :: next :: rest)

/-- Following a pattern from a node finds a chain of nodes that are private to it, and only such. -/
lemma follow_isPrivate_iff {s : Sandbox} :
    ∀ {cs : List Constraint} {name : String} {members : List String}, cs ≠ [] →
      (follow s cs name = .chain members ∧ isPrivate s members ↔ members.head? = some name ∧ Chain s cs members)
  | [], _, _, h => absurd rfl h
  | [c], name, members, _ => by
    constructor
    · rintro ⟨hf, hp⟩
      unfold follow at hf
      split at hf
      · cases hf
      · rename_i hfits
        obtain rfl : [name] = members := by simpa using hf
        exact ⟨rfl, .last (by simpa using hfits) (by simpa [isPrivate, isAnchor] using hp)⟩
    · rintro ⟨hhead, hc⟩
      cases hc with
      | last hf hi =>
        obtain rfl : _ = name := by simpa using hhead
        simp [follow, hf, isPrivate, isAnchor, hi]
      | link hf hi hs ho hr h => cases h
  | c :: c' :: cs, name, members, _ => by
    have ih := @follow_isPrivate_iff s (c' :: cs)
    constructor
    · rintro ⟨hf, hp⟩
      unfold follow at hf
      split at hf
      · cases hf
      · rename_i hfits
        split at hf
        · rename_i hcs
          cases hcs
        · rename_i next hsucc
          split at hf
          · rename_i rest hrest
            obtain rfl : name :: rest = members := by simpa using hf
            -- The rest of the chain is private as well, so it starts with the only consumer.
            have hrest' : isPrivate s rest := by
              match rest, hp with
              | [], _ => rfl
              | m :: rest, hp =>
                simp only [isPrivate, Bool.and_eq_true] at hp
                exact hp.2
            obtain ⟨hhead, hc⟩ := (ih (by simp)).1 ⟨hrest, hrest'⟩
            obtain ⟨rest, rfl⟩ := List.head?_eq_some_iff.1 hhead
            simp only [isPrivate, Bool.and_eq_true, Bool.not_eq_true'] at hp
            obtain ⟨⟨⟨hi, ho⟩, hr⟩, -⟩ := hp
            exact ⟨rfl, .link (by simpa using hfits) (by simpa [isAnchor] using hi) hsucc
              (by simpa [isBoundaryOutput] using ho) (by simpa [isRegistered] using hr) hc⟩
          · rename_i hno
            exact absurd hf (hno members)
        · split at hf <;> cases hf
    · rintro ⟨hhead, hc⟩
      cases hc with
      | @link _ _ _ next rest hf hi hs ho hr h =>
        obtain rfl : _ = name := by simpa using hhead
        obtain ⟨hfollow, hp⟩ := (ih (by simp)).2 ⟨rfl, h⟩
        refine ⟨?_, ?_⟩
        · unfold follow
          simp [hf, hs, hfollow]
        · simp [isPrivate, isAnchor, isBoundaryOutput, isRegistered, hi, ho, hr, hp]

/-- A pattern finds the chains that start at a node and satisfy its constraints. -/
lemma find_eq_chain_iff {s : Sandbox} {head : String} {p : Pattern} {members : List String} (hp : p.ops ≠ []) :
    Engine.find s head p = .chain members ↔ members.head? = some head ∧ Chain s p.ops members := by
  rw [← follow_isPrivate_iff hp]
  unfold Engine.find
  split
  · rename_i m hm
    rw [hm]
    split
    · rename_i hpriv
      constructor
      · intro h
        cases h
        exact ⟨rfl, hpriv⟩
      · rintro ⟨h, -⟩
        exact h
    · rename_i hpriv
      constructor
      · intro h
        cases h
      · rintro ⟨h, hpriv'⟩
        cases h
        exact absurd hpriv' hpriv
  · rename_i hno
    exact ⟨fun h => absurd h (hno members), fun h => absurd h.1 (hno members)⟩

/-- A chain that can be merged comes from a pattern with constraints. -/
lemma ops_ne_nil {s : Sandbox} {head : String} {p : Pattern} {members : List String}
    (hfind : Engine.find s head p = .chain members) (hlen : 2 ≤ members.length) : p.ops ≠ [] := by
  intro hp
  unfold Engine.find at hfind
  rw [hp, follow] at hfind
  simp only [isPrivate, ite_true] at hfind
  cases hfind
  simp at hlen

namespace Chain

variable {g : Graph} {o s : Sandbox} {cs : List Constraint} {members : List String}

/-- Every member of a chain fits one of the constraints. -/
lemma fits_mem (h : Chain s cs members) {m : String} (hm : m ∈ members) : ∃ c ∈ cs, fits s c m := by
  induction h with
  | @last c name hf hi =>
    obtain rfl := List.mem_singleton.1 hm
    exact ⟨c, List.mem_singleton_self c, hf⟩
  | @link c cs name next rest hf hi hs ho hr h ih =>
    rcases List.mem_cons.1 hm with rfl | hm
    · exact ⟨c, List.mem_cons_self, hf⟩
    · obtain ⟨c', hc', hf'⟩ := ih hm
      exact ⟨c', List.mem_cons_of_mem _ hc', hf'⟩

/-- The members of a chain are nodes of types that the constraints name. -/
lemma node_of_mem (h : Chain s cs members) {m : String} (hm : m ∈ members) :
    ∃ n, s.node? m = some n ∧ ∃ c ∈ cs, n.type = c.type := by
  obtain ⟨c, hc, hf⟩ := h.fits_mem hm
  unfold fits at hf
  split at hf
  · rename_i n hn
    simp only [Bool.and_eq_true, beq_iff_eq] at hf
    exact ⟨n, hn, c, hc, hf.1⟩
  · cases hf

lemma live (h : Chain s cs members) {m : String} (hm : m ∈ members) : m ∈ s.dag.keys := by
  obtain ⟨n, hn, -⟩ := h.node_of_mem hm
  rw [node?, Digraph.val?, Option.map_eq_some_iff] at hn
  obtain ⟨v, hv, -⟩ := hn
  exact Digraph.hasVertex_iff.1 (Digraph.hasVertex_iff_exists.2 ⟨v, hv⟩)

lemma inside (h : Chain s cs members) {m : String} (hm : m ∈ members) : ¬ s.anchors.contains m := by
  induction h with
  | last hf hi =>
    obtain rfl := List.mem_singleton.1 hm
    exact hi
  | link hf hi hs ho hr h ih =>
    rcases List.mem_cons.1 hm with rfl | hm
    · exact hi
    · exact ih hm

/-- A chain has a member for each constraint. -/
lemma length_eq (h : Chain s cs members) : members.length = cs.length := by
  induction h with
  | last => rfl
  | link hf hi hs ho hr h ih =>
    rw [List.length_cons, ih, List.length_cons]

/-- Every member but the last one has its only consumer inside the chain, where the edge to it is not registered. -/
lemma of_hasArc (h : Chain s cs members) (wf : s.dag.WellFormed) {m y : String} (hm : m ∈ members)
    (hmy : s.dag.hasArc m y) :
    members.getLast? = some m ∨
      (y ∈ members ∧ ¬ s.registered.contains (EdgeId.arc m y) ∧ ¬ s.outs.contains m ∧ s.dag.succs m = [y]) := by
  induction h with
  | last hf hi =>
    obtain rfl := List.mem_singleton.1 hm
    exact .inl rfl
  | @link c cs name next rest hf hi hs ho hr h ih =>
    rcases List.mem_cons.1 hm with rfl | hm
    · have hy : y = next := by
        have := wf.mem_succs.2 hmy
        rwa [hs, List.mem_singleton] at this
      subst hy
      exact .inr ⟨by simp, hr, ho, hs⟩
    · rw [List.getLast?_cons_cons]
      exact (ih hm).imp_right fun ⟨hy, hrest⟩ => ⟨List.mem_cons_of_mem _ hy, hrest⟩

/-- A path leads from the first member to all others and from all others to the last one. -/
lemma paths (h : Chain s cs members) (wf : s.dag.WellFormed) {last : String} (hl : members.getLast? = some last) :
    members.Pairwise (Relation.TransGen s.dag.Adj) ∧ ∀ m ∈ members, Relation.ReflTransGen s.dag.Adj m last := by
  induction h with
  | @last c name hf hi =>
    obtain rfl : name = last := by simpa using hl
    exact ⟨List.pairwise_singleton _ _, by simp [Relation.ReflTransGen.refl]⟩
  | @link c cs name next rest hf hi hs ho hr h ih =>
    rw [List.getLast?_cons_cons] at hl
    obtain ⟨hpair, hlast⟩ := ih hl
    have hadj : s.dag.Adj name next := wf.mem_succs.1 (hs ▸ List.mem_singleton_self next)
    refine ⟨List.pairwise_cons.2 ⟨fun m hm => ?_, hpair⟩, ?_⟩
    · rcases List.mem_cons.1 hm with rfl | hm
      · exact .single hadj
      · exact .head hadj ((List.pairwise_cons.1 hpair).1 m hm)
    · rw [List.forall_mem_cons]
      exact ⟨.head hadj (hlast next List.mem_cons_self), hlast⟩

/-- A chain has a last member. -/
lemma exists_last (h : Chain s cs members) : ∃ last, members.getLast? = some last := by
  cases h with
  | last hf hi => exact ⟨_, rfl⟩
  | link hf hi hs ho hr h => exact ⟨_, List.getLast?_eq_some_getLast (by simp)⟩

/-- No node is twice in a chain. -/
lemma nodup (h : Chain s cs members) (wf : s.dag.WellFormed) (ac : s.dag.Acyclic) : members.Nodup := by
  obtain ⟨last, hl⟩ := h.exists_last
  refine (h.paths wf hl).1.imp ?_
  rintro x y hxy rfl
  exact ac x hxy

/-- An edge out of the chain starts at its last member. -/
lemma last_of_outbound (h : Chain s cs members) (wf : s.dag.WellFormed) {m y : String} (hm : m ∈ members)
    (hy : y ∉ members) (hmy : s.dag.hasArc m y) : members.getLast? = some m :=
  (h.of_hasArc wf hm hmy).resolve_right fun hin => hy hin.1

/-- A member that is an output of the boundary is the last one. -/
lemma last_of_output (h : Chain s cs members) {m : String} (hm : m ∈ members) (ho : s.outs.contains m) :
    members.getLast? = some m := by
  induction h with
  | last hf hi =>
    rw [List.mem_singleton] at hm
    rw [hm]
    rfl
  | link hf hi hs hno hr h ih =>
    rw [List.getLast?_cons_cons]
    rcases List.mem_cons.1 hm with rfl | hm
    · exact absurd ho hno
    · exact ih hm

/-- A chain can be contracted to a node of a free name: no path leads from behind its last member back to it. -/
lemma contractible (h : Chain s cs members) (ht : Roster g o s) (hlen : 2 ≤ members.length) (ho : s.committed = false)
    {fused : String} (hfree : ¬ s.taken.contains fused) : s.Contractible members fused := by
  obtain ⟨last, hl⟩ := h.exists_last
  have hpaths := (h.paths ht.wellFormed hl).2
  refine ⟨ho, hlen, hfree, h.nodup ht.wellFormed ht.acyclic, fun m hm => h.live hm, fun m hm => h.inside hm, ?_, ?_⟩
  · intro e he
    obtain ⟨ha, hsrc, hdst⟩ := ht.mem_inner.1 he
    have harc : s.dag.Adj e.src e.dst := Digraph.hasArc_of_mem ha
    rcases h.of_hasArc ht.wellFormed hsrc harc with hlast | ⟨-, hreg, -⟩
    · -- An edge from the last member to a member would close a cycle.
      obtain rfl : last = e.src := by simpa [hl] using hlast
      exact absurd (Relation.TransGen.head' harc (hpaths _ hdst)) (ht.acyclic _)
    · exact hreg
  · intro e he i hi hreach
    obtain ⟨ha, hsrc, hdst⟩ := ht.mem_outbound.1 he
    obtain ⟨ha', hsrc', hdst'⟩ := ht.mem_inbound.1 hi
    have hlast := h.last_of_outbound ht.wellFormed hsrc hdst (Digraph.hasArc_of_mem ha)
    obtain rfl : last = e.src := by simpa [hl] using hlast
    have hpath : Relation.ReflTransGen s.dag.Adj e.dst i.src := (ht.wellFormed.proper.reachable_iff.1 hreach).2
    have hout : s.dag.Adj e.src e.dst := Digraph.hasArc_of_mem ha
    have hin : s.dag.Adj i.src i.dst := Digraph.hasArc_of_mem ha'
    exact ht.acyclic _ (.head' hout (hpath.trans (.head hin (hpaths _ hdst'))))

end Chain

/-- A chain that a pattern finds is merged under a free name exactly if the attributes of its members go together. -/
lemma merge_find_ok_iff {g : Graph} {s : Sandbox} (h : Edited g (Sandbox.copy g none) s) {head : String} {p : Pattern}
    {members : List String} (hlen : 2 ≤ members.length) (hfind : Engine.find s head p = .chain members) :
    (∃ r, s.merge members (s.uniqueName p.name) p.name p.name = .ok r) ↔ ∃ attrs, s.fusedAttrs members = .ok attrs := by
  obtain ⟨-, hc⟩ := (find_eq_chain_iff (ops_ne_nil hfind hlen)).1 hfind
  constructor
  · rintro ⟨⟨t, n⟩, hr⟩
    obtain ⟨-, hn, -⟩ := merge_ok_iff.1 hr
    obtain ⟨attrs, ha, -⟩ := fusedNode_ok_iff.1 hn
    exact ⟨attrs, ha⟩
  · rintro ⟨attrs, ha⟩
    exact ⟨⟨_, _⟩, merge_ok_iff.2 ⟨hc.contractible h.tracks.toRoster hlen h.isOpen (s.not_taken_uniqueName p.name),
      fusedNode_ok_iff.2 ⟨attrs, ha, rfl⟩, rfl⟩⟩

end Engine

end OpGraph
