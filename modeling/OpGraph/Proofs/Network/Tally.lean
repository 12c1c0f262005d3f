import Mathlib
import OpGraph.Proofs.Network.Provenance
import OpGraph.Proofs.Network.Settling

/-!
# The books of a sandbox

While the engine runs, the operators that the nodes of the sandbox stand for, together with those that were dropped, are
the operators there were at first, and a node without a record is the operator of its name. If a fused node is dropped,
its record goes astray.
-/

namespace OpGraph

open Sandbox

/-- What neither settings nor drops change of a node: its name, its type and the variables it writes. -/
def Node.core (n : Node) : Node :=
  { n.bare with inputs := [] }

namespace Sandbox

variable {g g₀ : Graph} {o s t : Sandbox} {elided : List String}

/-! ### Rolls -/

/-- The operators that the nodes of a sandbox stand for. -/
def roll (s : Sandbox) : List String :=
  s.dag.keys.flatMap s.originals

/-- A node without a record stands for itself. -/
lemma originals_of_none {c : String} (h : s.merges.get? c = none) : s.originals c = [c] := by
  rw [originals, h]

/-- A node with a record stands for its members. -/
lemma originals_of_some {c : String} {r : MergeRecord} (h : s.merges.get? c = some r) : s.originals c = r.members := by
  rw [originals, h]

/-- What a node stands for depends on its record only. -/
lemma originals_congr {c : String} (h : t.merges.get? c = s.merges.get? c) : t.originals c = s.originals c := by
  rw [originals, originals, h]

/-- Nodes with the same names and records stand for the same operators. -/
lemma roll_congr (hs : s.dag.WellFormed) (ht : t.dag.WellFormed) (hkeys : ∀ k, k ∈ t.dag.keys ↔ k ∈ s.dag.keys)
    (hmerges : ∀ k, t.merges.get? k = s.merges.get? k) : t.roll.Perm s.roll := by
  have hperm : t.dag.keys.Perm s.dag.keys := (List.perm_ext_iff_of_nodup ht.keys_nodup hs.keys_nodup).2 hkeys
  rw [roll, List.flatMap_congr fun k _ => originals_congr (hmerges k)]
  exact hperm.flatMap_right _

section Contract

variable {names : List String} {fused : Node}

/-- The nodes that are not members of a merge. -/
def bystanders (s : Sandbox) (names : List String) : List String :=
  s.dag.keys.filter (· ∉ names)

/-- The bystanders of a merge are the nodes that are no members. -/
lemma mem_bystanders {k : String} : k ∈ s.bystanders names ↔ k ∈ s.dag.keys ∧ k ∉ names := by
  rw [bystanders, List.mem_filter, decide_eq_true_eq]

/-- All nodes are members of a merge or bystanders. -/
lemma keys_perm_bystanders (hs : Roster g o s) (hm : s.Contractible names fused.name) :
    s.dag.keys.Perm (names ++ s.bystanders names) := by
  have hnd := hs.wellFormed.keys_nodup
  refine (List.perm_ext_iff_of_nodup hnd ?_).2 fun k => ?_
  · exact List.nodup_append.2 ⟨hm.nodup, hnd.filter _, fun a ha b hb he => (mem_bystanders.1 hb).2 (he ▸ ha)⟩
  · rw [List.mem_append, mem_bystanders]
    by_cases hk : k ∈ names
    · exact iff_of_true (hm.live k hk) (.inl hk)
    · simp [hk]

/-- After a merge there are the fused node and the bystanders. -/
lemma keys_contract_perm (hs : Roster g o s) (hm : s.Contractible names fused.name) (record : MergeRecord) :
    (s.contract names fused record).dag.keys.Perm (fused.name :: s.bystanders names) := by
  have hfresh : fused.name ∉ s.dag.keys := fun hk => hm.free (hs.live_taken _ hk)
  refine (List.perm_ext_iff_of_nodup (hs.contract hm record).wellFormed.keys_nodup ?_).2 fun k => ?_
  · exact List.nodup_cons.2 ⟨fun hk => hfresh (mem_bystanders.1 hk).1, hs.wellFormed.keys_nodup.filter _⟩
  · rw [mem_keys_contract hs hm, List.mem_cons, mem_bystanders]

/-- The fused node stands for all that the members stood for. -/
lemma roll_contract (hs : Roster g o s) (hm : s.Contractible names fused.name) (pattern : String) :
    s.roll.Perm (s.contract names fused (s.provenance names fused.name pattern)).roll := by
  have hkeys := keys_contract_perm hs hm (s.provenance names fused.name pattern)
  have hget := hs.get?_merges_contract hm (s.provenance names fused.name pattern)
  -- from here on only the names and the records after the merge matter
  generalize s.contract names fused (s.provenance names fused.name pattern) = t at hkeys hget
  have hfused : t.originals fused.name = names.flatMap s.originals := by
    rw [originals_of_some ((hget _).trans (if_pos rfl)), members_provenance]
  have hrest : (s.bystanders names).flatMap t.originals = (s.bystanders names).flatMap s.originals := by
    refine List.flatMap_congr fun k hk => originals_congr ?_
    obtain ⟨hk, hn⟩ := mem_bystanders.1 hk
    have hne : k ≠ fused.name := by
      rintro rfl
      exact hm.free (hs.live_taken _ hk)
    rw [hget, if_neg hne, if_neg hn]
  calc s.roll.Perm ((names ++ s.bystanders names).flatMap s.originals) := (keys_perm_bystanders hs hm).flatMap_right _
    _ = (fused.name :: s.bystanders names).flatMap t.originals := by
      rw [List.flatMap_append, List.flatMap_cons, hfused, hrest]
    List.Perm _ t.roll := (hkeys.flatMap_right _).symm

end Contract

/-! ### Books of a sandbox -/

/-- The nodes of a sandbox stand for the operators of the graph `g₀` that were not dropped, and those without a record
are what they were. -/
structure Balanced (g₀ : Graph) (elided : List String) (s : Sandbox) : Prop where
  perm : g₀.names.Perm (s.roll ++ elided)
  live : ∀ {f r}, s.merges.get? f = some r → f ∈ s.dag.keys
  inhabited : ∀ {f r}, s.merges.get? f = some r → r.members ≠ []
  own : ∀ {k}, k ∈ s.dag.keys → s.merges.get? k = none → (s.node? k).map Node.core = (g₀.node? k).map Node.core

/-- There is a record of a fused node that is gone, and its name is not free. -/
def Astray (s : Sandbox) : Prop :=
  ∃ f r, s.merges.get? f = some r ∧ f ∉ s.dag.keys ∧ s.taken.contains f

/-- The books of a sandbox balance unless a record went astray. -/
def Tallied (g₀ : Graph) (elided : List String) (s : Sandbox) : Prop :=
  Balanced g₀ elided s ∨ Astray s

namespace Balanced

/-- Every node stands for some operator while the books balance. -/
lemma originals_ne_nil (h : Balanced g₀ elided s) (c : String) : s.originals c ≠ [] := by
  cases hc : s.merges.get? c with
  | none => simp [originals_of_none hc]
  | some r =>
    rw [originals_of_some hc]
    exact h.inhabited hc

/-- A merge leaves the books balanced. -/
lemma contract (h : Balanced g₀ elided s) (hs : Roster g o s) {names : List String} {fused : Node}
    (hm : s.Contractible names fused.name) (pattern : String) :
    Balanced g₀ elided (s.contract names fused (s.provenance names fused.name pattern)) := by
  have hget := hs.get?_merges_contract hm (s.provenance names fused.name pattern)
  have hmem : ∀ {k}, k ∈ (s.contract names fused (s.provenance names fused.name pattern)).dag.keys ↔ _ :=
    mem_keys_contract hs hm _
  refine ⟨h.perm.trans ((roll_contract hs hm pattern).append_right elided), fun {f r} hf => ?_, fun {f r} hf => ?_,
    fun {k} hk hnone => ?_⟩
  · rw [hget] at hf
    split at hf
    · exact hmem.2 (.inl ‹_›)
    · split at hf
      · cases hf
      · exact hmem.2 (.inr ⟨h.live hf, ‹_›⟩)
  · rw [hget] at hf
    split at hf
    · cases hf
      -- a merge has two members or more, and each of them stands for some operator
      obtain ⟨m, hmem⟩ := List.exists_mem_of_ne_nil names (by rintro rfl; exact absurd hm.two (by decide))
      obtain ⟨x, hx⟩ := List.exists_mem_of_ne_nil _ (h.originals_ne_nil m)
      exact List.ne_nil_of_mem (List.mem_flatMap.2 ⟨m, hmem, hx⟩)
    · split at hf
      · cases hf
      · exact h.inhabited hf
  · rw [hget] at hnone
    split at hnone
    · cases hnone
    · rename_i hne
      obtain ⟨hk, hn⟩ := (hmem.1 hk).resolve_left hne
      rw [if_neg hn] at hnone
      rw [← h.own hk hnone, node?, node?, Digraph.val?, Digraph.val?, hs.vertex?_contract hm, if_neg hne, if_neg hn]

/-- A node without a record that is dropped is an operator that is dropped. -/
lemma drop (h : Balanced g₀ elided s) (hs : Roster g o s) {name : String} (hd : s.drop name = .ok t)
    (hnone : s.merges.get? name = none) : Balanced g₀ (elided ++ [name]) t := by
  have ht : Roster g o t := hs.edit (e := .drop name) hd
  obtain ⟨src, hdrop, rfl⟩ := drop_ok_iff.1 hd
  obtain ⟨hkeys, -, -, hrec⟩ := drop_frame hs name src
  obtain ⟨hmerges, -, -⟩ := records_eq_iff.1 hrec
  have hnode := fun {k} (hk : k ≠ name) => hs.map_node?_drop (f := Node.core) (fun _ _ => rfl) hk src
  generalize ((s.outEdges name).foldl (bypass src) (s.removeNode name)).pruneRenames = t at ht hkeys hmerges hnode
  have hperm : s.dag.keys.Perm (name :: t.dag.keys) := by
    refine (List.perm_ext_iff_of_nodup hs.wellFormed.keys_nodup ?_).2 fun k => ?_
    · exact List.nodup_cons.2 ⟨fun hk => ((hkeys name).1 hk).2 rfl, ht.wellFormed.keys_nodup⟩
    · rw [List.mem_cons, hkeys]
      by_cases hk : k = name
      · exact iff_of_true (hk ▸ hdrop.live) (.inl hk)
      · simp [hk]
  have hroll : s.roll.Perm (name :: t.roll) := by
    have heq : t.originals = s.originals := funext fun k => originals_congr (by rw [hmerges])
    rw [roll, roll, heq]
    refine (hperm.flatMap_right _).trans ?_
    rw [List.flatMap_cons, originals_of_none hnone]
    exact List.Perm.refl _
  refine ⟨?_, fun {f r} hf => ?_, fun {f r} hf => ?_, fun {k} hk hno => ?_⟩
  · refine h.perm.trans ((hroll.append_right elided).trans ?_)
    rw [← List.append_assoc]
    exact (List.perm_append_singleton name (t.roll ++ elided)).symm
  · rw [hmerges] at hf
    refine (hkeys f).2 ⟨h.live hf, ?_⟩
    rintro rfl
    rw [hnone] at hf
    cases hf
  · exact h.inhabited (hmerges ▸ hf)
  · obtain ⟨hk, hne⟩ := (hkeys k).1 hk
    rw [hnode hne]
    exact h.own hk (hmerges ▸ hno)

end Balanced

namespace Astray

/-- A merge does not bring back a record that went astray. -/
lemma contract (h : Astray s) (hs : Roster g o s) {names : List String} {fused : Node}
    (hm : s.Contractible names fused.name) (record : MergeRecord) : Astray (s.contract names fused record) := by
  obtain ⟨f, r, hf, hgone, htaken⟩ := h
  -- the name of the lost node stays taken, so no merge can bring it back
  have hne : f ≠ fused.name := by
    rintro rfl
    exact hm.free htaken
  refine ⟨f, r, ?_, fun hk => ?_, ?_⟩
  · rw [hs.get?_merges_contract hm, if_neg hne, if_neg fun hmem => hgone (hm.live f hmem), hf]
  · exact hgone (((mem_keys_contract hs hm record).1 hk).resolve_left hne).1
  · rw [taken_contract hs hm, NameSet.contains_add]
    exact .inr htaken

/-- A drop does not bring back a record that went astray. -/
lemma drop (h : Astray s) (hs : Roster g o s) {name : String} (hd : s.drop name = .ok t) : Astray t := by
  obtain ⟨f, r, hf, hgone, htaken⟩ := h
  obtain ⟨src, -, rfl⟩ := drop_ok_iff.1 hd
  obtain ⟨hkeys, ht, -, hrec⟩ := drop_frame hs name src
  exact ⟨f, r, (records_eq_iff.1 hrec).1 ▸ hf, fun hk => hgone ((hkeys f).1 hk).1, ht ▸ htaken⟩

/-- The record of a fused node that is dropped goes astray. -/
lemma of_drop (hs : Roster g o s) {name : String} (hd : s.drop name = .ok t) {r : MergeRecord}
    (hr : s.merges.get? name = some r) : Astray t := by
  obtain ⟨src, hdrop, rfl⟩ := drop_ok_iff.1 hd
  obtain ⟨hkeys, ht, -, hrec⟩ := drop_frame hs name src
  exact ⟨name, r, (records_eq_iff.1 hrec).1 ▸ hr, fun hk => ((hkeys name).1 hk).2 rfl, ht ▸ hs.live_taken _ hdrop.live⟩

end Astray

namespace Tallied

/-- A step of the engine keeps the books. -/
lemma step (h : Tallied g₀ elided s) (hs : Roster g o s) {e : Engine} {ed : Edit} (hstep : e.Step s ed t) :
    Tallied g₀ (elided ++ ed.dropped?.toList) t := by
  cases hstep with
  | @drop name t hok =>
    rcases h with h | h
    · -- what is dropped is an operator, or a fused node whose record stays behind
      cases hr : s.merges.get? name with
      | none => exact .inl (h.drop hs hok hr)
      | some r => exact .inr (.of_drop hs hok hr)
    · exact .inr (h.drop hs hok)
  | @merge head p members t n hp hfind hok =>
    obtain ⟨hm, hn, rfl⟩ := merge_ok_iff.1 hok
    have hname := fusedNode_name hn
    rw [← hname] at hm ⊢
    have hnil : elided ++ (Edit.merge members n.name p.name p.name).dropped?.toList = elided := List.append_nil elided
    rw [hnil]
    rcases h with h | h
    · exact .inl (h.contract hs hm p.name)
    · exact .inr (h.contract hs hm _)

/-- A run of the engine keeps the books. -/
lemma runs (h : Tallied g₀ elided s) (hs : Roster g o s) {e : Engine} {trace : List (Sandbox × Edit)}
    (hr : e.Runs s trace t) : Tallied g₀ (elided ++ Engine.elisions trace) t := by
  induction hr with
  | nil => rwa [Engine.elisions, List.filterMap_nil, List.append_nil]
  | snoc hr hstep ih =>
    rw [Engine.elisions_append, ← List.append_assoc]
    exact ih.step (hr.roster hs) hstep

end Tallied

/-! ### Respelling pins -/

/-- Respelling pins changes attributes only. -/
lemma redressed_normalize (hs : Roster g o s) (known : Dict Layout) :
    Redressed s (s.normalize known).1 ∧ (s.normalize known).1.taken = s.taken := by
  refine normalize_induct (P := fun t => Redressed s t ∧ t.taken = s.taken) ?_ ⟨.refl s, rfl⟩
  rintro u n hn old text t - ⟨hu, htaken⟩ hup
  obtain ⟨dag, hdag, -, rfl⟩ := updateNode_ok_iff.1 hup
  obtain ⟨v, hv, rfl⟩ := List.mem_map.1 hn
  have hnode : s.node? (repin v.val text).name = some v.val := by
    show s.node? v.val.name = some v.val
    rw [hs.named v hv, node?, Digraph.val?, hs.wellFormed.vertex?_eq_some_iff.2 ⟨hv, rfl⟩]
    rfl
  refine ⟨⟨fun k => ?_, fun k => ?_, hu.registered, hu.ins, hu.outs, hu.merges⟩, htaken⟩
  · show (dag.val? k).map Node.bare = _
    rw [Digraph.val?, Digraph.vertex?_setVertex hdag]
    split
    · rename_i hk
      have hold := hu.node k
      rw [hk, hnode] at hold ⊢
      obtain ⟨w, hw, -⟩ := Option.map_eq_some_iff.1 hold
      obtain ⟨x, hx, -⟩ := Option.map_eq_some_iff.1 hw
      rw [hx]
      rfl
    · exact hu.node k
  · show dag.arcsFrom k = _
    rw [Digraph.arcsFrom, Digraph.arcs_setVertex hdag]
    exact hu.arcsFrom k

/-- The books do not depend on attributes. -/
lemma Balanced.redressed (h : Balanced g₀ elided s) (hs : s.dag.WellFormed) (ht : t.dag.WellFormed)
    (hr : Redressed s t) :
    Balanced g₀ elided t where
  perm := by
    have hroll := roll_congr hs ht (fun k => hr.mem_keys) fun k => by rw [hr.merges]
    exact h.perm.trans (hroll.symm.append_right elided)
  live := fun hf => hr.mem_keys.2 (h.live (hr.merges ▸ hf))
  inhabited := fun hf => h.inhabited (hr.merges ▸ hf)
  own := by
    intro k hk hno
    rw [← h.own (hr.mem_keys.1 hk) (hr.merges ▸ hno)]
    have hbare := congrArg (Option.map fun v : Node => { v with inputs := [] }) (hr.node k)
    rwa [Option.map_map, Option.map_map] at hbare

/-- Normalizing leaves the books as they are. -/
lemma Tallied.normalize (h : Tallied g₀ elided s) (hs : Roster g o s) (known : Dict Layout) :
    Tallied g₀ elided (s.normalize known).1 := by
  obtain ⟨hr, htaken⟩ := redressed_normalize hs known
  rcases h with h | ⟨f, r, hf, hgone, hf'⟩
  · exact .inl (h.redressed hs.wellFormed (hs.normalize known).wellFormed hr)
  · exact .inr ⟨f, r, hr.merges.symm ▸ hf, fun hk => hgone (hr.mem_keys.1 hk), htaken.symm ▸ hf'⟩

end Sandbox

end OpGraph
