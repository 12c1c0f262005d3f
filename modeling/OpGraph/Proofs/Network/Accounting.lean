import Mathlib
import OpGraph.Proofs.Network.Tally
import OpGraph.Proofs.Workspace

/-!
# Accounting for operators

Every operator of a frozen network is in a later network as it was, or a record lists it, or it was dropped, and no two
of these at once. The books of a sandbox carry over to the graph it is committed to: a record that went astray makes the
graph refuse the commit.
-/

namespace OpGraph

open Sandbox

/-- A name is listed exactly if there is a node of that name. -/
lemma Graph.mem_names_iff {g : Graph} {k : String} : k ∈ g.names ↔ ∃ v, g.node? k = some v := by
  rw [Graph.names, ← Digraph.hasVertex_iff, Digraph.hasVertex, ← Option.isSome_iff_exists, Graph.node?, Digraph.val?,
    Option.isSome_map]

namespace Network

variable {g₀ g : Graph} {n m k : Network} {t : Sandbox} {elided : List String}

/-! ### Commits -/

/-- The sandbox `t` was made from a copy of the graph of a network by edits. -/
structure Edits (n : Network) (t : Sandbox) : Prop where
  sound : n.graph.Sound
  roster : Roster n.graph (Sandbox.copy n.graph none) t
  recorded : Recorded n.graph t
  retired : Retired (Sandbox.copy n.graph none) t

namespace Edits

lemma copy (wf : n.graph.WellFormed) (hg : n.graph.Sound) : Edits n (Sandbox.copy n.graph none) :=
  ⟨hg, .copy wf hg none, .copy n.graph none, List.forall_mem_nil _⟩

/-- One more edit is an edit. -/
lemma edit {s : Sandbox} (h : Edits n s) {e : Edit} (he : s.edit e = .ok t) : Edits n t :=
  ⟨h.sound, h.roster.edit he, h.recorded.edit h.roster h.sound he, h.retired.edit h.roster he⟩

/-- The steps of a run are edits. -/
lemma runs {s : Sandbox} (h : Edits n s) {e : Engine} {trace : List (Sandbox × Edit)} (hr : e.Runs s trace t) :
    Edits n t :=
  hr.induct h fun _ _ _ hs hstep => hs.edit hstep.edit_ok

/-- Normalizing makes edits only. -/
lemma normalize {s : Sandbox} (h : Edits n s) (known : Dict Layout) : Edits n (s.normalize known).1 :=
  normalize_induct (fun _ _ _ _ _ _ _ hs hu => hs.edit (e := .update _) hu) h

/-- The nodes of the sandbox are those of the graph that were not taken out and those that were added. -/
lemma mem_keys_iff (h : Edits n t) {k : String} :
    k ∈ t.dag.keys ↔ (k ∈ n.graph.names ∧ k ∉ t.removedNodes) ∨ k ∈ t.added := by
  have hkeys : ∀ {k}, k ∈ (Sandbox.copy n.graph none).dag.keys ↔ k ∈ n.graph.names := by
    intro k
    rw [keys_copy_none]
    rfl
  constructor
  · intro hk
    rcases h.roster.live hk with ha | ho
    · exact .inr ha
    · exact .inl ⟨hkeys.1 ho, fun hr => (h.roster.removed k hr).2.2 hk⟩
  · rintro (⟨hk, hr⟩ | ha)
    · exact h.roster.present k (hkeys.2 hk) hr
    · exact (h.roster.added k ha).1

/-- Where nothing was taken out, no record was superseded. -/
lemma supersedes_eq_nil (h : Edits n t) (hr : t.removedNodes = []) : t.supersedes = [] := by
  refine List.eq_nil_iff_forall_not_mem.2 fun f hf => ?_
  obtain ⟨ho, hk⟩ := h.retired f hf
  exact hk (h.roster.present f ho (hr ▸ List.not_mem_nil))

end Edits

namespace Commits

/-- The nodes after a commit are those of the sandbox. -/
lemma names_iff (h : n.Commits t g) (ht : Edits n t) {k : String} : k ∈ g.names ↔ k ∈ t.dag.keys := by
  have hadded : (∃ q ∈ t.patch.addNodes, q.node.name = k) ↔ k ∈ t.added := by
    rw [← ht.roster.names_addNodes, List.mem_map]
  rw [ht.mem_keys_iff]
  rcases h with ⟨hempty, rfl⟩ | h
  · simp only [Patch.isEmpty, Bool.and_eq_true, List.isEmpty_iff, and_assoc] at hempty
    obtain ⟨-, hremoved, hadd, -⟩ := hempty
    have hremoved : t.removedNodes = [] := hremoved
    rw [← hadded, hremoved, hadd]
    simp
  · rw [h.names, hadded]
    rfl

/-- The records of the graph are those that were not superseded and the new ones. -/
lemma merges_eq (h : n.Commits t g) (ht : Edits n t) :
    g.merges = n.graph.merges.filter (fun r : MergeRecord => !t.supersedes.contains r.fused) ++
      t.newMerges.filterMap t.mergeRecord? := by
  rcases h with ⟨hempty, rfl⟩ | h
  · simp only [Patch.isEmpty, Bool.and_eq_true, List.isEmpty_iff, and_assoc] at hempty
    obtain ⟨-, hremoved, -, -, -, hmerges⟩ := hempty
    have hmerges : t.newMerges.filterMap t.mergeRecord? = [] := hmerges
    rw [ht.supersedes_eq_nil hremoved, hmerges, List.append_nil]
    exact (List.filter_eq_self.2 fun _ _ => rfl).symm
  · exact h.merges

/-- The graph has the records of the sandbox. -/
lemma lastRecord?_eq (h : n.Commits t g) (ht : Edits n t) (f : String) : lastRecord? g f = t.merges.get? f := by
  have hfused : ∀ r ∈ t.newMerges.filterMap t.mergeRecord?, r.fused ∈ t.newMerges ∧ t.merges.get? r.fused = some r := by
    intro r hr
    obtain ⟨f, hf, hget⟩ := List.mem_filterMap.1 hr
    obtain ⟨r', hr', rfl⟩ := ht.recorded.new f hf
    obtain rfl : r = r' := Option.some.inj (hget.symm.trans hr')
    exact ⟨hf, hget⟩
  rw [lastRecord?, h.merges_eq ht, List.reverse_append, List.find?_append]
  by_cases hf : f ∈ t.newMerges
  · -- a new record comes after all the old ones
    obtain ⟨r, hr, rfl⟩ := ht.recorded.new f hf
    have hmem : r ∈ (t.newMerges.filterMap t.mergeRecord?).reverse :=
      List.mem_reverse.2 (List.mem_filterMap.2 ⟨_, hf, hr⟩)
    obtain ⟨r', hr'⟩ := Option.isSome_iff_exists.1
      (List.find?_isSome (p := fun r' => r'.fused == r.fused).2 ⟨r, hmem, beq_self_eq_true r.fused⟩)
    have hsame : r'.fused = r.fused := by simpa using List.find?_some hr'
    have hget := (hfused r' (List.mem_reverse.1 (List.mem_of_find?_eq_some hr'))).2
    rw [hr', Option.some_or, ← hget, hsame]
  · have hnone : (t.newMerges.filterMap t.mergeRecord?).reverse.find? (·.fused == f) = none := by
      refine List.find?_eq_none.2 fun r hr he => hf ?_
      rw [← beq_iff_eq.1 he]
      exact (hfused r (List.mem_reverse.1 hr)).1
    rw [hnone, Option.none_or, ht.recorded.old f hf, ← List.filter_reverse, List.find?_filter]
    by_cases hs : f ∈ t.supersedes
    · rw [if_pos hs, List.find?_eq_none]
      intro r _ he
      simp only [Bool.not_eq_true', List.contains_eq_mem, decide_eq_false_iff_not, beq_iff_eq, decide_eq_true_eq] at he
      exact he.1 (he.2 ▸ hs)
    · rw [if_neg hs, lastRecord?]
      congr 1
      funext r
      by_cases he : r.fused = f
      · simp [he, hs]
      · simp [he]

/-- Each fused node has one record after a commit. -/
lemma fused_nodup (h : n.Commits t g) (ht : Edits n t) (hone : (n.graph.merges.map (·.fused)).Nodup) :
    (g.merges.map (·.fused)).Nodup := by
  have hnew : ∀ fs : List String, (∀ f ∈ fs, f ∈ t.newMerges) → (fs.filterMap t.mergeRecord?).map (·.fused) = fs := by
    intro fs
    induction fs with
    | nil => intro _; rfl
    | cons f fs ih =>
      intro hall
      obtain ⟨hf, hfs⟩ := List.forall_mem_cons.1 hall
      obtain ⟨r, hr, rfl⟩ := ht.recorded.new f hf
      have hr : t.mergeRecord? r.fused = some r := hr
      rw [List.filterMap_cons_some hr, List.map_cons, ih hfs]
  rw [h.merges_eq ht, List.map_append, hnew _ fun _ => id]
  refine List.nodup_append.2 ⟨hone.sublist (List.filter_sublist.map _), ht.recorded.new_nodup, ?_⟩
  -- a new fused node has a fresh name, and an old one was a node of the graph
  rintro a ha b hb rfl
  obtain ⟨r, hr, rfl⟩ := List.mem_map.1 ha
  have hlive := ht.sound.merges r (List.mem_of_mem_filter hr)
  exact (ht.recorded.new_taken _ hb).2 (Digraph.hasVertex_iff.1 hlive)

/-- A node of the graph is one of the graph before or one of the sandbox. -/
lemma node?_cases (h : n.Commits t g) (ht : Edits n t) {k : String} {v : Node} (hv : g.node? k = some v) :
    n.graph.node? k = some v ∨ t.node? k = some v := by
  rcases h with ⟨-, rfl⟩ | h
  · exact .inl hv
  · have hname := h.wellFormed.name_of_node? hv
    have hlive : ∀ w ∈ t.dag.vertices, w.val = v → t.node? k = some v := by
      rintro w hw rfl
      rw [← hname, ht.roster.named w hw, node?, Digraph.val?, ht.roster.wellFormed.vertex?_eq_some_iff.2 ⟨hw, rfl⟩]
      rfl
    rcases h.patched.node hv with hv | ⟨q, hq, rfl⟩ | hv
    · exact .inl hv
    · obtain ⟨name, -, hq⟩ := List.mem_filterMap.1 hq
      obtain ⟨w, hw, rfl⟩ := Option.map_eq_some_iff.1 hq
      exact .inr (hlive w (Digraph.mem_of_vertex? hw) rfl)
    · obtain ⟨w, hw, hwv⟩ := List.mem_map.1 hv
      exact .inr (hlive w (List.mem_of_mem_filter hw) hwv)

end Commits

/-! ### Ledgers -/

/-- Each fused node of a graph has one record, and the books of the graph balance. -/
structure Ledger (g₀ : Graph) (elided : List String) (g : Graph) : Prop where
  once : (g.merges.map (·.fused)).Nodup
  balanced : Balanced g₀ elided (Sandbox.copy g none)

namespace Ledger

/-- A graph without records accounts for itself. -/
lemma of_nil (hg : g.merges = []) : Ledger g [] g := by
  have hnone := get?_merges_of_nil hg
  refine ⟨hg ▸ List.nodup_nil, ?_, fun {f r} hf => ?_, fun {f r} hf => ?_, fun {k} _ _ => ?_⟩
  · have hself : (Sandbox.copy g none).originals = fun k => [k] := funext fun k => originals_of_none (hnone k)
    rw [roll, hself, keys_copy_none, List.flatMap_singleton', List.append_nil]
    exact List.Perm.refl _
  · rw [hnone] at hf
    cases hf
  · rw [hnone] at hf
    cases hf
  · rw [node?_copy]

/-- Settings do not matter to the books. -/
lemma updateNode (h : Ledger g₀ elided g) (wf : g.WellFormed) (op : String) {f : Node → Node}
    (hf : ∀ v, (f v).bare = v.bare) :
    Ledger g₀ elided (g.updateNode op f) :=
  ⟨h.once, h.balanced.redressed (wellFormed_copy wf.dag none) (wellFormed_copy
    (wf.updateNode op fun v => Node.name_of_bare (hf v)).dag none) (Graph.redressed_updateNode g op hf)⟩

/-- The books of a graph after a commit are those of the sandbox. -/
lemma commit (h : Ledger g₀ elided n.graph) (wf : n.graph.WellFormed) (hg : n.graph.Sound) {e : Engine}
    {trace : List (Sandbox × Edit)} {s : Sandbox} (hr : e.Runs (Sandbox.copy n.graph none) trace s)
    {known : Dict Layout} (hc : n.Commits (s.normalize known).1 g) : Ledger g₀ (elided ++ Engine.elisions trace) g := by
  have hedits : Edits n s := (Edits.copy wf hg).runs hr
  have ht := hedits.normalize known
  have htally : Tallied g₀ (elided ++ Engine.elisions trace) (s.normalize known).1 :=
    (Tallied.runs (.inl h.balanced) (.copy wf hg none) hr).normalize hedits.roster known
  generalize (s.normalize known).1 = t at hc ht htally
  obtain ⟨hwf, hsound⟩ := hc.sound wf hg
  have hkeys : ∀ k, k ∈ (Sandbox.copy g none).dag.keys ↔ k ∈ t.dag.keys := by
    intro k
    rw [keys_copy_none, ← hc.names_iff ht]
    rfl
  have hmerges : ∀ f, (Sandbox.copy g none).merges.get? f = t.merges.get? f := fun f => by
    rw [Recorded.get?_copy, hc.lastRecord?_eq ht]
  refine ⟨hc.fused_nodup ht h.once, ?_⟩
  rcases htally with hbal | ⟨f, r, hf, hgone, -⟩
  · have hroll := roll_congr ht.roster.wellFormed (wellFormed_copy hwf.dag none) hkeys hmerges
    refine ⟨hbal.perm.trans (hroll.symm.append_right _), fun hf => (hkeys _).2 (hbal.live (hmerges _ ▸ hf)),
      fun hf => hbal.inhabited (hmerges _ ▸ hf), fun {k} hk hno => ?_⟩
    rw [hmerges] at hno
    rw [hkeys] at hk
    obtain ⟨v, hv⟩ := Graph.mem_names_iff.1 ((hc.names_iff ht).2 hk)
    rw [node?_copy, hv]
    rcases hc.node?_cases ht hv with hold | hnew
    · -- the node was there before, and without a record: a record would have been superseded only with the node gone
      have hunsuperseded : k ∉ t.supersedes := fun hs => (ht.retired k hs).2 hk
      have hunrecorded : k ∉ t.newMerges := by
        intro hnew
        obtain ⟨r, hr, -⟩ := ht.recorded.new k hnew
        rw [hno] at hr
        cases hr
      have hlast := ht.recorded.old k hunrecorded
      rw [hno, if_neg hunsuperseded, ← Recorded.get?_copy n.graph none] at hlast
      have hbefore : k ∈ (Sandbox.copy n.graph none).dag.keys := by
        rw [keys_copy_none]
        exact Graph.mem_names_iff.2 ⟨v, hold⟩
      rw [← h.balanced.own hbefore hlast.symm, node?_copy, hold]
    · rw [← hbal.own hk hno, hnew]
  · -- the graph has no record of a node that is gone
    rw [← hc.lastRecord?_eq ht] at hf
    obtain ⟨hr, rfl⟩ := fused_of_lastRecord? hf
    exact absurd ((hc.names_iff ht).1 (Digraph.hasVertex_iff.1 (hsound.merges r hr))) hgone

/-- The nodes of a graph that are not fused ones. -/
def unfused (g : Graph) : List String :=
  g.names.filter fun k => k ∉ g.merges.map (·.fused)

/-- A node is not fused exactly if it has no record. -/
lemma mem_unfused {x : String} : x ∈ unfused g ↔ x ∈ g.names ∧ ∀ r ∈ g.merges, r.fused ≠ x := by
  simp [unfused]

/-- The nodes of a graph are its fused ones and the others. -/
lemma names_perm (h : Ledger g₀ elided g) (wf : g.WellFormed) (hg : g.Sound) :
    g.names.Perm (g.merges.map (·.fused) ++ unfused g) := by
  have hnd := wf.dag.keys_nodup
  refine (List.perm_ext_iff_of_nodup hnd ?_).2 fun k => ?_
  · refine List.nodup_append.2 ⟨h.once, hnd.filter _, ?_⟩
    rintro a ha b hb rfl
    obtain ⟨r, hr, rfl⟩ := List.mem_map.1 ha
    exact (mem_unfused.1 hb).2 r hr rfl
  · rw [List.mem_append, List.mem_map, mem_unfused]
    constructor
    · intro hk
      by_cases hr : ∃ r ∈ g.merges, r.fused = k
      · exact .inl hr
      · push Not at hr
        exact .inr ⟨hk, hr⟩
    · rintro (⟨r, hr, rfl⟩ | ⟨hk, -⟩)
      · exact Digraph.hasVertex_iff.1 (hg.merges r hr)
      · exact hk

/-- The operators there were at first are those that the records list, the nodes that are not fused and those that were
dropped. -/
lemma perm (h : Ledger g₀ elided g) (wf : g.WellFormed) (hg : g.Sound) :
    g₀.names.Perm (g.merges.flatMap (·.members) ++ (unfused g ++ elided)) := by
  have hone : g.OneRecord := fun r hr r' hr' he => List.inj_on_of_nodup_map h.once hr hr' he
  have hfused : ∀ r ∈ g.merges, (Sandbox.copy g none).originals r.fused = r.members := fun r hr =>
    originals_of_some ((get?_merges_copy hone).2 ⟨hr, rfl⟩)
  have hunfused : ∀ k ∈ unfused g, (Sandbox.copy g none).originals k = [k] := by
    intro k hk
    apply originals_of_none
    refine Option.eq_none_iff_forall_ne_some.2 fun r hr => ?_
    obtain ⟨hr, he⟩ := (get?_merges_copy hone).1 hr
    exact (mem_unfused.1 hk).2 r hr he
  have hroll : (Sandbox.copy g none).roll.Perm (g.merges.flatMap (·.members) ++ unfused g) := by
    rw [roll, keys_copy_none]
    refine ((h.names_perm wf hg).flatMap_right _).trans ?_
    rw [List.flatMap_append, List.flatMap_map, List.flatMap_congr hfused, List.flatMap_congr hunfused,
      List.flatMap_singleton']
  rw [← List.append_assoc]
  exact h.balanced.perm.trans (hroll.append_right elided)

end Ledger

/-! ### Accounts -/

/-- An operator is what it was at first, but for its settings and the variables it reads. -/
def Untouched (g₀ g : Graph) (x : String) : Prop :=
  x ∈ g.names ∧ (g.node? x).map Node.core = (g₀.node? x).map Node.core ∧ ∀ r ∈ g.merges, r.fused ≠ x

/-- The records of a graph account for the operators there were at first, of which `elided` were dropped. -/
structure Accounts (g₀ : Graph) (elided : List String) (g : Graph) : Prop where
  members_nodup : ∀ r ∈ g.merges, r.members.Nodup
  members_disjoint : g.merges.Pairwise fun r r' => r.members.Disjoint r'.members
  members_subset : ∀ r ∈ g.merges, r.members ⊆ g₀.names
  fused_nodup : (g.merges.map (·.fused)).Nodup
  fused_live : ∀ r ∈ g.merges, g.hasNode r.fused
  elided_nodup : elided.Nodup
  elided_subset : elided ⊆ g₀.names
  listed : ∀ x ∈ g₀.names, (∃! r, r ∈ g.merges ∧ x ∈ r.members) ↔ ¬ Untouched g₀ g x ∧ x ∉ elided
  count : (g.names.length : Int) =
    g₀.names.length - elided.length - (g.merges.map fun r => (r.members.length : Int) - 1).sum

/-- An operator is untouched exactly if it is a node that was not fused. -/
lemma Ledger.untouched_iff (h : Ledger g₀ elided g) {x : String} : Untouched g₀ g x ↔ x ∈ unfused g := by
  rw [mem_unfused]
  constructor
  · rintro ⟨hx, -, hr⟩
    exact ⟨hx, hr⟩
  · rintro ⟨hx, hr⟩
    refine ⟨hx, ?_, hr⟩
    have hlive : x ∈ (Sandbox.copy g none).dag.keys := by
      rw [keys_copy_none]
      exact hx
    have hnone : (Sandbox.copy g none).merges.get? x = none := by
      rw [Recorded.get?_copy]
      refine Option.eq_none_iff_forall_ne_some.2 fun r hlast => ?_
      obtain ⟨hmem, he⟩ := fused_of_lastRecord? hlast
      exact hr r hmem he
    rw [← h.balanced.own hlive hnone, node?_copy]

/-- Each record stands for one node instead of its members. -/
lemma sum_members (rs : List MergeRecord) :
    (rs.map fun r => (r.members.length : Int) - 1).sum = (rs.flatMap (·.members)).length - rs.length := by
  induction rs with
  | nil => rfl
  | cons r rs ih =>
    rw [List.map_cons, List.sum_cons, ih, List.flatMap_cons, List.length_append, List.length_cons]
    push_cast
    ring

/-- A ledger accounts for all operators. -/
lemma Ledger.accounts (h : Ledger g₀ elided g) (hg₀ : g₀.WellFormed) (wf : g.WellFormed) (hg : g.Sound) :
    Accounts g₀ elided g := by
  -- the names of `g₀` are without duplicates, and so are the three parts they are split into
  have hperm := h.perm wf hg
  obtain ⟨hmembers, hrest, hapart⟩ := List.nodup_append.1 (hperm.nodup_iff.1 hg₀.dag.keys_nodup)
  obtain ⟨hnodup, hdisjoint⟩ := List.nodup_flatMap.1 hmembers
  obtain ⟨-, helided, hkept⟩ := List.nodup_append.1 hrest
  have hdisjoint : g.merges.Pairwise fun r r' => r.members.Disjoint r'.members := hdisjoint
  refine ⟨hnodup, hdisjoint, fun r hr x hx => ?_, h.once, hg.merges, helided, fun x hx => ?_, fun x hx => ?_, ?_⟩
  · exact hperm.mem_iff.2 (List.mem_append_left _ (List.mem_flatMap.2 ⟨r, hr, hx⟩))
  · exact hperm.mem_iff.2 (List.mem_append_right _ (List.mem_append_right _ hx))
  · rw [h.untouched_iff]
    constructor
    · rintro ⟨r, ⟨hr, hxr⟩, -⟩
      have hlisted : x ∈ g.merges.flatMap (·.members) := List.mem_flatMap.2 ⟨r, hr, hxr⟩
      exact ⟨fun hu => hapart x hlisted x (List.mem_append_left _ hu) rfl,
        fun he => hapart x hlisted x (List.mem_append_right _ he) rfl⟩
    · rintro ⟨hunfused, hkept⟩
      rcases List.mem_append.1 (hperm.mem_iff.1 hx) with hlisted | hother
      · obtain ⟨r, hr, hxr⟩ := List.mem_flatMap.1 hlisted
        refine ⟨r, ⟨hr, hxr⟩, fun r' ⟨hr', hxr'⟩ => ?_⟩
        by_contra hne
        have hsymm : Std.Symm fun r r' : MergeRecord => r.members.Disjoint r'.members := ⟨fun _ _ hd => hd.symm⟩
        exact hdisjoint.forall hr' hr hne hxr' hxr
      · exact absurd (List.mem_append.1 hother) (not_or.2 ⟨hunfused, hkept⟩)
  · have hthen := hperm.length_eq
    have hnow := (h.names_perm wf hg).length_eq
    rw [List.length_append, List.length_append] at hthen
    rw [List.length_append, List.length_map] at hnow
    rw [sum_members]
    omega

/-! ### Histories -/

/-- The operators that an optimization drops: those that the engine took out and counted if it is done, and none if it
fails. -/
inductive Elides (n : Network) (l : Library) (fusion : Bool) (ord : RenameOrder) : List String → Prop where
  | done {d : Draft} {trace : List (Sandbox × Edit)} (hd : n.draft l fusion = .ok d)
      (hr : (n.engine l).Runs (Sandbox.copy n.graph none) trace d.sandbox)
      (hcount : d.stats.dropped = (Engine.elisions trace).length) (ho : (n.optimize l fusion ord).2 = .done d.stats) :
      Elides n l fusion ord (Engine.elisions trace)
  | failed {stats : Stats} {e : Error} (ho : (n.optimize l fusion ord).2 = .failed stats e) : Elides n l fusion ord []

variable {l : Library} {fusion : Bool}

/-- Every optimization drops some operators, perhaps none. -/
lemma exists_elides (h : Current n) (l : Library) (fusion : Bool) (ord : RenameOrder) :
    ∃ dropped, Elides n l fusion ord dropped := by
  have ha := attempts_optimize h.wellFormed h.sound l fusion ord
  generalize hr : n.optimize l fusion ord = r at ha
  cases ha with
  | unfrozen hs => exact ⟨[], .failed (congrArg Prod.snd hr)⟩
  | capped hs => exact ⟨[], .failed (congrArg Prod.snd hr)⟩
  | illegible hs => exact ⟨[], .failed (congrArg Prod.snd hr)⟩
  | refused hs => exact ⟨[], .failed (congrArg Prod.snd hr)⟩
  | done hs hd hc ho =>
    obtain ⟨trace, hruns, hcount⟩ := (draft_ok hd).2.runs
    exact ⟨_, .done hd hruns hcount (congrArg Prod.snd hr)⟩

/-- A network that was frozen and whose books balance. -/
structure Kept (g₀ : Graph) (elided : List String) (n : Network) : Prop where
  current : Current n
  frozen : n.state ≠ .building
  ledger : Ledger g₀ elided n.graph

namespace Kept

/-- When a network is frozen its books balance. -/
lemma freeze (h : Current n) (hm : n.freeze = .ok m) : Kept m.graph [] m := by
  obtain ⟨hs, hstate, -, hf⟩ := freeze_ok hm h.wellFormed fun hs => (h.unjoined hs).1
  refine ⟨h.freeze hm, ?_, .of_nil (hf.merges.trans (h.unjoined hs).2)⟩
  rw [hstate]
  exact State.noConfusion

/-- Settings leave the books alone. -/
lemma set (h : Kept g₀ elided n) {c : Setting} (hc : n.set c = .ok m) : Kept g₀ elided m := by
  rcases set_cases hc with ⟨op, f, hf, rfl⟩ | ⟨calibration, varScales, rfl⟩
  · exact ⟨h.current.updateNode op hf _, h.frozen, h.ledger.updateNode h.current.wellFormed op hf⟩
  · exact ⟨{ h.current with }, h.frozen, h.ledger⟩

/-- Committing what a run of the engine made keeps the books. -/
lemma commit (h : Kept g₀ elided n) {e : Engine} {trace : List (Sandbox × Edit)} {d : Draft}
    (hr : e.Runs (Sandbox.copy n.graph none) trace d.sandbox) (he : n.epoch = d.epoch)
    (hc : n.Commits (d.sandbox.normalize d.known).1 g) {order : List String} (ho : g.order = .ok order)
    (c : Calibration)
    (fusion : Bool) : Kept g₀ (elided ++ Engine.elisions trace) (n.settled g c order d.stats fusion) := by
  have hledger := h.ledger.commit h.current.wellFormed (h.current.sound h.frozen) hr hc
  have hcurrent : Current (n.settled g c order d.stats fusion) := h.current.settles (fun _ => h.frozen) (.done he hc ho)
  cases fusion with
  | true => exact ⟨hcurrent, State.noConfusion, hledger.once, hledger.balanced⟩
  | false => exact ⟨hcurrent, h.frozen, hledger⟩

/-- An optimization that is done moves operators from the nodes to the dropped ones. -/
lemma optimize {ord : RenameOrder} (h : Kept g₀ elided n) {dropped : List String} (he : Elides n l fusion ord dropped) :
    Kept g₀ (elided ++ dropped) (n.optimize l fusion ord).1 := by
  have ha := attempts_optimize h.current.wellFormed h.current.sound l fusion ord
  cases he with
  | failed ho =>
    have hsame : (n.optimize l fusion ord).1 = n := by
      rcases optimize_done_or_failed h.current.wellFormed h.current.sound l fusion with ⟨st, hr⟩ | ⟨st, e, hr⟩
      · obtain ⟨m, hr⟩ := hr ord
        rw [hr] at ho
        cases ho
      · rw [hr]
    rw [hsame, List.append_nil]
    exact h
  | @done d trace hd hruns hcount ho =>
    generalize n.optimize l fusion ord = r at ha ho
    cases ha with
    | unfrozen hs => cases ho
    | capped hs => cases ho
    | illegible hs => cases ho
    | refused hs => cases ho
    | @done d' g c order hs hd' hc horder =>
      -- drafts are a function of the network, so it is the run of this draft that was committed
      obtain rfl : d = d' := Except.ok.inj (hd.symm.trans hd')
      exact h.commit hruns (draft_ok hd).2.epoch.symm hc horder c fusion

end Kept

end Network

namespace Workspace

open Network (Current Elides Kept Accounts)

/-- Calls on the network at `r` of the workspace `w`, by which the operators `elided` were dropped from it. A call that
fails changes nothing. -/
inductive History (r : NetworkRef) (w : Workspace) : List String → Workspace → Prop where
  | refl : History r w [] w
  | optimize {elided dropped : List String} {v : Workspace} {n : Network} (h : History r w elided v)
      (hn : v.network? r = some n) {fusion : Bool} {ord : RenameOrder}
      (he : n.Elides (v.library n.library) fusion ord dropped) :
      History r w (elided ++ dropped) (v.optimize r fusion ord quiet).1
  | perform {elided : List String} {v : Workspace} (h : History r w elided v) (c : Call) :
      History r w elided (perform r v c)
  | tune {elided : List String} {v : Workspace} {n : Network} (h : History r w elided v) (hn : v.network? r = some n)
      (cap : Int) (elide : Option (List String)) : History r w elided (v.setNetwork r { n with cap, elide })
  | registerPattern {elided : List String} {v v' : Workspace} (h : History r w elided v) {p : Pattern}
      (he : v.registerNetworkPattern r p = .ok v') : History r w elided v'

variable {r : NetworkRef} {w v v' : Workspace} {n m : Network} {g₀ : Graph} {elided : List String}

/-- The books of a network are kept in every history of it. -/
lemma History.exists_kept (hn : w.network? r = some n) (h : Kept g₀ [] n) (hv : History r w elided v) :
    ∃ m, v.network? r = some m ∧ Kept g₀ elided m := by
  induction hv with
  | refl => exact ⟨n, hn, h⟩
  | optimize _ hk he ih =>
    obtain ⟨m, hm, hkept⟩ := ih
    obtain rfl := Option.some.inj (hk.symm.trans hm)
    rw [optimize_quiet hkept.current hm]
    exact ⟨_, network?_setNetwork hm _, hkept.optimize he⟩
  | perform _ c ih =>
    obtain ⟨m, hm, hkept⟩ := ih
    unfold Workspace.perform
    split
    · obtain ⟨k, hk, -, ⟨setting, hset⟩ | ⟨blocks, rfl⟩⟩ := call_ok hm ‹_›
      · exact ⟨k, hk, hkept.set hset⟩
      · exact ⟨_, hk, { hkept.current with }, hkept.frozen, hkept.ledger⟩
    · exact ⟨m, hm, hkept⟩
  | tune _ hk cap elide ih =>
    obtain ⟨m, hm, hkept⟩ := ih
    obtain rfl := Option.some.inj (hk.symm.trans hm)
    exact ⟨_, network?_setNetwork hm _, { hkept.current with }, hkept.frozen, hkept.ledger⟩
  | registerPattern _ he ih =>
    obtain ⟨m, hm, hkept⟩ := ih
    refine ⟨m, ?_, hkept⟩
    rw [network?, networks_registerNetworkPattern he]
    exact hm

/-- However a network was frozen and whatever is called on it then, its records account for the operators it had: none
is listed twice, and those that are not listed are as they were or were dropped. Every optimization drops some operators
or none, so every sequence of calls has a history. -/
theorem provenance_accounts (h : Becomes {} w) (hn : w.network? r = some n) (hm : n.freeze = .ok m) :
    ∀ {elided v}, History r (w.setNetwork r m) elided v → ∃ k, v.network? r = some k ∧ Accounts m.graph elided k.graph ∧
      ∀ fusion ord, ∃ dropped, k.Elides (v.library k.library) fusion ord dropped := by
  intro elided v hv
  have hkept := Kept.freeze (h.current hn) hm
  obtain ⟨k, hk, hkept'⟩ := hv.exists_kept (network?_setNetwork hn m) hkept
  have hsound := hkept'.current.sound hkept'.frozen
  exact ⟨k, hk, hkept'.ledger.accounts hkept.current.wellFormed hkept'.current.wellFormed hsound, fun fusion ord =>
    Network.exists_elides hkept'.current _ fusion ord⟩

/-- A chain that can be fused once the operator in its midst is dropped. -/
def interrupted : List Node := [
  { name := "c", type := "conv", outputs := ["c0"] },
  { name := "i", type := "Identity", inputs := ["c0"], outputs := ["i0"] },
  { name := "r", type := "relu", inputs := ["i0"], outputs := ["r0"] },
  { name := "s", type := "softmax", inputs := ["r0"], outputs := ["s0"] },
  { name := "z", type := "topk", inputs := ["s0"] }]

/-- The workspace of `interrupted` before it is frozen. -/
def unfrozen : Workspace :=
  ((newNetwork {} "net" none).1).asked 0 (interrupted.map fun v => .addOp v.name v.type v.inputs v.outputs)

/-- The fused node of `interrupted` is fused again with the next operator. The one record that is left lists the three
of them, and the fifth operator was dropped. -/
theorem provenance_accounts_interrupted : ∃ n m elided v k, Becomes {} unfrozen ∧ unfrozen.network? 0 = some n ∧
    n.freeze = .ok m ∧ History 0 (unfrozen.setNetwork 0 m) elided v ∧ v.network? 0 = some k ∧
    k.graph.merges.map (·.members) = [["c", "r", "s"]] ∧ elided.length = 1 ∧ Accounts m.graph elided k.graph := by
  have hw : Becomes {} unfrozen := ((Becomes.refl {}).newNetwork "net" none).asked 0 _
  have hrun : (unfrozen.network? 0).any fun n => n.freeze.toOption.any fun m => m.graph.names.length = 5 &&
      (((unfrozen.setNetwork 0 m).optimize 0 true .ascending quiet).1.registerNetworkPattern 0
        (.chain "fused_crs" ["fused_cr", "softmax"])).toOption.any fun v =>
      ((v.optimize 0 true .ascending quiet).1.network? 0).any fun k =>
        k.graph.names.length = 2 ∧ k.graph.merges.map (·.members) = [["c", "r", "s"]] := by decide +kernel
  obtain ⟨n, hn, hrun⟩ := (Option.any_eq_true _ _).1 hrun
  obtain ⟨m, hm, hrun⟩ := (Option.any_eq_true _ _).1 hrun
  obtain ⟨hfive, hrun⟩ := Bool.and_eq_true_iff.1 hrun
  obtain ⟨v, hv, hrun⟩ := (Option.any_eq_true _ _).1 hrun
  obtain ⟨k, hk, hrun⟩ := (Option.any_eq_true _ _).1 hrun
  obtain ⟨htwo, hmembers⟩ := of_decide_eq_true hrun
  have hm := eq_ok_of_toOption hm
  have hstart : History 0 (unfrozen.setNetwork 0 m) [] _ := .refl
  obtain ⟨k₀, hk₀, -, helides⟩ := provenance_accounts hw hn hm hstart
  obtain ⟨first, hfirst⟩ := helides true .ascending
  have hagain := (hstart.optimize hk₀ hfirst).registerPattern (eq_ok_of_toOption hv)
  obtain ⟨k₁, hk₁, -, helides⟩ := provenance_accounts hw hn hm hagain
  obtain ⟨second, hsecond⟩ := helides true .ascending
  have hend := hagain.optimize hk₁ hsecond
  obtain ⟨k', hk', haccounts, -⟩ := provenance_accounts hw hn hm hend
  obtain rfl := Option.some.inj (hk.symm.trans hk')
  have hcount := haccounts.count
  refine ⟨n, m, _, _, k, hw, hn, hm, hend, hk, hmembers, ?_, haccounts⟩
  have hsum : (k.graph.merges.map fun r => (r.members.length : Int) - 1).sum = 2 := by
    have hmap := congrArg (List.map fun ms : List String => (ms.length : Int) - 1) hmembers
    rw [List.map_map] at hmap
    exact congrArg List.sum hmap
  rw [hsum, htwo, of_decide_eq_true hfive] at hcount
  omega

end Workspace

end OpGraph
