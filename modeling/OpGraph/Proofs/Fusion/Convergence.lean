import Mathlib
import OpGraph.Proofs.Fusion.Fixpoint

/-!
# One pass is enough for a stratified library

In a stratified library no fused node has a type that is dropped or that a pattern looks for. Then one pass reaches a
stable sandbox: what could be dropped or merged at its end could have been dropped or merged when its turn was, for
steps enable nothing that was not possible before.
-/

namespace OpGraph

/-- The name of no pattern is a type that is dropped or that a pattern looks for. -/
def Library.Stratified (l : Library) (elided : List String) : Prop :=
  ∀ p ∈ l.patterns, p.name ∉ elided ∧ ∀ q ∈ l.patterns, p.name ∉ q.types

instance (l : Library) (elided : List String) : Decidable (l.Stratified elided) :=
  inferInstanceAs (Decidable (∀ p ∈ l.patterns, p.name ∉ elided ∧ ∀ q ∈ l.patterns, p.name ∉ q.types))

namespace Engine

open Sandbox

/-- Steps over a list: what one step keeps and achieves for its element, and what later steps do not undo, holds at the
end. -/
lemma foldl_achieves {σ α : Type} {f : σ → α → σ} {I : σ → Prop} {D : α → Prop} {R : α → σ → Prop}
    (step : ∀ s x, D x → I s → I (f s x) ∧ R x (f s x) ∧ ∀ y, R y s → R y (f s x)) :
    ∀ {xs : List α} {s : σ}, (∀ x ∈ xs, D x) → I s →
      I (xs.foldl f s) ∧ (∀ x ∈ xs, R x (xs.foldl f s)) ∧ ∀ y, R y s → R y (xs.foldl f s)
  | [], s, _, hs => ⟨hs, by simp, fun _ h => h⟩
  | x :: xs, s, hdue, hs => by
    rw [List.forall_mem_cons] at hdue
    obtain ⟨hinv, hdone, hkeep⟩ := step s x hdue.1 hs
    obtain ⟨hinv', hdone', hkeep'⟩ := foldl_achieves step (s := f s x) hdue.2 hinv
    refine ⟨hinv', ?_, fun y hy => hkeep' y (hkeep y hy)⟩
    rw [List.foldl_cons, List.forall_mem_cons]
    exact ⟨hkeep' x hdone, hdone'⟩

section Convergence

variable {g : Graph} {e : Engine} {o s t u : Sandbox}

/-! ### The nodes that are dropped first -/

/-- What dropping nodes of elided types one after the other leaves of a sandbox. -/
structure Thinned (g : Graph) (elided : List String) (o s : Sandbox) : Prop where
  edited : Edited g (Sandbox.copy g none) s
  keys : ∀ {k}, k ∈ s.dag.keys → k ∈ o.dag.keys
  type : ∀ {k v}, s.dag.vertex? k = some v → ∃ w, o.dag.vertex? k = some w ∧ v.val.type = w.val.type
  gone : ∀ {k}, k ∈ o.dag.keys → k ∉ s.dag.keys →
    (∃ x, o.Passable k x) ∧ ∃ w, o.dag.vertex? k = some w ∧ w.val.type ∈ elided
  passable : ∀ {k x}, s.Passable k x → ∃ x', o.Passable k x'
  ins : s.ins = o.ins
  merges : s.merges = o.merges

lemma Thinned.refl (ho : Edited g (Sandbox.copy g none) o) {elided : List String} : Thinned g elided o o where
  edited := ho
  keys := id
  type := fun h => ⟨_, h, rfl⟩
  gone := fun h hn => absurd h hn
  passable := fun h => ⟨_, h⟩
  ins := rfl
  merges := rfl

/-- A drop leaves the types of all other nodes. -/
lemma type_of_dropped {name : String} {src : Edge} (h : Dropped s name src t) {k : String} {v : Vertex Node}
    (hv : t.dag.vertex? k = some v) : ∃ w, s.dag.vertex? k = some w ∧ v.val.type = w.val.type := by
  rw [h.vertex] at hv
  split at hv
  · cases hv
  · split at hv
    · exact ⟨v, hv, rfl⟩
    · obtain ⟨w, hw, rfl⟩ := Option.map_eq_some_iff.1 hv
      exact ⟨w, hw, rfl⟩

/-- Dropping one more node whose type is elided. -/
lemma Thinned.drop {elided : List String} (h : Thinned g elided o s) {name : String} {src : Edge}
    (ht : Edited g (Sandbox.copy g none) t) (hd : s.Droppable name src) (hdrop : Dropped s name src t)
    (hty : ∀ w, o.dag.vertex? name = some w → w.val.type ∈ elided) : Thinned g elided o t where
  edited := ht
  keys := fun hk => h.keys (hdrop.mem_keys.1 hk).1
  type := by
    intro k v hv
    obtain ⟨w, hw, hvw⟩ := type_of_dropped hdrop hv
    obtain ⟨w', hw', hww'⟩ := h.type hw
    exact ⟨w', hw', hvw.trans hww'⟩
  gone := by
    intro k hk hkt
    by_cases hks : k ∈ s.dag.keys
    · have hname : k = name := by
        by_contra hne
        exact hkt (hdrop.mem_keys.2 ⟨hks, hne⟩)
      obtain ⟨w, hw⟩ := Digraph.hasVertex_iff_exists.1 (Digraph.hasVertex_iff.2 hk)
      exact ⟨h.passable (hname ▸ h.edited.passable_of_droppable hd), w, hw, hty w (hname ▸ hw)⟩
    · exact h.gone hk hks
  passable := by
    intro k x hx
    obtain ⟨x', hx'⟩ := passable_of_dropped h.edited hd hdrop hx
    exact h.passable hx'
  ins := (border_eq_iff.1 hdrop.border).1.trans h.ins
  merges := (records_eq_iff.1 hdrop.records).1.trans h.merges

/-- A node that cannot be dropped is not passable. -/
lemma not_passable_of_drop (hs : Edited g (Sandbox.copy g none) s) {name : String} (h : ∀ t, s.drop name ≠ .ok t)
    (x : String) : ¬ s.Passable name x := by
  intro hx
  obtain ⟨src, hd⟩ := hs.exists_droppable_iff.2 ⟨x, hx⟩
  exact h _ (drop_ok_iff.2 ⟨src, hd, rfl⟩)

/-- The nodes of a sandbox, found by their names. -/
lemma mem_nodes_iff (hs : Edited g (Sandbox.copy g none) s) {n : Node} :
    n ∈ s.nodes ↔ ∃ v, s.dag.vertex? n.name = some v ∧ v.val = n := by
  constructor
  · intro hn
    obtain ⟨v, hv, rfl⟩ := List.mem_map.1 hn
    exact ⟨v, hs.tracks.wellFormed.vertex?_eq_some_iff.2 ⟨hv, (hs.tracks.named v hv).symm⟩, rfl⟩
  · rintro ⟨v, hv, rfl⟩
    exact List.mem_map_of_mem (Digraph.mem_of_vertex? hv)

/-- In a sandbox of a whole graph the nodes to be dropped are those of the elided types. -/
lemma mem_nodes_filter_iff (hs : Edited g (Sandbox.copy g none) s) {elided : List String} {n : Node} :
    n ∈ (s.nodes.filter fun n => elided.contains n.type && !s.isAnchor n.name) ↔ n ∈ s.nodes ∧ n.type ∈ elided := by
  have ha : s.isAnchor n.name = false := Bool.eq_false_iff.2 (hs.not_anchor n.name)
  simp [ha]

/-- After all nodes of elided types had their turn, none of those that are left can be dropped. -/
lemma thinned_dropAll (hs : Edited g (Sandbox.copy g none) s) (elided : List String) (st : Stats) :
    Thinned g elided s (dropAll elided (s, st)).1 ∧
      ∀ n ∈ s.nodes, n.type ∈ elided → ∀ x, ¬ (dropAll elided (s, st)).1.Passable n.name x := by
  have hdue : ∀ n ∈ (s.nodes.filter fun n => elided.contains n.type && !s.isAnchor n.name),
      ∀ w, s.dag.vertex? n.name = some w → w.val.type ∈ elided := by
    intro n hn w hw
    obtain ⟨hn, hty⟩ := (mem_nodes_filter_iff hs).1 hn
    obtain ⟨v, hv, rfl⟩ := (mem_nodes_iff hs).1 hn
    rw [hv] at hw
    exact Option.some.inj hw ▸ hty
  obtain ⟨hinv, hdone, -⟩ := foldl_achieves (f := fun run (n : Node) => tryDrop run n.name)
    (I := fun run : Sandbox × Stats => Thinned g elided s run.1)
    (D := fun n => ∀ w, s.dag.vertex? n.name = some w → w.val.type ∈ elided)
    (R := fun n run => ∀ x, ¬ run.1.Passable n.name x) (s := (s, st)) (fun run n hty hinv => by
      rcases tryDrop_cases run n.name with ⟨heq, hno⟩ | ⟨hok, -⟩
      · rw [heq]
        exact ⟨hinv, not_passable_of_drop hinv.edited hno, fun _ h => h⟩
      · obtain ⟨src, hd, hdrop⟩ := dropped_of_drop hinv.edited hok
        have ht := hinv.edited.edit (e := .drop n.name) trivial hok
        refine ⟨hinv.drop ht hd hdrop hty, fun x hx => (hdrop.mem_keys.1 hx.live).2 rfl, fun y hy x hx => ?_⟩
        obtain ⟨x', hx'⟩ := passable_of_dropped hinv.edited hd hdrop hx
        exact hy x' hx') hdue (.refl hs)
  exact ⟨hinv, fun n hn hty => hdone n ((mem_nodes_filter_iff hs).2 ⟨hn, hty⟩)⟩

/-! ### The chains that are merged then -/

/-- The nodes that a sandbox refers to as inputs and as fused ones are there. -/
structure Grounded (s : Sandbox) : Prop where
  ins : ∀ {k}, s.ins.contains k → k ∈ s.dag.keys
  merges : ∀ {k}, s.merges.contains k → k ∈ s.dag.keys

/-- After a merge the nodes that a sandbox refers to are there. -/
lemma Grounded.fuses (h : Grounded s) {p : Pattern} {members : List String} {n : Node} (hf : Fuses s p members n t) :
    Grounded t := by
  refine ⟨fun {k} hk => ?_, fun {k} hk => ?_⟩
  · rw [hf.mem_keys]
    rcases (hf.merged.ins k).1 hk with ⟨hk, hm⟩ | ⟨rfl, -⟩
    · exact .inr ⟨h.ins hk, hm⟩
    · exact .inl rfl
  · rw [Dict.contains, hf.merged.merges] at hk
    rw [hf.mem_keys]
    by_cases hkn : k = n.name
    · exact .inl hkn
    · by_cases hkm : k ∈ members
      · simp [hkn, hkm] at hk
      · rw [if_neg hkn, if_neg hkm] at hk
        exact .inr ⟨h.merges hk, hkm⟩

/-- Where no input and no fused node can be dropped, dropping leaves the others there. -/
lemma Thinned.grounded {elided : List String} (h : Thinned g elided o s) (ho : Grounded o)
    (hins : ∀ {k v}, o.ins.contains k → o.dag.vertex? k = some v → v.val.type ∈ elided → ∀ x, ¬ o.Passable k x)
    (hmerges : ∀ {k v}, o.merges.contains k → o.dag.vertex? k = some v → v.val.type ∉ elided) : Grounded s := by
  refine ⟨fun {k} hk => ?_, fun {k} hk => ?_⟩
  · rw [h.ins] at hk
    by_contra hgone
    obtain ⟨⟨x, hx⟩, w, hw, hty⟩ := h.gone (ho.ins hk) hgone
    exact hins hk hw hty x hx
  · rw [h.merges] at hk
    by_contra hgone
    obtain ⟨-, w, hw, hty⟩ := h.gone (ho.merges hk) hgone
    exact hmerges hk hw hty

/-- What merging chains one after the other leaves of a sandbox. -/
structure Condensed (g : Graph) (e : Engine) (o s : Sandbox) : Prop where
  edited : Edited g (Sandbox.copy g none) s
  taken : ∀ {k}, o.taken.contains k → s.taken.contains k
  vertex : ∀ {k v}, s.dag.vertex? k = some v → o.dag.vertex? k = some v ∨ ∃ p ∈ e.patterns, v.val.type = p.name
  passable : ∀ {k x}, o.taken.contains k → s.Passable k x → ∃ x', o.Passable k x'
  grounded : Grounded o → Grounded s

lemma Condensed.refl (ho : Edited g (Sandbox.copy g none) o) : Condensed g e o o where
  edited := ho
  taken := id
  vertex := .inl
  passable := fun _ h => ⟨_, h⟩
  grounded := id

/-- Merging one more chain. -/
lemma Condensed.fuses (h : Condensed g e o s) (ht : Edited g (Sandbox.copy g none) t) {p : Pattern}
    {members : List String} {n : Node} (hp : p ∈ e.patterns) (hf : Fuses s p members n t) : Condensed g e o t where
  edited := ht
  taken := fun hk => (hf.merged.taken _).2 (.inr (h.taken hk))
  vertex := by
    intro k v hv
    by_cases hkn : k = n.name
    · rw [hf.merged.vertex, if_pos hkn] at hv
      obtain ⟨attrs, -, hn⟩ := fusedNode_ok_iff.1 hf.node
      refine .inr ⟨p, hp, ?_⟩
      rw [← Option.some.inj hv]
      show n.type = p.name
      rw [hn]
    · have hk : k ∉ members := by
        intro hk
        rw [hf.merged.vertex, if_neg hkn, if_pos hk] at hv
        cases hv
      exact h.vertex (hf.vertex?_eq hk hkn ▸ hv)
  passable := by
    intro k x hk hx
    have hkn : k ≠ n.name := by
      rintro rfl
      exact hf.contractible.free (h.taken hk)
    have hks : k ∈ s.dag.keys := ((hf.mem_keys.1 hx.live).resolve_left hkn).1
    obtain ⟨x', hx'⟩ := hf.passable h.edited (ht.tracks.arrowFree_live (hf.mem_keys.2 (.inl rfl))) hks hx
    exact h.passable hk hx'
  grounded := fun ho => (h.grounded ho).fuses hf

/-- A chain that starts at a node can be merged, and its members were there from the start. -/
def Ripe (e : Engine) (o s : Sandbox) (head : String) : Prop :=
  ∃ p ∈ e.patterns, ∃ members, Chain s p.ops members ∧ members.head? = some head ∧ 2 ≤ members.length ∧
    (∀ m ∈ members, o.taken.contains m) ∧ ∃ attrs, s.fusedAttrs members = .ok attrs

lemma Ripe.live {head : String} (h : Ripe e o s head) : head ∈ s.dag.keys := by
  obtain ⟨p, -, members, hc, hhead, -⟩ := h
  exact hc.live (List.mem_of_mem_head? hhead)

/-- A merge makes no other chain ripe. -/
lemma Ripe.of_fuses (h : Condensed g e o s) (ht : Edited g (Sandbox.copy g none) t) {p : Pattern}
    {members : List String}
    {n : Node} (hf : Fuses s p members n t) {head : String} (hr : Ripe e o t head) : Ripe e o s head := by
  obtain ⟨q, hq, ms, hc, hhead, hlen, htaken, attrs, hattrs⟩ := hr
  have hne : ∀ m ∈ ms, m ≠ n.name := by
    rintro m hm rfl
    exact hf.contractible.free (h.taken (htaken _ hm))
  have hnot : ∀ m ∈ ms, m ∉ members ∧ m ≠ n.name := fun m hm =>
    ⟨((hf.mem_keys.1 (hc.live hm)).resolve_left (hne m hm)).2, hne m hm⟩
  have hnamed : ∀ m ∈ ms, ∀ c, s.node? m = some c → c.name = m := by
    intro m _ c hc
    obtain ⟨v, hv, rfl⟩ := Option.map_eq_some_iff.1 hc
    exact (h.edited.tracks.named v (Digraph.mem_of_vertex? hv)).trans (Digraph.key_of_vertex? hv)
  exact ⟨q, hq, ms, hf.chain_of_chain h.edited ht hc hne, hhead, hlen, htaken, attrs,
    hf.fusedAttrs_eq hnot hnamed ▸ hattrs⟩

/-- A ripe chain is found and can be merged. -/
lemma Ripe.merges (hs : Edited g (Sandbox.copy g none) s) {head : String} (h : Ripe e o s head) :
    ∃ p ∈ e.patterns, Merges s head p := by
  obtain ⟨p, hp, members, hc, hhead, hlen, -, hattrs⟩ := h
  exact ⟨p, hp, (merges_iff hs).2 ⟨members, hhead, hlen, hc, hattrs⟩⟩

/-- After every node had its turn, no chain is ripe at any of them. -/
lemma condensed_foldl_tryHead (hs : Edited g (Sandbox.copy g none) s) (hp : ∀ p ∈ e.patterns, ArrowFree p.name)
    (heads : List String) (st : Stats) :
    Condensed g e s (heads.foldl (tryHead e.patterns) (s, st)).1 ∧
      ∀ head ∈ heads, ¬ Ripe e s (heads.foldl (tryHead e.patterns) (s, st)).1 head := by
  obtain ⟨hinv, hdone, -⟩ := foldl_achieves (f := tryHead e.patterns)
    (I := fun run : Sandbox × Stats => Condensed g e s run.1) (D := fun _ => True)
    (R := fun head run => ¬ Ripe e s run.1 head) (s := (s, st)) (fun run head _ hinv => by
      rcases tried_tryHead e.patterns run head with ⟨heq, hskip⟩ | ⟨hlive, htried⟩
      · rw [heq]
        refine ⟨hinv, fun hr => ?_, fun _ h => h⟩
        exact hskip.elim (hinv.edited.not_anchor head) fun hgone => hgone hr.live
      · cases htried with
        | still hsame hst hno =>
          rw [hsame]
          refine ⟨hinv, fun hr => ?_, fun _ h => h⟩
          obtain ⟨p, hpe, hm⟩ := hr.merges hinv.edited
          exact hno p hpe hm
        | merged hst hpe hfind hok =>
          obtain ⟨hhead, hf⟩ := fuses_of_merge hinv.edited (hp _ hpe) hfind hok
          have ht : Edited g (Sandbox.copy g none) (tryHead e.patterns run head).1 :=
            (Step.merge hpe hfind hok : e.Step _ _ _).edited hinv.edited hp
          refine ⟨hinv.fuses ht hpe hf, fun hr => ?_, fun y hy hr => hy (hr.of_fuses hinv ht hf)⟩
          rcases hf.mem_keys.1 hr.live with heq | ⟨-, hnot⟩
          · exact hf.name_fresh hinv.edited.tracks (heq ▸ hlive)
          · exact hnot (List.mem_of_mem_head? hhead)) (fun _ _ => trivial) (.refl hs)
  exact ⟨hinv, hdone⟩

/-! ### One pass -/

/-- No fused node has a type that is dropped or looked for. -/
def Stratified (e : Engine) : Prop :=
  ∀ p ∈ e.patterns, p.name ∉ e.elided ∧ ∀ q ∈ e.patterns, p.name ∉ q.types

/-- One pass reaches a stable sandbox. -/
lemma stable_of_pass (hs : Edited g (Sandbox.copy g none) s) (hp : ∀ p ∈ e.patterns, ArrowFree p.name)
    (hstr : e.Stratified) {st : Stats} {after : Sandbox × Stats} (h : e.pass (s, st) = (after, none)) :
    e.Stable after.1 := by
  obtain ⟨order, hperm, heq⟩ := pass_eq (e := e) hs.tracks.toRoster st
  obtain ⟨hthin, hundroppable⟩ := thinned_dropAll hs e.elided st
  obtain ⟨hcond, hunripe⟩ := condensed_foldl_tryHead hthin.edited hp order (dropAll e.elided (s, st)).2
  have hafter : after = order.foldl (tryHead e.patterns) (dropAll e.elided (s, st)) := by
    rw [heq] at h
    exact (congrArg Prod.fst h).symm
  have hold : ∀ {k v}, after.1.dag.vertex? k = some v → (∀ p ∈ e.patterns, v.val.type ≠ p.name) →
      (dropAll e.elided (s, st)).1.dag.vertex? k = some v := by
    intro k v hv hne
    rw [hafter] at hv
    exact (hcond.vertex hv).resolve_right fun ⟨p, hpe, hty⟩ => hne p hpe hty
  have hkey : ∀ {k v}, (dropAll e.elided (s, st)).1.dag.vertex? k = some v →
      k ∈ (dropAll e.elided (s, st)).1.dag.keys := fun hv =>
    Digraph.hasVertex_iff.1 (Digraph.hasVertex_iff_exists.2 ⟨_, hv⟩)
  have hedited : Edited g (Sandbox.copy g none) after.1 := hafter ▸ hcond.edited
  constructor
  · intro n hn hty t hok
    obtain ⟨v, hv, rfl⟩ := (mem_nodes_iff hedited).1 hn
    have hv' := hold hv fun p hpe heq => (hstr p hpe).1 (heq ▸ hty)
    obtain ⟨w, hw, hvw⟩ := hthin.type hv'
    have hwn : w.val.name = v.val.name :=
      (hs.tracks.named w (Digraph.mem_of_vertex? hw)).trans (Digraph.key_of_vertex? hw)
    obtain ⟨src, hd, -⟩ := dropped_of_drop hedited hok
    have hpass := hedited.passable_of_droppable hd
    rw [hafter] at hpass
    obtain ⟨x', hx'⟩ := hcond.passable (hthin.edited.tracks.live_taken _ (hkey hv')) hpass
    exact hundroppable w.val (List.mem_map_of_mem (Digraph.mem_of_vertex? hw)) (hvw ▸ hty) x' (hwn ▸ hx')
  · intro head hhead p hpe hmerges
    obtain ⟨members, hfirst, hlen, hc, attrs, hattrs⟩ := (merges_iff hedited).1 hmerges
    have hlive : ∀ m ∈ members, m ∈ (dropAll e.elided (s, st)).1.dag.keys := by
      intro m hmem
      obtain ⟨c, hcn, k, hk, hty⟩ := hc.node_of_mem hmem
      obtain ⟨v, hv, rfl⟩ := Option.map_eq_some_iff.1 hcn
      refine hkey (hold hv fun q hq heq => (hstr q hq).2 p hpe ?_)
      rw [← heq, hty]
      exact List.mem_map_of_mem hk
    refine hunripe head (hperm.mem_iff.2 (hlive head (List.mem_of_mem_head? hfirst))) ?_
    rw [hafter] at hc hattrs
    exact ⟨p, hpe, members, hc, hfirst, hlen, fun m hmem => hthin.edited.tracks.live_taken _ (hlive m hmem), attrs,
      hattrs⟩

/-- A run with a stratified library ends well after two passes at most. Inputs and fused nodes that can not be dropped
are still there. -/
lemma run_of_stratified (hs : Edited g (Sandbox.copy g none) s) (hp : ∀ p ∈ e.patterns, ArrowFree p.name)
    (hstr : e.Stratified) (hcap : 2 ≤ e.passes) (hground : Grounded s)
    (hins : ∀ {k v}, s.ins.contains k → s.dag.vertex? k = some v → v.val.type ∈ e.elided → ∀ x, ¬ s.Passable k x)
    (hmerges : ∀ {k v}, s.merges.contains k → s.dag.vertex? k = some v → v.val.type ∉ e.elided) :
    ∃ t st, e.run s = ((t, st), none) ∧ st.iterations ≤ 2 ∧ Edited g (Sandbox.copy g none) t ∧ Grounded t := by
  obtain ⟨n, hn⟩ := Nat.exists_eq_add_of_le hcap
  obtain ⟨after, heq, hit, -⟩ := exists_pass (e := e) hs.tracks.toRoster { iterations := 1 }
  have hstable := stable_of_pass hs hp hstr heq
  obtain ⟨order, -, heq'⟩ := pass_eq (e := e) hs.tracks.toRoster { iterations := 1 }
  obtain ⟨hthin, -⟩ := thinned_dropAll hs e.elided { iterations := 1 }
  obtain ⟨hcond, -⟩ := condensed_foldl_tryHead hthin.edited hp order (dropAll e.elided (s, { iterations := 1 })).2
  have hafter : after = order.foldl (tryHead e.patterns) (dropAll e.elided (s, { iterations := 1 })) := by
    rw [heq'] at heq
    exact (congrArg Prod.fst heq).symm
  have hedited : Edited g (Sandbox.copy g none) after.1 := hafter ▸ hcond.edited
  have hgrounded : Grounded after.1 := hafter ▸ hcond.grounded (hthin.grounded hground hins hmerges)
  have hrun : e.run s = if progressed {} after.2 then e.loop (n + 1) after else (after, none) := by
    rw [run, hn, Nat.add_comm 2 n, loop]
    simp only [Nat.zero_add]
    rw [heq]
  by_cases hprog : progressed {} after.2
  · obtain ⟨rejected, hloop⟩ := loop_of_stable hedited.tracks.toRoster hstable n after.2
    rw [if_pos hprog] at hrun
    refine ⟨after.1, _, hrun.trans hloop, ?_, hedited, hgrounded⟩
    show after.2.iterations + 1 ≤ 2
    rw [hit]
  · rw [if_neg hprog] at hrun
    exact ⟨after.1, after.2, hrun, by rw [hit]; decide, hedited, hgrounded⟩

end Convergence

end Engine

end OpGraph
