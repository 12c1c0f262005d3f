import Mathlib
import OpGraph.Proofs.Network.Registered

/-!
# What records keep

What a node writes is visible from outside if the node is an output or an edge out of it is registered. Optimizing takes
this from no node and gives it to none: what becomes of a chain is visible exactly when its last member was, and all
other members were hidden. So a record keeps the last of its members as long as its node is visible, and otherwise
nothing, however often fused nodes are fused again.
-/

namespace OpGraph

open Sandbox

/-- What a node writes is visible from outside: the node is an output, or an edge out of it is registered. -/
def Graph.Visible (g : Graph) (c : String) : Prop :=
  c ∈ g.outs ∨ ∃ e ∈ g.outEdges c, g.isRegistered e.id

instance (g : Graph) (c : String) : Decidable (g.Visible c) :=
  inferInstanceAs (Decidable (_ ∨ _))

namespace Sandbox

variable {g : Graph} {s t : Sandbox} {c : String}

/-- The same in a sandbox, where all that is registered is an edge. -/
def Visible (s : Sandbox) (c : String) : Prop :=
  s.outs.contains c ∨ ∃ y, s.registered.contains (EdgeId.arc c y)

/-- What is registered under the name of a node is an edge out of it. -/
lemma Edited.hasArc_of_registered (h : Edited g (Sandbox.copy g none) s) {x y : String} (hx : ArrowFree x)
    (hreg : s.registered.contains (EdgeId.arc x y)) : s.dag.hasArc x y := by
  obtain ⟨u, v, huv, he⟩ := h.exists_arc_of_registered hreg
  have hu : ArrowFree u := h.tracks.arrowFree_live (Digraph.hasVertex_iff.1 (h.tracks.wellFormed.hasVertex_src huv))
  obtain ⟨rfl, rfl⟩ := (EdgeId.arc_inj hx hu).1 he
  exact huv

/-- What is visible does not depend on precisions and attributes. -/
lemma Visible.redressed_iff (hr : Redressed s t) : t.Visible c ↔ s.Visible c := by
  rw [Visible, Visible, hr.outs, hr.registered]

/-- A drop leaves what is visible. -/
lemma Visible.dropped_iff {name : String} {src : Edge} (hd : Dropped s name src t) : t.Visible c ↔ s.Visible c := by
  rw [Visible, Visible, (border_eq_iff.1 hd.border).2.1, hd.registered]

section Fuses

variable {p : Pattern} {members : List String} {n : Node}

/-- A member of a chain that is visible is the last one. -/
lemma Visible.last (hs : Edited g (Sandbox.copy g none) s) {cs : List Constraint} (hc : Engine.Chain s cs members)
    (hm : c ∈ members) (hv : s.Visible c) : members.getLast? = some c := by
  rcases hv with hout | ⟨y, hreg⟩
  · exact hc.last_of_output hm hout
  · have harc := hs.hasArc_of_registered (hs.tracks.arrowFree_live (hc.live hm)) hreg
    rcases hc.of_hasArc hs.tracks.wellFormed hm harc with hlast | ⟨-, hno, -⟩
    · exact hlast
    · exact absurd hreg hno

/-- A node outside the chain, and its last member, are as visible in their new places as they were. -/
lemma Visible.fuses_iff (hs : Edited g (Sandbox.copy g none) s) (ht : Edited g (Sandbox.copy g none) t)
    (hf : Engine.Fuses s p members n t) (hc : c ∈ s.dag.keys) (hlast : c ∈ members → members.getLast? = some c) :
    t.Visible (Engine.Fuses.place members n.name c) ↔ s.Visible c := by
  have hfresh := hf.name_fresh hs.tracks
  have haf : ArrowFree n.name := ht.tracks.arrowFree_live (hf.mem_keys.2 (.inl rfl))
  -- a place that was a node before is the place of no member
  have hself : Engine.Fuses.place members n.name c ∈ s.dag.keys → Engine.Fuses.place members n.name c = c := by
    intro hlive
    refine Engine.Fuses.place_of_not_mem fun hm => ?_
    rw [Engine.Fuses.place_of_mem hm] at hlive
    exact hfresh hlive
  have hmem : Engine.Fuses.place members n.name c = n.name → c ∈ members := by
    intro he
    by_contra hm
    rw [Engine.Fuses.place_of_not_mem hm] at he
    exact hfresh (he ▸ hc)
  have hplace : Engine.Fuses.place members n.name c ∈ t.dag.keys := by
    by_cases hm : c ∈ members
    · rw [Engine.Fuses.place_of_mem hm]
      exact hf.mem_keys.2 (.inl rfl)
    · rw [Engine.Fuses.place_of_not_mem hm]
      exact hf.mem_keys.2 (.inr ⟨hc, hm⟩)
  constructor
  · rintro (hout | ⟨y, hreg⟩)
    · rcases (hf.merged.outs _).1 hout with ⟨hout, -⟩ | ⟨he, m, hm, hout⟩
      · exact .inl (hself ((Network.keeps_iff_live hs).1 (hs.bordered.outs_kept hout)) ▸ hout)
      · have hcm := hlast (hmem he)
        rw [hf.chain.last_of_output hm hout] at hcm
        exact .inl (Option.some.inj hcm ▸ hout)
    · have hpaf := ht.tracks.arrowFree_live hplace
      have harc := ht.hasArc_of_registered hpaf hreg
      have hy := hf.not_mem_of_live hs.tracks (Digraph.hasVertex_iff.1 (ht.tracks.wellFormed.hasVertex_dst harc))
      have hlive : ∀ {z}, s.dag.hasArc (Engine.Fuses.place members n.name c) z →
        Engine.Fuses.place members n.name c = c :=
        fun hz => hself (Digraph.hasVertex_iff.1 (hs.tracks.wellFormed.hasVertex_src hz))
      rcases (hf.merged.registered hpaf (hf.not_mem_of_live hs.tracks hplace) hy).1 hreg with
        hreg | ⟨-, m, -, harc, hreg⟩ | ⟨he, m, hm, harc, hreg⟩
      · exact .inr ⟨y, hlive (hs.hasArc_of_registered hpaf hreg) ▸ hreg⟩
      · exact .inr ⟨m, hlive harc ▸ hreg⟩
      · have hcm := hlast (hmem he)
        rw [hf.chain.last_of_outbound hs.tracks.wellFormed hm hy harc] at hcm
        exact .inr ⟨y, Option.some.inj hcm ▸ hreg⟩
  · rintro (hout | ⟨y, hreg⟩)
    · refine .inl ((hf.merged.outs _).2 ?_)
      by_cases hm : c ∈ members
      · exact .inr ⟨Engine.Fuses.place_of_mem hm, c, hm, hout⟩
      · rw [Engine.Fuses.place_of_not_mem hm]
        exact .inl ⟨hout, hm⟩
    · have harc := hs.hasArc_of_registered (hs.tracks.arrowFree_live hc) hreg
      refine .inr ⟨_, hf.registered_place hs.tracks haf harc hreg fun hboth => ?_⟩
      exact hf.not_mem_of_last hs.tracks (hlast hboth.1) harc hboth.2

/-- What a record is made by says of a member of a chain that it is exposed exactly when it is visible. -/
lemma isExposed_iff (hs : Edited g (Sandbox.copy g none) s) (hf : Engine.Fuses s p members n t) (hm : c ∈ members) :
    s.isExposed members c ↔ s.Visible c := by
  rw [isExposed, Bool.or_eq_true, List.any_eq_true]
  constructor
  · rintro (hout | ⟨e, -, he⟩)
    · exact .inl hout
    · rw [Bool.and_eq_true, beq_iff_eq] at he
      obtain ⟨rfl, hreg⟩ := he
      exact .inr ⟨e.dst, hreg⟩
  · rintro (hout | ⟨y, hreg⟩)
    · exact .inl hout
    · have harc := hs.hasArc_of_registered (hs.tracks.arrowFree_live (hf.chain.live hm)) hreg
      have hy := hf.not_mem_of_last hs.tracks (Visible.last hs hf.chain hm (.inr ⟨y, hreg⟩)) harc
      obtain ⟨a, ha, rfl, rfl⟩ := Digraph.hasArc_iff.1 harc
      refine .inr ⟨a.val, hs.tracks.val_mem_outbound ha hm hy, ?_⟩
      rw [Bool.and_eq_true, beq_iff_eq, isRegistered, hs.tracks.id_of_mem ha]
      exact ⟨(hs.tracks.payload a ha).1, hreg⟩

end Fuses

/-! ### Records -/

/-- The record of a node that is visible keeps the last of its members, any other record keeps nothing. -/
def KeepsVisible (s : Sandbox) : Prop :=
  ∀ {c r}, c ∈ s.dag.keys → s.merges.get? c = some r →
    (s.Visible c → ∃ x, r.members.getLast? = some x ∧ r.keep = [x]) ∧ (¬ s.Visible c → r.keep = [])

namespace KeepsVisible

/-- A member that is hidden adds nothing to what is kept. -/
lemma keepMember_hidden (h : KeepsVisible s) {names : List String} (hc : c ∈ s.dag.keys) (hexp : ¬ s.isExposed names c)
    (hv : ¬ s.Visible c) : s.keepMember names [] c = [] := by
  rw [keepMember]
  cases hr : s.mergeRecord? c with
  | none =>
    dsimp only
    rw [if_neg hexp]
  | some r =>
    dsimp only
    rw [if_neg hexp, (h hc hr).2 hv, List.foldl_nil]

/-- A member that is visible adds the last operator that it stands for. -/
lemma keepMember_visible (h : KeepsVisible s) {names : List String} (hc : c ∈ s.dag.keys) (hexp : s.isExposed names c)
    (hv : s.Visible c) : ∃ x, (s.originals c).getLast? = some x ∧ s.keepMember names [] c = [x] := by
  rw [keepMember, originals]
  cases hr : s.mergeRecord? c with
  | none =>
    rw [show s.merges.get? c = none from hr]
    dsimp only
    rw [if_pos hexp]
    exact ⟨c, rfl, rfl⟩
  | some r =>
    obtain ⟨x, hx, hkeep⟩ := (h hc hr).1 hv
    rw [show s.merges.get? c = some r from hr]
    dsimp only
    rw [if_pos hexp, hkeep, hx]
    refine ⟨x, rfl, ?_⟩
    -- the operator is kept already, and it is kept once
    simp [Graph.addOnce]

/-- What records keep does not depend on precisions and attributes. -/
lemma redressed (h : KeepsVisible s) (hr : Redressed s t) : KeepsVisible t := by
  intro c r hc hm
  rw [Visible.redressed_iff hr]
  exact h (hr.mem_keys.1 hc) (hr.merges ▸ hm)

/-- A drop leaves what records keep. -/
lemma dropped (h : KeepsVisible s) {name : String} {src : Edge} (hd : Dropped s name src t) : KeepsVisible t := by
  intro c r hc hm
  rw [Visible.dropped_iff hd]
  exact h (hd.mem_keys.1 hc).1 ((records_eq_iff.1 hd.records).1 ▸ hm)

variable {p : Pattern} {members : List String} {n : Node}

/-- All that the record of a chain keeps comes from the last member. -/
lemma keep_provenance (h : KeepsVisible s) (hs : Edited g (Sandbox.copy g none) s) (hf : Engine.Fuses s p members n t)
    {last : String} (hl : members.getLast? = some last) (fused pattern : String) :
    (s.provenance members fused pattern).keep = s.keepMember members [] last := by
  obtain ⟨init, rfl⟩ := List.getLast?_eq_some_iff.1 hl
  have hnd := List.nodup_append.1 (hf.chain.nodup hs.tracks.wellFormed hs.tracks.acyclic)
  have hinit : init.foldl (s.keepMember (init ++ [last])) [] = [] := by
    refine List.foldlRecOn (motive := fun keep => keep = []) init _ rfl fun keep hkeep m hm => ?_
    have hmem : m ∈ init ++ [last] := List.mem_append_left _ hm
    have hhidden : ¬ s.Visible m := by
      intro hv
      have hml := Visible.last hs hf.chain hmem hv
      rw [hl] at hml
      exact hnd.2.2 m hm last (List.mem_singleton_self last) (Option.some.inj hml).symm
    rw [hkeep]
    exact h.keepMember_hidden (hf.chain.live hmem) (mt (isExposed_iff hs hf hmem).1 hhidden) hhidden
  show (init ++ [last]).foldl (s.keepMember (init ++ [last])) [] = _
  rw [List.foldl_append, hinit]
  rfl

/-- The fused node is as visible as the last member was, and its record keeps what that one's would. -/
lemma fuses (h : KeepsVisible s) (hs : Edited g (Sandbox.copy g none) s) (ht : Edited g (Sandbox.copy g none) t)
    (hf : Engine.Fuses s p members n t) : KeepsVisible t := by
  intro c r hc hr
  rw [hf.merged.merges] at hr
  by_cases hcn : c = n.name
  · subst hcn
    rw [if_pos rfl] at hr
    cases hr
    obtain ⟨last, hl⟩ := hf.chain.exists_last
    have hlast : last ∈ members := List.mem_of_getLast? hl
    have hlive := hf.chain.live hlast
    have hexp := isExposed_iff hs hf hlast
    have hvis := Visible.fuses_iff hs ht hf hlive fun _ => hl
    rw [Engine.Fuses.place_of_mem hlast] at hvis
    rw [hvis, h.keep_provenance hs hf hl]
    refine ⟨fun hv => ?_, fun hv => h.keepMember_hidden hlive (mt hexp.1 hv) hv⟩
    obtain ⟨x, hx, hkeep⟩ := h.keepMember_visible hlive (hexp.2 hv) hv
    refine ⟨x, ?_, hkeep⟩
    obtain ⟨init, rfl⟩ := List.getLast?_eq_some_iff.1 hl
    rw [members_provenance, List.flatMap_append, List.getLast?_append, List.flatMap_singleton, hx, Option.some_or]
  · obtain ⟨hc, hm⟩ := (hf.mem_keys.1 hc).resolve_left hcn
    rw [if_neg hcn, if_neg hm] at hr
    have hvis := Visible.fuses_iff hs ht hf hc fun hin => absurd hin hm
    rw [Engine.Fuses.place_of_not_mem hm] at hvis
    rw [hvis]
    exact h hc hr

end KeepsVisible

end Sandbox

namespace Network

lemma persistent_keepsVisible : Persistent fun _ => KeepsVisible where
  mono := fun _ h => h
  redressed := fun hr h => h.redressed hr
  effect := by
    intro l e g s t _ hs ht heff h
    cases heff with
    | dropped _ hd => exact h.dropped hd
    | fused _ hf => exact h.fuses hs ht hf

/-- A node is visible in a graph exactly when it is in a copy of it. -/
lemma visible_copy_iff {g : Graph} (hg : g.Regular) {c : String} (hc : ArrowFree c) :
    (Sandbox.copy g none).Visible c ↔ g.Visible c := by
  refine or_congr NameSet.contains_ofList ?_
  constructor
  · rintro ⟨y, hreg⟩
    have harc := (hasArc_copy hg.dag).1 ((Edited.copy hg none).hasArc_of_registered hc hreg)
    obtain ⟨a, ha, rfl, rfl⟩ := Digraph.hasArc_iff.1 harc
    refine ⟨a.val, List.mem_map_of_mem (hg.dag.mem_outArcs.2 ⟨ha, rfl⟩), ?_⟩
    have hpay := hg.sound.payload a ha
    rw [Edge.id, hpay.1, hpay.2]
    exact hreg
  · rintro ⟨e, he, hreg⟩
    obtain ⟨a, hout, rfl⟩ := List.mem_map.1 he
    obtain ⟨ha, rfl⟩ := hg.dag.mem_outArcs.1 hout
    have hpay := hg.sound.payload a ha
    rw [Edge.id, hpay.1] at hreg
    exact ⟨_, hreg⟩

/-- Records keep exactly what is visible: in whatever a frozen network is optimized to, the record of a node that is an
output or has a registered edge keeps the last of its members and nothing else, and every other record keeps nothing. -/
theorem keep_of_evolves {l : Library} {n m k : Network} (hr : Reached (fun _ => True) l n) (hf : n.freeze = .ok m)
    (he : Evolves m k) {r : MergeRecord} (hrec : r ∈ k.graph.merges) :
    (k.graph.Visible r.fused → ∃ x, r.members.getLast? = some x ∧ r.keep = [x]) ∧
      (¬ k.graph.Visible r.fused → r.keep = []) := by
  have hc := hr.coherent
  obtain ⟨hs, hfrozen, -, hfz⟩ := hc.frozen hf
  have hstart : KeepsVisible (Sandbox.copy m.graph none) := by
    intro c r _ hr
    rw [get?_merges_of_nil (hfz.merges.trans (hc.unjoined hs).2.1)] at hr
    cases hr
  obtain ⟨hck, hsk, hkeeps⟩ := he.induct (hc.freeze hf) (hfrozen ▸ State.noConfusion) persistent_keepsVisible hstart
  have hg := hck.regular hsk
  have hlive : r.fused ∈ k.graph.dag.keys := Digraph.hasVertex_iff.1 (hg.sound.merges r hrec)
  rw [← visible_copy_iff hg (hg.arrowFree _ hlive)]
  exact hkeeps ((keys_copy_none _).symm ▸ hlive) ((get?_merges_copy hck.oneRecord).2 ⟨hrec, rfl⟩)

/-- Two chains. The edge from the first one to the second one is registered, the end of the second one is read by an
operator that stays. -/
def handedOn : List Node := [
  { name := "a", type := "dense", outputs := ["a0"] },
  { name := "c", type := "conv", inputs := ["a0"], outputs := ["c0"] },
  { name := "r", type := "relu", inputs := ["c0"], outputs := ["r0"] },
  { name := "d", type := "conv", inputs := ["r0"], outputs := ["d0"] },
  { name := "e", type := "batchnorm", inputs := ["d0"], outputs := ["e0"] },
  { name := "z", type := "topk", inputs := ["e0"] }]

/-- The first chain is fused in two steps and keeps what its end writes, the second one keeps nothing. -/
theorem keep_of_evolves_handedOn : ∃ k r r', Evolves (assemble handedOn [("r", "d")]) k ∧ k.graph.merges = [r, r'] ∧
    r.members = ["d", "e"] ∧ ¬ k.graph.Visible r.fused ∧ r.keep = [] ∧
    r'.members = ["a", "c", "r"] ∧ k.graph.Visible r'.fused ∧ r'.keep = ["r"] := by
  have hr : Reached (fun _ => True) .standard ((new "net" 0).declare handedOn [("r", "d")]) :=
    reached_declare (by decide) (by decide) _
  have hkeep : ∀ {n m k}, Reached (fun _ => True) .standard n → n.freeze = .ok m → Evolves m k →
      k.graph.merges.map (fun r => (r.members, decide (k.graph.Visible r.fused))) =
        [(["d", "e"], false), (["a", "c", "r"], true)] →
      ∃ k r r', Evolves m k ∧ k.graph.merges = [r, r'] ∧ r.members = ["d", "e"] ∧ ¬ k.graph.Visible r.fused ∧
      r.keep = [] ∧
        r'.members = ["a", "c", "r"] ∧ k.graph.Visible r'.fused ∧ r'.keep = ["r"] := by
    intro n m k hr hm he hmap
    obtain ⟨r, _, hmerges, hfirst, hrest⟩ := List.map_eq_cons_iff.1 hmap
    obtain ⟨r', rfl, hsecond⟩ := List.map_eq_singleton_iff.1 hrest
    rw [Prod.mk.injEq, decide_eq_false_iff_not] at hfirst
    rw [Prod.mk.injEq, decide_eq_true_eq] at hsecond
    have hmem : r ∈ k.graph.merges ∧ r' ∈ k.graph.merges := by
      rw [hmerges]
      exact ⟨List.mem_cons_self, List.mem_cons_of_mem _ List.mem_cons_self⟩
    have hnone := (keep_of_evolves hr hm he hmem.1).2 hfirst.2
    obtain ⟨x, hx, hkeep⟩ := (keep_of_evolves hr hm he hmem.2).1 hsecond.2
    rw [hsecond.1] at hx
    cases hx
    exact ⟨k, r, r', he, hmerges, hfirst.1, hfirst.2, hnone, hsecond.1, hsecond.2, hkeep⟩
  have hfirst : Library.standard.ArrowFree := by decide
  have hsecond : Library.ArrowFree ⟨[.chain "fused_dcr" ["dense", "fused_cr"]]⟩ := by decide
  exact hkeep hr rfl ((Evolves.refl.optimize hfirst true .ascending).optimize hsecond true .ascending)
    (by decide +kernel)

end Network

end OpGraph
