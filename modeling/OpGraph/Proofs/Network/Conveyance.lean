import Mathlib
import OpGraph.Proofs.Network.Carryover

/-!
# What edges convey

The last of the operators that a node stands for gives what the node gives: what the others give stays inside the chain.
So every edge carries what this operator gave when the network was frozen, and the operator it was given to has arrived
at the consumer: it became part of it, or it was dropped on the way.
-/

namespace OpGraph

open Sandbox

namespace Sandbox

variable {g : Graph} {o s t : Sandbox}

/-- The last of the operators that a node stands for. -/
def Exit (s : Sandbox) (a x : String) : Prop :=
  a ∈ s.dag.keys ∧ (s.originals a).getLast? = some x

/-- An edge of `o` leads to a part of one of the nodes `names` or to a node that is gone. -/
def Inside (o s : Sandbox) (names : List String) (x y : String) : Prop :=
  o.dag.Adj x y ∧ ((∃ a ∈ names, Moved o s y a) ∨ Gone (Moved o s) y)

/-- What is conveyed from the operators of `o`. One node at most feeds what is gone, what leaves a node comes from its
exit, to which there is a way inside from all its parts, and an edge carries what the exit of its producer gave to an
operator that has arrived at its consumer. -/
structure Conveys (o s : Sandbox) : Prop extends Grouped o s where
  plain : ∀ {u x}, o.Owns u x ↔ u ∈ o.dag.keys ∧ x = u
  sole : ∀ {y z z' c c'}, Gone (Moved o s) y → Feeds o.dag.Adj (Moved o s) z y → Feeds o.dag.Adj (Moved o s) z' y →
    Moved o s z c → Moved o s z' c' → c = c'
  outward : ∀ {x z a b}, Feeds o.dag.Adj (Moved o s) x z → Moved o s x a → Moved o s z b → a ≠ b → s.Exit a x
  inward : ∀ {x a}, Moved o s x a → ∃ w, s.Exit a w ∧ Relation.ReflTransGen (Inside o s [a]) x w
  carried : ∀ a ∈ s.dag.arcs, ∃ f ∈ o.dag.arcs, f.val.var = a.val.var ∧ s.Exit a.src f.src ∧
    Arrives o.dag.Adj (Moved o s) f.dst a.dst

/-! ### Exits -/

namespace Exit

lemma owns {a x : String} (h : s.Exit a x) : s.Owns a x :=
  ⟨h.1, List.mem_of_getLast? h.2⟩

lemma unique {a x y : String} (hx : s.Exit a x) (hy : s.Exit a y) : x = y :=
  Option.some.inj (hx.2.symm.trans hy.2)

/-- Exits do not depend on precisions and attributes. -/
lemma redressed {a x : String} (h : s.Exit a x) (hr : Redressed s t) : t.Exit a x := by
  rw [Exit, originals, hr.merges, hr.mem_keys]
  exact h

/-- The exit of the last member of a chain is the exit of the fused node. -/
lemma fuses {a x : String} (h : s.Exit a x) (hs : Tracks g (copy g none) s) {p : Pattern} {members : List String}
    {n : Node} (hf : Engine.Fuses s p members n t) (hlast : a ∈ members → members.getLast? = some a) :
    t.Exit (Engine.Fuses.place members n.name a) x := by
  by_cases ha : a ∈ members
  · rw [Engine.Fuses.place_of_mem ha]
    refine ⟨hf.mem_keys.2 (.inl rfl), ?_⟩
    obtain ⟨init, hinit⟩ := List.getLast?_eq_some_iff.1 (hlast ha)
    rw [originals, hf.merged.merges, if_pos rfl]
    show (members.flatMap s.originals).getLast? = some x
    rw [hinit, List.flatMap_append, List.getLast?_append, List.flatMap_singleton, h.2, Option.some_or]
  · rw [Engine.Fuses.place_of_not_mem ha]
    have hne : a ≠ n.name := by
      rintro rfl
      exact hf.name_fresh hs h.1
    refine ⟨hf.mem_keys.2 (.inr ⟨h.1, ha⟩), ?_⟩
    rw [originals, hf.merged.merges, if_neg hne, if_neg ha]
    exact h.2

/-- A drop leaves the exits of all other nodes. -/
lemma dropped {name : String} {src : Edge} (hd : Dropped s name src t) {a x : String} :
    t.Exit a x ↔ s.Exit a x ∧ a ≠ name := by
  rw [Exit, Exit, originals, originals, (records_eq_iff.1 hd.records).1, hd.mem_keys]
  tauto

end Exit

namespace Conveys

/-- The exit of a node feeds the consumers of the node. -/
lemma exists_feeds (h : Conveys o s) {a b x : String} (hab : s.dag.hasArc a b) (hx : s.Exit a x) :
    ∃ z, Feeds o.dag.Adj (Moved o s) x z ∧ Moved o s z b := by
  obtain ⟨c, hc, rfl, rfl⟩ := Digraph.hasArc_iff.1 hab
  obtain ⟨f, hf, -, hexit, harr⟩ := h.carried c hc
  obtain rfl := hx.unique hexit
  have harc : o.dag.Adj f.src f.dst := Digraph.hasArc_of_mem hf
  rcases harr with hdst | ⟨hgone, z, hz, hzb⟩
  · exact ⟨f.dst, .arc harc, hdst⟩
  · exact ⟨z, Feeds.trans (.arc harc) hgone hz, hzb⟩

/-- Only precisions and attributes differ. -/
lemma redressed (h : Conveys o s) (hr : Redressed s t) : Conveys o t := by
  have hmoved : Moved o t = Moved o s := by
    funext u a
    simp only [Moved, hr.owns]
  have hexit : t.Exit = s.Exit := by
    funext a x
    rw [Exit, Exit, originals, originals, hr.merges, hr.mem_keys]
  refine ⟨⟨fun hc hc' => h.exclusive (hr.owns.1 hc) (hr.owns.1 hc'), fun hx hy hc => ?_, ?_⟩, h.plain, ?_, ?_, ?_,
    fun a ha => ?_⟩
  · exact hr.owns.2 (h.together hx hy (hr.owns.1 hc))
  · rw [hmoved]
    exact fun hz ha hb hab => hr.hasArc.2 (h.joined hz ha hb hab)
  · rw [hmoved]
    exact h.sole
  · rw [hmoved, hexit]
    exact h.outward
  · have hinside : Inside o t = Inside o s := by
      funext names x y
      rw [Inside, Inside, hmoved]
    rw [hmoved, hexit, hinside]
    exact fun {x a} hx => h.inward hx
  · rw [hmoved, hexit]
    exact h.carried a (hr.mem_arcs.1 ha)

end Conveys

/-! ### Ways inside -/

/-- A way leads on past nodes that are gone. -/
lemma inside_of_feeds {names : List String} {x z : String} (h : Feeds o.dag.Adj (Moved o s) x z)
    (hz : (∃ a ∈ names, Moved o s z a) ∨ Gone (Moved o s) z) : Relation.ReflTransGen (Inside o s names) x z := by
  induction h with
  | arc h => exact .single ⟨h, hz⟩
  | past _ hy hyx ih => exact (ih (.inr hy)).tail ⟨hyx, hz⟩

/-- Where what was inside is inside later, so are the ways. -/
lemma inside_mono {names names' : List String} (hsub : ∀ {y}, ((∃ a ∈ names, Moved o s y a) ∨ Gone (Moved o s) y) →
    (∃ a ∈ names', Moved o t y a) ∨ Gone (Moved o t) y) {x w : String}
    (h : Relation.ReflTransGen (Inside o s names) x w) : Relation.ReflTransGen (Inside o t names') x w := by
  induction h with
  | refl => exact .refl
  | tail _ hstep ih => exact ih.tail ⟨hstep.1, hsub hstep.2⟩

/-- Where all that is on a way inside is gone later, the way leads past it. -/
lemma feeds_of_inside {names : List String} {x w z : String}
    (hall : ∀ {y}, (∃ a ∈ names, Moved o s y a) ∨ Gone (Moved o s) y → Gone (Moved o t) y)
    (hpath : Relation.ReflTransGen (Inside o s names) x w) (hz : Feeds o.dag.Adj (Moved o t) w z) :
    Feeds o.dag.Adj (Moved o t) x z := by
  induction hpath using Relation.ReflTransGen.head_induction_on with
  | refl => exact hz
  | head hstep _ ih => exact Feeds.trans (.arc hstep.1) (hall hstep.2) ih

/-- From all parts of the members of a chain there is a way inside to the exit of its last member. -/
lemma Conveys.exists_exit (h : Conveys o s) (wf : s.dag.WellFormed) {cs : List Constraint} {members : List String}
    (hc : Engine.Chain s cs members) {last : String} (hlast : members.getLast? = some last) {a x : String}
    (ha : a ∈ members) (hx : Moved o s x a) :
    ∃ w, s.Exit last w ∧ Relation.ReflTransGen (Inside o s members) x w := by
  induction hc generalizing a x with
  | @last c name hf hi =>
    obtain rfl : name = last := by simpa using hlast
    obtain rfl := List.mem_singleton.1 ha
    exact h.inward hx
  | @link c cs name next rest hf hi hsucc ho hr hc ih =>
    rw [List.getLast?_cons_cons] at hlast
    have hsub : ∀ {names : List String} {y}, (∀ m ∈ names, m ∈ name :: next :: rest) →
        (∃ m ∈ names, Moved o s y m) ∨ Gone (Moved o s) y →
        (∃ m ∈ name :: next :: rest, Moved o s y m) ∨ Gone (Moved o s) y := by
      rintro names y hnames (⟨m, hm, hy⟩ | hy)
      · exact .inl ⟨m, hnames m hm, hy⟩
      · exact .inr hy
    rcases List.mem_cons.1 ha with rfl | ha
    · -- The way leads to the exit of the first member, on to the next one, and from there to the exit of the last one.
      obtain ⟨w, hw, hpath⟩ := h.inward hx
      obtain ⟨z, hwz, hz⟩ := h.exists_feeds (wf.mem_succs.1 (hsucc ▸ List.mem_singleton_self next)) hw
      obtain ⟨w', hw', hrest⟩ := ih hlast List.mem_cons_self hz
      have hnext : ∃ m ∈ a :: next :: rest, Moved o s z m := ⟨next, by simp, hz⟩
      refine ⟨w', hw', ?_⟩
      calc
        Relation.ReflTransGen (Inside o s (a :: next :: rest)) x w := inside_mono (hsub (by simp)) hpath
        Relation.ReflTransGen (Inside o s (a :: next :: rest)) w z := inside_of_feeds hwz (.inl hnext)
        Relation.ReflTransGen (Inside o s (a :: next :: rest)) z w' :=
          inside_mono (hsub fun _ => List.mem_cons_of_mem _) hrest
    · obtain ⟨w, hw, hpath⟩ := ih hlast ha hx
      exact ⟨w, hw, inside_mono (hsub fun _ => List.mem_cons_of_mem _) hpath⟩

/-! ### Merges -/

section Fuses

variable {p : Pattern} {members : List String} {n : Node}

/-- What has arrived at a member of a chain has arrived at the fused node. -/
lemma arrives_fuses (hs : Tracks g (copy g none) s) (hf : Engine.Fuses s p members n t) {y b : String}
    (h : Arrives o.dag.Adj (Moved o s) y b) :
    Arrives o.dag.Adj (Moved o t) y (Engine.Fuses.place members n.name b) := by
  rcases h with hy | ⟨hgone, z, hz, hzb⟩
  · exact .inl ((moved_fuses hs hf).2 ⟨b, hy, rfl⟩)
  · exact .inr ⟨(gone_fuses hs hf).2 hgone, z, hz.mono (gone_fuses hs hf).2, (moved_fuses hs hf).2 ⟨b, hzb, rfl⟩⟩

/-- A merge moves what its members convey. -/
lemma Conveys.fuses (h : Conveys o s) (hs : Tracks g (copy g none) s) (hf : Engine.Fuses s p members n t) :
    Conveys o t := by
  have hmoved := fun {u a} => @moved_fuses _ o _ _ _ _ _ hs hf u a
  obtain ⟨last, hlast⟩ := hf.chain.exists_last
  refine ⟨h.toGrouped.fuses hs hf, h.plain, fun hy hz hz' hc hc' => ?_, fun {x z a b} hxz ha hb hab => ?_,
    fun {x a} hx => ?_, fun a ha => ?_⟩
  · obtain ⟨d, hd, rfl⟩ := hmoved.1 hc
    obtain ⟨d', hd', rfl⟩ := hmoved.1 hc'
    rw [h.sole ((gone_fuses hs hf).1 hy) (feeds_fuses hs hf hz) (feeds_fuses hs hf hz') hd hd']
  · obtain ⟨a, ha', rfl⟩ := hmoved.1 ha
    obtain ⟨b, hb', rfl⟩ := hmoved.1 hb
    have hne : a ≠ b := fun he => hab (congrArg _ he)
    have hxz := feeds_fuses hs hf hxz
    refine (h.outward hxz ha' hb' hne).fuses hs hf fun hmem => ?_
    -- What leaves the chain leaves it from its last member.
    have hout : b ∉ members := fun hb => Engine.Fuses.not_both hab ⟨hmem, hb⟩
    exact hf.chain.last_of_outbound hs.wellFormed hmem hout (h.joined hxz ha' hb' hne)
  · obtain ⟨a, ha, rfl⟩ := hmoved.1 hx
    have hsub : ∀ {names : List String} {y}, (∀ m ∈ names, Engine.Fuses.place members n.name m =
        Engine.Fuses.place members n.name a) → (∃ m ∈ names, Moved o s y m) ∨ Gone (Moved o s) y →
        (∃ m ∈ [Engine.Fuses.place members n.name a], Moved o t y m) ∨ Gone (Moved o t) y := by
      refine fun hnames hy => hy.imp (fun ⟨m, hm, hy⟩ => ?_) (gone_fuses hs hf).2
      exact ⟨_, List.mem_singleton_self _, hmoved.2 ⟨m, hy, hnames m hm⟩⟩
    by_cases hmem : a ∈ members
    · obtain ⟨w, hw, hpath⟩ := h.exists_exit hs.wellFormed hf.chain hlast hmem ha
      refine ⟨w, ?_, inside_mono (hsub fun m hm => ?_) hpath⟩
      · have hexit := hw.fuses hs hf fun _ => hlast
        rwa [Engine.Fuses.place_of_mem (List.mem_of_getLast? hlast),
          ← @Engine.Fuses.place_of_mem _ n.name _ hmem] at hexit
      · rw [Engine.Fuses.place_of_mem hm, Engine.Fuses.place_of_mem hmem]
    · obtain ⟨w, hw, hpath⟩ := h.inward ha
      refine ⟨w, hw.fuses hs hf fun hm => absurd hm hmem, inside_mono (hsub fun m hm => ?_) hpath⟩
      rw [List.mem_singleton.1 hm]
  · rcases hf.merged.arcs a ha with ⟨ha, hsrc, hdst⟩ | ⟨e, he, rfl⟩ | ⟨e, he, rfl⟩
    · obtain ⟨f, hmem, hvar, hexit, harr⟩ := h.carried a ha
      have hexit := hexit.fuses hs hf fun hm => absurd hm hsrc
      have harr := arrives_fuses hs hf harr
      rw [Engine.Fuses.place_of_not_mem hsrc] at hexit
      rw [Engine.Fuses.place_of_not_mem hdst] at harr
      exact ⟨f, hmem, hvar, hexit, harr⟩
    · obtain ⟨harc, hsrc, hdst⟩ := hs.mem_inbound.1 he
      obtain ⟨f, hmem, hvar, hexit, harr⟩ := h.carried _ harc
      have hexit := hexit.fuses hs hf fun hm => absurd hm hsrc
      have harr := arrives_fuses hs hf harr
      rw [Edge.toArc, Engine.Fuses.place_of_not_mem hsrc] at hexit
      rw [Edge.toArc, Engine.Fuses.place_of_mem hdst] at harr
      exact ⟨f, hmem, hvar, hexit, harr⟩
    · obtain ⟨harc, hsrc, hdst⟩ := hs.mem_outbound.1 he
      obtain ⟨f, hmem, hvar, hexit, harr⟩ := h.carried _ harc
      have hexit := hexit.fuses hs hf fun hm =>
        hf.chain.last_of_outbound hs.wellFormed hm hdst (Digraph.hasArc_of_mem harc)
      have harr := arrives_fuses hs hf harr
      rw [Edge.toArc, Engine.Fuses.place_of_mem hsrc] at hexit
      rw [Edge.toArc, Engine.Fuses.place_of_not_mem hdst] at harr
      exact ⟨f, hmem, hvar, hexit, harr⟩

end Fuses

/-! ### Drops -/

section Drop

variable {name : String} {src : Edge}

/-- What has arrived at another node than the dropped one stays there. -/
lemma Grouped.arrives_dropped (h : Grouped o s) (hd : Dropped s name src t) {y b : String} (hb : b ≠ name)
    (harr : Arrives o.dag.Adj (Moved o s) y b) : Arrives o.dag.Adj (Moved o t) y b := by
  have hgone : ∀ {y}, Gone (Moved o s) y → Gone (Moved o t) y := fun hy => (h.gone_dropped hd).2 (.inl hy)
  rcases harr with hy | ⟨hy, z, hz, hzb⟩
  · exact .inl ((moved_dropped hd).2 ⟨hy, hb⟩)
  · exact .inr ⟨hgone hy, z, hz.mono hgone, (moved_dropped hd).2 ⟨hzb, hb⟩⟩

/-- What has arrived at a dropped node arrives at its consumers. -/
lemma Conveys.arrives_past (h : Conveys o s) (hd : Dropped s name src t) {k : String} (hk : k ≠ name)
    (hnk : s.dag.hasArc name k) {y : String} (harr : Arrives o.dag.Adj (Moved o s) y name) :
    Arrives o.dag.Adj (Moved o t) y k := by
  have hgone : ∀ {y}, Gone (Moved o s) y → Gone (Moved o t) y := fun hy => (h.gone_dropped hd).2 (.inl hy)
  have hpart : ∀ {y}, Moved o s y name → Gone (Moved o t) y := fun hy => (h.gone_dropped hd).2 (.inr hy)
  -- From a part of the dropped node there is a way to its exit and on to the consumer.
  have hway : ∀ {x}, Moved o s x name → ∃ z, Feeds o.dag.Adj (Moved o t) x z ∧ Moved o t z k := by
    intro x hx
    obtain ⟨w, hw, hpath⟩ := h.inward hx
    obtain ⟨z, hwz, hz⟩ := h.exists_feeds hnk hw
    refine ⟨z, feeds_of_inside (fun {y} hy => ?_) hpath (hwz.mono hgone), (moved_dropped hd).2 ⟨hz, hk⟩⟩
    rcases hy with ⟨a, ha, hy⟩ | hy
    · exact hpart (List.mem_singleton.1 ha ▸ hy)
    · exact hgone hy
  rcases harr with hy | ⟨hy, z, hz, hzn⟩
  · exact .inr ⟨hpart hy, hway hy⟩
  · obtain ⟨z', hz', hzk⟩ := hway hzn
    exact .inr ⟨hgone hy, z', (hz.mono hgone).trans (hpart hzn) hz', hzk⟩

/-- A drop hands on what the dropped node was given. -/
lemma Conveys.dropped (h : Conveys o s) (hs : Edited g (copy g none) s) (hdrop : s.Droppable name src)
    (hd : Dropped s name src t) : Conveys o t := by
  have hpass := hs.passable_of_droppable hdrop
  have hgone : ∀ {y}, Gone (Moved o s) y → Gone (Moved o t) y := fun hy => (h.gone_dropped hd).2 (.inl hy)
  have hself : ∀ {k}, s.dag.hasArc name k → k ≠ name := by
    rintro k hk rfl
    exact hs.tracks.acyclic k (.single hk)
  refine ⟨h.toGrouped.dropped hd hpass, h.plain, fun {y z z' c c'} hy hz hz' hc hc' => ?_,
    fun {x z a b} hxz ha hb hab => ?_, fun {x a} hx => ?_, fun a ha => ?_⟩
  · obtain ⟨hc, hne⟩ := (moved_dropped hd).1 hc
    obtain ⟨hc', hne'⟩ := (moved_dropped hd).1 hc'
    -- Only the producer of the dropped node feeds what was fed by it.
    have hdirect : ∀ {z c}, Feeds o.dag.Adj (Moved o s) z y → Moved o s z c → c ≠ name →
        (∀ e, Moved o s e name → ¬ Feeds o.dag.Adj (Moved o s) e y) ∨ c = src.src := by
      intro z c hz hc hne
      rcases (h.gone_dropped hd).1 hy with hy | hy
      · refine .inl fun e he hey => hne (h.sole hy hz hey hc he)
      · exact .inr (h.eq_source hpass hz hy hc hne)
    rcases h.feeds_dropped hd hz with hz | ⟨e, e', he, he', hze, hey⟩ <;>
      rcases h.feeds_dropped hd hz' with hz' | ⟨d, d', hd₁, hd', hzd, hdy⟩
    · rcases (h.gone_dropped hd).1 hy with hy | hy
      · exact h.sole hy hz hz' hc hc'
      · rw [h.eq_source hpass hz hy hc hne, h.eq_source hpass hz' hy hc' hne']
    · rcases hdirect hz hc hne with hno | rfl
      · exact absurd hdy (hno _ hd')
      · exact (h.eq_source hpass hzd hd₁ hc' hne').symm
    · rcases hdirect hz' hc' hne' with hno | rfl
      · exact absurd hey (hno _ he')
      · exact h.eq_source hpass hze he hc hne
    · rw [h.eq_source hpass hze he hc hne, h.eq_source hpass hzd hd₁ hc' hne']
  · obtain ⟨ha, hna⟩ := (moved_dropped hd).1 ha
    obtain ⟨hb, hnb⟩ := (moved_dropped hd).1 hb
    refine (Exit.dropped hd).2 ⟨?_, hna⟩
    rcases h.feeds_dropped hd hxz with hxz | ⟨e, e', he, he', hxe, -⟩
    · exact h.outward hxz ha hb hab
    · exact h.outward hxe ha he hna
  · obtain ⟨hx, hna⟩ := (moved_dropped hd).1 hx
    obtain ⟨w, hw, hpath⟩ := h.inward hx
    refine ⟨w, (Exit.dropped hd).2 ⟨hw, hna⟩, inside_mono (fun {y} hy => ?_) hpath⟩
    refine hy.imp (fun ⟨c, hc, hy⟩ => ⟨c, hc, (moved_dropped hd).2 ⟨hy, ?_⟩⟩) hgone
    rw [List.mem_singleton.1 hc]
    exact hna
  · rcases hd.arcs a ha with ⟨ha, hsrc, hdst⟩ | ⟨e, he, rfl⟩
    · obtain ⟨f, hmem, hvar, hexit, harr⟩ := h.carried a ha
      exact ⟨f, hmem, hvar, (Exit.dropped hd).2 ⟨hexit, hsrc⟩, h.arrives_dropped hd hdst harr⟩
    · obtain ⟨harc, hdst⟩ := hs.tracks.mem_inEdges.1 (hdrop.source ▸ List.mem_singleton_self src)
      obtain ⟨f, hmem, hvar, hexit, harr⟩ := h.carried _ harc
      obtain ⟨hout, hname⟩ := hs.tracks.mem_outEdges.1 he
      have hnk : s.dag.hasArc name e.dst := hname ▸ Digraph.hasArc_of_mem hout
      have hne : src.src ≠ name := fun heq => hself (heq ▸ (hpass.source _).2 rfl) rfl
      refine ⟨f, hmem, hvar, (Exit.dropped hd).2 ⟨hexit, hne⟩, h.arrives_past hd (hself hnk) hnk ?_⟩
      rw [← hdst]
      exact harr

end Drop

end Sandbox

namespace Network

end Network

end OpGraph
