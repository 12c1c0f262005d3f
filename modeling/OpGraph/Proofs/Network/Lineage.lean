import Mathlib
import OpGraph.Proofs.Network.Provenance

/-!
# Where edges go

While the engine runs, every node of the graph it started from becomes part of a node of the sandbox or is dropped. An
edge of the graph then stands for an edge of the sandbox: its consumer became part of the consumer, and its producer
became part of the producer or was dropped and fed by it only. The notes of the sandbox say of every edge one that
stands for it.
-/

namespace OpGraph

open Sandbox

/-! ### Ways past dropped nodes -/

section Ways

variable (joins moved : String → String → Prop)

/-- A node became part of no other. -/
def Gone (x : String) : Prop :=
  ∀ a, ¬ moved x a

/-- An edge leads from one node to another, perhaps past nodes that are gone. -/
inductive Feeds : String → String → Prop where
  | arc {z x : String} (h : joins z x) : Feeds z x
  | past {z y x : String} (h : Feeds z y) (hy : Gone moved y) (hyx : joins y x) : Feeds z x

/-- A node became part of the node `b`, or it is gone and fed a part of it. -/
def Arrives (y b : String) : Prop :=
  moved y b ∨ Gone moved y ∧ ∃ z, Feeds joins moved y z ∧ moved z b

/-- What a node gives is given by the node `a` now: it became part of it, or it is gone and was fed by it only. -/
def Leads (x a : String) : Prop :=
  moved x a ∨ Gone moved x ∧ ∀ {z c}, Feeds joins moved z x → moved z c → c = a

/-- An edge stands for an edge from `a` to `b` now. -/
structure StandsFor (x y a b : String) : Prop where
  arc : joins x y
  src : Leads joins moved x a
  dst : moved y b

variable {joins moved}

/-- Where more nodes are gone there are more ways. -/
lemma Feeds.mono {moved' : String → String → Prop} (hgone : ∀ {y}, Gone moved y → Gone moved' y) {z x : String}
    (h : Feeds joins moved z x) : Feeds joins moved' z x := by
  induction h with
  | arc h => exact .arc h
  | past _ hy hyx ih => exact .past ih (hgone hy) hyx

/-- Ways go on past a node that is gone. -/
lemma Feeds.trans {z y x : String} (h : Feeds joins moved z y) (hy : Gone moved y) (h' : Feeds joins moved y x) :
    Feeds joins moved z x := by
  induction h' with
  | arc hyx => exact .past h hy hyx
  | past _ hw hwx ih => exact .past ih hw hwx

/-- The producer of an edge became part of the producer it stands for, unless it is gone. -/
lemma StandsFor.moved_src {x y a b c : String} (h : StandsFor joins moved x y a b) (hx : moved x c) : moved x a :=
  h.src.resolve_right fun hgone => hgone.1 c hx

end Ways

/-! ### Tracing nodes and edges -/

namespace Sandbox

variable {g : Graph} {o s t : Sandbox}

/-- A node of `o` became part of a node of `s`. -/
def Moved (o s : Sandbox) (u a : String) : Prop :=
  ∃ x, o.Owns u x ∧ s.Owns a x

/-- An edge of `o` stands for an edge of `s`. -/
abbrev Stands (o s : Sandbox) : String → String → String → String → Prop :=
  StandsFor o.dag.Adj (Moved o s)

/-- Every node stands for some operator. -/
def Populated (s : Sandbox) : Prop :=
  ∀ c ∈ s.dag.keys, ∃ x, s.Owns c x

/-- The nodes of `o` are grouped to nodes of `s`: none became part of two, and an edge of `o` whose ends are in
different nodes has an edge there, also if it leads past nodes that are gone. -/
structure Grouped (o s : Sandbox) : Prop where
  exclusive : Exclusive s
  together : ∀ {u x y c}, o.Owns u x → o.Owns u y → s.Owns c x → s.Owns c y
  joined : ∀ {z x a b}, Feeds o.dag.Adj (Moved o s) z x → Moved o s z a → Moved o s x b → a ≠ b →
    s.dag.hasArc a b

/-- What became of the nodes and edges of `o`. A node that is still there became part of itself, and where an edge is
noted to be it stands for the edge that is there. -/
structure Traced (o s : Sandbox) : Prop extends Grouped o s where
  untouched : ∀ {u x}, u ∈ s.dag.keys → o.Owns u x → s.Owns u x
  noted : ∀ {x y a b}, o.dag.hasArc x y → s.renamed.get? (EdgeId.arc x y) = some (EdgeId.arc a b) → a ∈ s.dag.keys →
    b ∈ s.dag.keys → Stands o s x y a b

/-- The producer of an edge of a copy has no arrow in its name. -/
lemma Edited.arrowFree_copy (h : Edited g (Sandbox.copy g none) s) {x y : String}
    (hxy : (Sandbox.copy g none).dag.hasArc x y) : ArrowFree x :=
  h.copied.regular.arrowFree x (h.copied.mem_keys (Digraph.hasVertex_iff.1 (h.copied.wellFormed.hasVertex_src hxy)))

namespace Grouped

/-- A node becomes part of one node only. -/
lemma moved_unique (h : Grouped o s) {u a b : String} (ha : Moved o s u a) (hb : Moved o s u b) : a = b := by
  obtain ⟨x, hux, hax⟩ := ha
  obtain ⟨y, huy, hby⟩ := hb
  exact h.exclusive (h.together hux huy hax) hby

/-- At first every node is a group of its own. -/
lemma refl (hp : Populated o) (hex : Exclusive o) (wf : o.dag.WellFormed) : Grouped o o := by
  have heq : ∀ {u a}, Moved o o u a → u = a := by
    rintro u a ⟨x, hu, ha⟩
    exact hex hu ha
  have hself : ∀ {x y}, o.dag.hasArc x y → Moved o o x x := by
    intro x y hxy
    obtain ⟨z, hz⟩ := hp x (Digraph.hasVertex_iff.1 (wf.hasVertex_src hxy))
    exact ⟨z, hz, hz⟩
  refine ⟨hex, fun hx hy hc => hex hx hc ▸ hy, fun hf hz hx _ => ?_⟩
  cases hf with
  | arc h => exact heq hz ▸ heq hx ▸ h
  | past _ hy hyx => exact absurd (hself hyx) (hy _)

end Grouped

namespace Traced

/-- At first nothing has become of anything. -/
lemma refl (hp : Populated o) (hex : Exclusive o) (wf : o.dag.WellFormed) (hr : ∀ b, o.renamed.get? b = none) :
    Traced o o := by
  refine ⟨.refl hp hex wf, fun _ hu => hu, fun _ hren => ?_⟩
  rw [hr] at hren
  cases hren

/-- A node that is still there became part of itself. -/
lemma moved_self (h : Traced o s) (hp : Populated o) {k : String} (hk : k ∈ o.dag.keys) (hks : k ∈ s.dag.keys) :
    Moved o s k k := by
  obtain ⟨x, hx⟩ := hp k hk
  exact ⟨x, hx, h.untouched hks hx⟩

/-- An edge of the sandbox is called after an edge that stands for it. -/
lemma exists_baseId (h : Traced (copy g none) s) (hs : Edited g (copy g none) s)
    (hp : Populated (copy g none)) {e : Edge} (he : s.dag.hasArc e.src e.dst) :
    ∃ x y, s.baseId e = EdgeId.arc x y ∧ Stands (copy g none) s x y e.src e.dst := by
  have wf := hs.tracks.wellFormed
  have hsrc := Digraph.hasVertex_iff.1 (wf.hasVertex_src he)
  have hdst := Digraph.hasVertex_iff.1 (wf.hasVertex_dst he)
  cases horigin : s.origin.get? e.id with
  | none =>
    have hbase : g.dag.hasArc e.src e.dst := by
      by_contra hno
      obtain ⟨b, hb⟩ := Dict.contains_iff.1 (hs.settled.renames.fresh he hno)
      rw [Edge.id, hb] at horigin
      cases horigin
    have harc := (Network.hasArc_copy hs.copied.regular.dag).2 hbase
    have hwf := hs.copied.wellFormed
    refine ⟨e.src, e.dst, Dict.getD_of_none horigin, harc, .inl (h.moved_self hp ?_ hsrc), h.moved_self hp ?_ hdst⟩
    · exact Digraph.hasVertex_iff.1 (hwf.hasVertex_src harc)
    · exact Digraph.hasVertex_iff.1 (hwf.hasVertex_dst harc)
  | some b =>
    have hren := hs.settled.renames.origin horigin
    obtain ⟨a, ha, -, rfl⟩ := (hs.tracks.removedEdges _).1 (hs.settled.renames.renamed_removed hren)
    exact ⟨a.src, a.dst, Dict.getD_of_some horigin, h.noted (Digraph.hasArc_of_mem ha) hren hsrc hdst⟩

end Traced

/-! ### Merges -/

section Fuses

variable {p : Pattern} {members : List String} {n : Node}

/-- A merge moves what is part of its members to the fused node. -/
lemma moved_fuses (hs : Tracks g (copy g none) s) (hf : Engine.Fuses s p members n t) {u a : String} :
    Moved o t u a ↔ ∃ a', Moved o s u a' ∧ Engine.Fuses.place members n.name a' = a := by
  constructor
  · rintro ⟨x, hu, ha⟩
    obtain ⟨a', ha', hplace⟩ := (owns_fuses hs hf).1 ha
    exact ⟨a', ⟨x, hu, ha'⟩, hplace⟩
  · rintro ⟨a', ⟨x, hu, ha'⟩, hplace⟩
    exact ⟨x, hu, (owns_fuses hs hf).2 ⟨a', ha', hplace⟩⟩

/-- What is part of another node than the fused one was so before. -/
lemma moved_of_fuses (hs : Tracks g (copy g none) s) (hf : Engine.Fuses s p members n t) {u a : String}
    (h : Moved o t u a) (hne : a ≠ n.name) : Moved o s u a ∧ a ∉ members := by
  obtain ⟨a', ha, hplace⟩ := (moved_fuses hs hf).1 h
  obtain ⟨rfl, hmem⟩ := Engine.Fuses.eq_of_place_ne hplace hne
  exact ⟨ha, hmem⟩

/-- A merge drops nothing. -/
lemma gone_fuses (hs : Tracks g (copy g none) s) (hf : Engine.Fuses s p members n t) {u : String} :
    Gone (Moved o t) u ↔ Gone (Moved o s) u := by
  constructor
  · exact fun h a ha => h _ ((moved_fuses hs hf).2 ⟨a, ha, rfl⟩)
  · intro h a ha
    obtain ⟨a', ha', -⟩ := (moved_fuses hs hf).1 ha
    exact h a' ha'

/-- A way after a merge is one from before. -/
lemma feeds_fuses (hs : Tracks g (copy g none) s) (hf : Engine.Fuses s p members n t)
    {joins : String → String → Prop} {z x : String} (h : Feeds joins (Moved o t) z x) : Feeds joins (Moved o s) z x :=
  h.mono (gone_fuses hs hf).1

/-- What an edge stands for is moved with the nodes. -/
lemma stands_fuses (hs : Tracks g (copy g none) s) (hf : Engine.Fuses s p members n t) {x y a b : String}
    (h : Stands o s x y a b) :
    Stands o t x y (Engine.Fuses.place members n.name a) (Engine.Fuses.place members n.name b) := by
  refine ⟨h.arc, ?_, (moved_fuses hs hf).2 ⟨b, h.dst, rfl⟩⟩
  rcases h.src with ha | ⟨hgone, hall⟩
  · exact .inl ((moved_fuses hs hf).2 ⟨a, ha, rfl⟩)
  · refine .inr ⟨(gone_fuses hs hf).2 hgone, fun hz hc => ?_⟩
    obtain ⟨c', hc', rfl⟩ := (moved_fuses hs hf).1 hc
    rw [hall (feeds_fuses hs hf hz) hc']

/-- The edges across the border of the members are moved to where their ends are. -/
lemma place_crossing (hs : Tracks g o s) {m : Edge × Edge} (hm : m ∈ s.crossings members n) :
    m.2.src = Engine.Fuses.place members n.name m.1.src ∧ m.2.dst = Engine.Fuses.place members n.name m.1.dst := by
  rcases mem_crossings.1 hm with ⟨e, he, rfl⟩ | ⟨e, he, rfl⟩
  · obtain ⟨-, hsrc, hdst⟩ := hs.mem_inbound.1 he
    exact ⟨(Engine.Fuses.place_of_not_mem hsrc).symm, (Engine.Fuses.place_of_mem hdst).symm⟩
  · obtain ⟨-, hsrc, hdst⟩ := hs.mem_outbound.1 he
    exact ⟨(Engine.Fuses.place_of_mem hsrc).symm, (Engine.Fuses.place_of_not_mem hdst).symm⟩

/-- What an edge that is moved is called stands for the edge in the new place. -/
lemma Traced.exists_baseId_crossing (h : Traced (copy g none) s) (hs : Edited g (copy g none) s)
    (hp : Populated (copy g none)) (hf : Engine.Fuses s p members n t) {m : Edge × Edge}
    (hm : m ∈ s.crossings members n) :
    ∃ x y, s.baseId m.1 = EdgeId.arc x y ∧ Stands (copy g none) t x y m.2.src m.2.dst := by
  obtain ⟨x, y, hbase, hst⟩ := h.exists_baseId hs hp (hs.hasArc_crossing hm)
  obtain ⟨hsrc, hdst⟩ := @place_crossing _ _ _ members n hs.tracks _ hm
  exact ⟨x, y, hbase, hsrc ▸ hdst ▸ stands_fuses hs.tracks hf hst⟩

/-- After a merge the notes on moved edges name edges that these stand for. -/
lemma Traced.noted_fuses (h : Traced (copy g none) s) (hs : Edited g (copy g none) s)
    (ht : Edited g (copy g none) t) (hp : Populated (copy g none)) (hf : Engine.Fuses s p members n t)
    {x y a b : String} (hxy : (copy g none).dag.hasArc x y)
    (hren : t.renamed.get? (EdgeId.arc x y) = some (EdgeId.arc a b)) (ha : a ∈ t.dag.keys) (hb : b ∈ t.dag.keys) :
    Stands (copy g none) t x y a b := by
  have haa := ht.tracks.arrowFree_live ha
  rcases hf.merged.renamed hren with hren | ⟨m, hm, hbase, hid⟩
  · -- The note is an older one, so it names nodes that are not fused here.
    obtain ⟨a', b', he, ha', hb', -⟩ := hs.settled.renames.renamed_place hren
    obtain ⟨rfl, rfl⟩ := (EdgeId.arc_inj haa (hs.tracks.arrowFree _ ha')).1 he
    obtain ⟨has, hma⟩ := (hf.mem_keys.1 ha).resolve_left fun hn => hf.contractible.free (hn ▸ ha')
    obtain ⟨hbs, hmb⟩ := (hf.mem_keys.1 hb).resolve_left fun hn => hf.contractible.free (hn ▸ hb')
    have hst := stands_fuses hs.tracks hf (h.noted hxy hren has hbs)
    rwa [Engine.Fuses.place_of_not_mem hma, Engine.Fuses.place_of_not_mem hmb] at hst
  · have haf : ArrowFree n.name := ht.tracks.arrowFree_live (hf.mem_keys.2 (.inl rfl))
    obtain ⟨x', y', hbase', hst⟩ := h.exists_baseId_crossing hs hp hf hm
    obtain ⟨rfl, rfl⟩ :=
      (EdgeId.arc_inj (hs.arrowFree_copy hxy) (hs.arrowFree_copy hst.arc)).1 (hbase.symm.trans hbase')
    obtain ⟨rfl, rfl⟩ := (EdgeId.arc_inj (hs.arrowFree_crossing haf hm) haa).1 hid
    exact hst

/-- A merge puts groups together. -/
lemma Grouped.fuses (h : Grouped o s) (hs : Tracks g (copy g none) s) (hf : Engine.Fuses s p members n t) :
    Grouped o t := by
  have hown := @owns_fuses _ _ _ _ _ _ _ hs hf
  have hmoved := fun {u a} => @moved_fuses _ o _ _ _ _ _ hs hf u a
  refine ⟨fun hc hc' => ?_, fun hx hy hc => ?_, fun hz ha hb hab => ?_⟩
  · obtain ⟨d, hd, rfl⟩ := hown.1 hc
    obtain ⟨d', hd', rfl⟩ := hown.1 hc'
    rw [h.exclusive hd hd']
  · obtain ⟨d, hd, rfl⟩ := hown.1 hc
    exact hown.2 ⟨d, h.together hx hy hd, rfl⟩
  · obtain ⟨a', ha', rfl⟩ := hmoved.1 ha
    obtain ⟨b', hb', rfl⟩ := hmoved.1 hb
    have hne : a' ≠ b' := fun he => hab (congrArg _ he)
    exact hf.hasArc_place (h.joined (feeds_fuses hs hf hz) ha' hb' hne) (Engine.Fuses.not_both hab)

/-- A merge leaves the nodes away from it what they are, and its notes name what edges stand for. -/
lemma Traced.fuses (h : Traced (copy g none) s) (hs : Edited g (copy g none) s)
    (ht : Edited g (copy g none) t) (hp : Populated (copy g none)) (hf : Engine.Fuses s p members n t) :
    Traced (copy g none) t := by
  refine ⟨h.toGrouped.fuses hs.tracks hf, fun {u x} hu hx => ?_, h.noted_fuses hs ht hp hf⟩
  obtain ⟨hus, hmem⟩ := (hf.mem_keys.1 hu).resolve_left fun hn =>
    hf.contractible.free (hs.tracks.taken _ (hs.copied.mem_keys (hn ▸ hx.1)))
  exact (owns_fuses hs.tracks hf).2 ⟨u, h.untouched hus hx, Engine.Fuses.place_of_not_mem hmem⟩

end Fuses

/-! ### Drops -/

section Drop

variable {name : String} {src : Edge}

/-- A drop leaves what is part of other nodes. -/
lemma moved_dropped (hd : Dropped s name src t) {u a : String} : Moved o t u a ↔ Moved o s u a ∧ a ≠ name := by
  constructor
  · rintro ⟨x, hu, ha⟩
    obtain ⟨ha, hne⟩ := (owns_dropped hd).1 ha
    exact ⟨⟨x, hu, ha⟩, hne⟩
  · rintro ⟨⟨x, hu, ha⟩, hne⟩
    exact ⟨x, hu, (owns_dropped hd).2 ⟨ha, hne⟩⟩

/-- What became part of a node that is dropped is gone. -/
lemma Grouped.gone_dropped (h : Grouped o s) (hd : Dropped s name src t) {u : String} :
    Gone (Moved o t) u ↔ Gone (Moved o s) u ∨ Moved o s u name := by
  constructor
  · intro hgone
    by_cases hu : Moved o s u name
    · exact .inr hu
    · exact .inl fun a ha => hgone a ((moved_dropped hd).2 ⟨ha, fun he => hu (he ▸ ha)⟩)
  · rintro (hgone | hu) a ha
    · exact hgone a ((moved_dropped hd).1 ha).1
    · obtain ⟨ha, hne⟩ := (moved_dropped hd).1 ha
      exact hne (h.moved_unique ha hu)

/-- A way after a drop is one from before, or it leads past the dropped node. -/
lemma Grouped.feeds_dropped (h : Grouped o s) (hd : Dropped s name src t) {joins : String → String → Prop}
    {z x : String} (hf : Feeds joins (Moved o t) z x) :
    Feeds joins (Moved o s) z x ∨
      ∃ e e', Moved o s e name ∧ Moved o s e' name ∧ Feeds joins (Moved o s) z e ∧ Feeds joins (Moved o s) e' x := by
  induction hf with
  | arc hzx => exact .inl (.arc hzx)
  | @past y x _ hy hyx ih =>
    rcases h.gone_dropped hd |>.1 hy with hy | hy
    · rcases ih with hzy | ⟨e, e', he, he', hze, hey⟩
      · exact .inl (.past hzy hy hyx)
      · exact .inr ⟨e, e', he, he', hze, .past hey hy hyx⟩
    · rcases ih with hzy | ⟨e, e', he, -, hze, -⟩
      · exact .inr ⟨y, y, hy, hy, hzy, .arc hyx⟩
      · exact .inr ⟨e, y, he, hy, hze, .arc hyx⟩

section Passable

variable (h : Grouped o s) (hd : Dropped s name src t) (hpass : s.Passable name src.src)

include h hpass in
/-- What feeds the dropped node is part of its producer. -/
lemma Grouped.eq_source {z e c : String} (hf : Feeds o.dag.Adj (Moved o s) z e)
    (he : Moved o s e name) (hc : Moved o s z c) (hne : c ≠ name) : c = src.src :=
  (hpass.source c).1 (h.joined hf hc he hne)

include h hd in
/-- An edge that stands for an edge from another node than the dropped one still does. -/
lemma Grouped.stands_dropped {x y a b : String} (hst : Stands o s x y a b) (ha : a ≠ name) (hb : b ≠ name) :
    Stands o t x y a b := by
  refine ⟨hst.arc, ?_, (moved_dropped hd).2 ⟨hst.dst, hb⟩⟩
  rcases hst.src with hx | ⟨hgone, hall⟩
  · exact .inl ((moved_dropped hd).2 ⟨hx, ha⟩)
  · refine .inr ⟨(h.gone_dropped hd).2 (.inl hgone), fun hz hc => ?_⟩
    rcases h.feeds_dropped hd hz with hz | ⟨e, e', -, he', -, hx⟩
    · exact hall hz ((moved_dropped hd).1 hc).1
    · exact absurd (hall hx he').symm ha

include h hd hpass in
/-- An edge that stands for an edge out of the dropped node stands for the one past it. -/
lemma Grouped.stands_past {x y b : String} (hst : Stands o s x y name b) (hb : b ≠ name) :
    Stands o t x y src.src b := by
  have hgone : Gone (Moved o t) x := (h.gone_dropped hd).2 (hst.src.symm.imp_left And.left)
  refine ⟨hst.arc, .inr ⟨hgone, fun {z c} hz hc => ?_⟩, (moved_dropped hd).2 ⟨hst.dst, hb⟩⟩
  obtain ⟨hc, hne⟩ := (moved_dropped hd).1 hc
  rcases h.feeds_dropped hd hz with hz | ⟨e, e', he, -, hz, -⟩
  · rcases hst.src with hx | ⟨-, hall⟩
    · exact h.eq_source hpass hz hx hc hne
    · exact absurd (hall hz hc) hne
  · exact h.eq_source hpass hz he hc hne

include h hd hpass in
/-- A drop leaves the other groups as they are. -/
lemma Grouped.dropped : Grouped o t := by
  have hmoved := fun {u a} => @moved_dropped o _ _ _ _ hd u a
  refine ⟨fun hc hc' => h.exclusive ((owns_dropped hd).1 hc).1 ((owns_dropped hd).1 hc').1, fun hx hy hc => ?_,
    fun {z x a b} hz ha hb hab => ?_⟩
  · obtain ⟨hc, hne⟩ := (owns_dropped hd).1 hc
    exact (owns_dropped hd).2 ⟨h.together hx hy hc, hne⟩
  · obtain ⟨ha, hna⟩ := hmoved.1 ha
    obtain ⟨hb, hnb⟩ := hmoved.1 hb
    rcases h.feeds_dropped hd hz with hz | ⟨e, e', he, he', hze, hex⟩
    · exact hd.hasArc.2 (.inl ⟨h.joined hz ha hb hab, hna, hnb⟩)
    · rw [h.eq_source hpass hze he ha hna]
      exact hd.hasArc.2 (.inr ⟨rfl, h.joined hex he' hb (Ne.symm hnb)⟩)

end Passable

/-- A drop leaves the other nodes what they are, and its notes name what edges stand for. -/
lemma Traced.dropped (h : Traced (copy g none) s) (hs : Edited g (copy g none) s)
    (ht : Edited g (copy g none) t) (hp : Populated (copy g none)) (hdrop : s.Droppable name src)
    (hd : Dropped s name src t) : Traced (copy g none) t := by
  have hpass := hs.passable_of_droppable hdrop
  refine ⟨h.toGrouped.dropped hd hpass, fun hu hx => ?_, fun {x y a b} hxy hren ha hb => ?_⟩
  · obtain ⟨hu, hne⟩ := hd.mem_keys.1 hu
    exact (owns_dropped hd).2 ⟨h.untouched hu hx, hne⟩
  · obtain ⟨has, hna⟩ := hd.mem_keys.1 ha
    obtain ⟨hbs, hnb⟩ := hd.mem_keys.1 hb
    rcases hd.renamed hren with hren | ⟨e, he, hbase, hid⟩
    · exact h.stands_dropped hd (h.noted hxy hren has hbs) hna hnb
    · obtain ⟨hmem, hsrc⟩ := hs.tracks.mem_outEdges.1 he
      obtain ⟨x', y', hbase', hst⟩ := h.exists_baseId hs hp (Digraph.hasArc_of_mem hmem)
      have haf : ArrowFree src.src :=
        hs.tracks.arrowFree_live (Digraph.hasVertex_iff.1 (hs.tracks.wellFormed.hasVertex_src ((hpass.source _).2 rfl)))
      obtain ⟨rfl, rfl⟩ :=
        (EdgeId.arc_inj (hs.arrowFree_copy hxy) (hs.arrowFree_copy hst.arc)).1 (hbase.symm.trans hbase')
      obtain ⟨rfl, rfl⟩ := (EdgeId.arc_inj haf (ht.tracks.arrowFree_live ha)).1 hid
      exact h.stands_past hd hpass (hsrc ▸ hst) hnb

end Drop

end Sandbox

end OpGraph
