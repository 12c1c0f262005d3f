import Mathlib
import OpGraph.Proofs.Network.Lineage

/-!
# Which edge comes first

When nodes are merged, edges from one producer to several of them become one edge, and this edge is called after the one
to the earliest member. Of the others it is only noted where they went to, and this note is not renewed when the edge is
moved again. So what became of an edge is known from the merges of a run in which it was not the first one.
-/

namespace OpGraph

open Sandbox

namespace Sandbox

variable {g : Graph} {o s t : Sandbox} {trace : List (Sandbox × Edit)}

/-- When `members` are merged, the edge from `u` to `v` is not the first one: the node `p` outside that `u` is part of
leads to the member that `v` is part of, and to an earlier one. -/
def Yields (o s : Sandbox) (members : List String) (u v p : String) : Prop :=
  ∃ before c after, members = before ++ c :: after ∧ Moved o s u p ∧ p ∉ members ∧ Moved o s v c ∧
    ∃ k ∈ before, s.dag.hasArc p k

/-- In one of the merges of a sequence of edits the edge from `u` to `v` was not the first one, and became part of the
edge from `p` to the node `f`. -/
def Outranked (o : Sandbox) (trace : List (Sandbox × Edit)) (u v p f : String) : Prop :=
  ∃ s members type pattern, (s, Edit.merge members f type pattern) ∈ trace ∧ Yields o s members u v p

/-- In all merges of a sequence of edits the edge from `u` to `v` was the first one, perhaps but for the one that made
the edge from `a` to `b`. -/
def Survives (o : Sandbox) (trace : List (Sandbox × Edit)) (u v a b : String) : Prop :=
  ∀ {p f}, Outranked o trace u v p f → p = a ∧ f = b

/-- One more edit outranks an edge if it is a merge in which the edge is not the first one. -/
lemma outranked_append {st : Sandbox × Edit} {u v p f : String} :
    Outranked o (trace ++ [st]) u v p f ↔ Outranked o trace u v p f ∨
      ∃ members type pattern, st.2 = .merge members f type pattern ∧ Yields o st.1 members u v p := by
  simp only [Outranked, List.mem_append, List.mem_singleton]
  constructor
  · rintro ⟨s, members, type, pattern, hmem | rfl, hy⟩
    · exact .inl ⟨s, members, type, pattern, hmem, hy⟩
    · exact .inr ⟨members, type, pattern, rfl, hy⟩
  · rintro (⟨s, members, type, pattern, hmem, hy⟩ | ⟨members, type, pattern, hst, hy⟩)
    · exact ⟨s, members, type, pattern, .inl hmem, hy⟩
    · exact ⟨st.1, members, type, pattern, .inr (Prod.ext rfl hst.symm), hy⟩

/-- One more merge outranks an edge if the edge is not the first one in it. -/
lemma outranked_merge {members : List String} {name type pattern u v p f : String} :
    Outranked o (trace ++ [(s, .merge members name type pattern)]) u v p f ↔
      Outranked o trace u v p f ∨ f = name ∧ Yields o s members u v p := by
  rw [outranked_append]
  refine or_congr_right ⟨?_, ?_⟩
  · rintro ⟨_, _, _, he, hy⟩
    cases he
    exact ⟨rfl, hy⟩
  · rintro ⟨rfl, hy⟩
    exact ⟨_, _, _, rfl, hy⟩

/-- A drop outranks no edge. -/
lemma outranked_drop {name u v p f : String} :
    Outranked o (trace ++ [(s, .drop name)]) u v p f ↔ Outranked o trace u v p f := by
  rw [outranked_append, or_iff_left]
  rintro ⟨_, _, _, he, -⟩
  cases he

/-- What a sandbox knows of the edge from `x` to `y` after a sequence of edits. An edge is called after it exactly if it
was the first one in all merges. Otherwise it is noted where it went to in the first merge in which it was not. -/
structure Ranked (o : Sandbox) (trace : List (Sandbox × Edit)) (s : Sandbox) (x y : String) : Prop where
  placed : ∀ {p f}, Outranked o trace x y p f → s.taken.contains p ∧ s.taken.contains f
  first : ∀ c ∈ s.dag.arcs, s.baseId c.val = .arc x y → ∀ {p f}, ¬ Outranked o trace x y p f
  called : (∀ {p f}, ¬ Outranked o trace x y p f) → ∀ c ∈ s.dag.arcs, Moved o s x c.src → Moved o s y c.dst →
    s.baseId c.val = .arc x y
  settled : ∀ {a b}, s.renamed.get? (EdgeId.arc x y) = some (EdgeId.arc a b) → a ∈ s.dag.keys → b ∈ s.dag.keys →
    Survives o trace x y a b
  kept : ∀ {p f a b}, Outranked o trace x y p f → Survives o trace x y a b → s.dag.hasArc a b → Moved o s x a →
    Moved o s y b → s.renamed.get? (EdgeId.arc x y) = some (EdgeId.arc a b)

/-- Of the edges into members of a merge, the first one that has its place at the fused node leads to a member before
any other that its producer leads to. -/
lemma Leading.dst_mem (hs : Roster g o s) {before after : List String} {n : Node} {m : Edge × Edge}
    (h : Leading (s.crossings (before ++ after) n) m) {p k : String} (hid : m.2.id = .arc p n.name) (hk : k ∈ before)
    (hpk : s.dag.hasArc p k) (hp : p ∉ before ++ after) : m.1.dst ∈ before := by
  obtain ⟨a, ha, rfl, rfl⟩ := Digraph.hasArc_iff.1 hpk
  have hmem : a.val ∈ before.flatMap fun name => (s.inEdges name).filter fun e =>
    !(before ++ after).contains e.src := by
    refine List.mem_flatMap.2 ⟨a.dst, hk, List.mem_filter.2 ⟨hs.mem_inEdges.2 ⟨?_, (hs.payload a ha).2⟩, ?_⟩⟩
    · rwa [hs.toArc_val ha]
    · rw [(hs.payload a ha).1, List.contains_eq_mem, Bool.not_eq_true', decide_eq_false_iff_not]
      exact hp
  have hplace : (movedIn n a.val).id == m.2.id := by
    rw [hid, beq_iff_eq]
    exact congrArg (EdgeId.arc · n.name) (hs.payload a ha).1
  have hfound := (List.find?_isSome (p := fun m' : Edge × Edge => m'.2.id == m.2.id)).2
    ⟨_, List.mem_map_of_mem (f := fun e => (e, movedIn n e)) hmem, hplace⟩
  obtain ⟨m', hm'⟩ := Option.isSome_iff_exists.1 hfound
  rw [Leading, crossings, inbound, List.flatMap_append, List.map_append, List.append_assoc, List.find?_append, hm',
    Option.some_or] at h
  cases h
  obtain ⟨e, he, rfl⟩ := List.mem_map.1 (List.mem_of_find?_eq_some hm')
  obtain ⟨name, hname, he⟩ := List.mem_flatMap.1 he
  exact (hs.mem_inEdges.1 (List.mem_filter.1 he).1).2 ▸ hname

/-- An edge stands for the edge that is called after it. -/
lemma Traced.stands_of_baseId (h : Traced (copy g none) s) (hs : Edited g (copy g none) s)
    (hp : Populated (copy g none)) {e : Edge} (he : s.dag.hasArc e.src e.dst) {x y : String}
    (hxy : (copy g none).dag.hasArc x y) (hbase : s.baseId e = .arc x y) :
    Stands (copy g none) s x y e.src e.dst := by
  obtain ⟨x', y', hbase', hst⟩ := h.exists_baseId hs hp he
  obtain ⟨rfl, rfl⟩ := (EdgeId.arc_inj (hs.arrowFree_copy hxy) (hs.arrowFree_copy hst.arc)).1 (hbase.symm.trans hbase')
  exact hst

section Merge

variable {pat : Pattern} {members : List String} {n : Node} {x y : String}

/-- The edge that yields stands for an edge into a member. -/
lemma Yields.of_stands {p a c : String} (h : Yields o s members x y p) (hg : Grouped o s) (hst : Stands o s x y a c) :
    a = p ∧ c ∈ members := by
  obtain ⟨before, c', after, rfl, hx, -, hy, -⟩ := h
  obtain rfl := hg.moved_unique hst.dst hy
  exact ⟨hg.moved_unique (hst.moved_src hx) hx, by simp⟩

/-- No edge is called after an edge that yields when it is moved. -/
lemma Yields.not_leading {p : String} (h : Yields o s members x y p) (hg : Grouped o s) {o' : Sandbox}
    (hs : Roster g o' s) (hnodup : members.Nodup) {m : Edge × Edge} (hst : Stands o s x y m.1.src m.1.dst) :
    ¬ Leading (s.crossings members n) m := by
  intro hlead
  obtain ⟨rfl, -⟩ := h.of_stands hg hst
  obtain ⟨before, c, after, rfl, -, hp, hy, k, hk, hpk⟩ := h
  obtain rfl := hg.moved_unique hst.dst hy
  have hid : m.2.id = .arc m.1.src n.name := by
    rcases mem_crossings.1 hlead.mem with ⟨e, -, rfl⟩ | ⟨e, he, rfl⟩
    · rfl
    · exact absurd (hs.mem_outbound.1 he).2.1 hp
  have hbefore := hlead.dst_mem hs hid hk hpk hp
  exact (List.nodup_append.1 hnodup).2.2 _ hbefore _ List.mem_cons_self rfl

/-- If an edge does not yield, the edge in its new place is called after the one that it stood for. -/
lemma moved_of_leading (hs : Tracks g (copy g none) s) (hg : Grouped o s) (hxy : o.dag.hasArc x y)
    (hf : Engine.Fuses s pat members n t) (hno : ∀ {p}, ¬ Yields o s members x y p) {m : Edge × Edge}
    (hlead : Leading (s.crossings members n) m) (hx : Moved o t x m.2.src) (hy : Moved o t y m.2.dst) :
    Moved o s x m.1.src ∧ Moved o s y m.1.dst := by
  have hlive : ∀ {k}, k ∈ s.dag.keys → k ≠ n.name := by
    rintro k hk rfl
    exact hf.name_fresh hs hk
  rcases mem_crossings.1 hlead.mem with ⟨e, he, rfl⟩ | ⟨e, he, rfl⟩
  · obtain ⟨harc, hout, -⟩ := hs.mem_inbound.1 he
    obtain ⟨hx, -⟩ := moved_of_fuses hs hf hx (hlive (hs.wellFormed.src_mem _ harc))
    obtain ⟨b, hb, hplace⟩ := (moved_fuses hs hf).1 hy
    have hmem : b ∈ members := by
      by_contra hmem
      rw [Engine.Fuses.place_of_not_mem hmem] at hplace
      obtain ⟨z, -, hz⟩ := hb
      exact hlive hz.1 hplace
    have hjoined : s.dag.hasArc e.src b := hg.joined (.arc hxy) hx hb fun he => hout (he ▸ hmem)
    -- The first member that the producer leads to is not before this one, so it is this one.
    obtain ⟨before, after, rfl⟩ := List.append_of_mem hmem
    refine ⟨hx, ?_⟩
    have hdst : e.dst ∈ before ++ [b] := by
      rw [List.append_cons] at hlead hout
      exact hlead.dst_mem hs.toRoster rfl (by simp) hjoined hout
    rcases List.mem_append.1 hdst with hdst | hdst
    · exact absurd ⟨before, b, after, rfl, hx, hout, hb, e.dst, hdst, Digraph.hasArc_of_mem harc⟩ hno
    · exact List.mem_singleton.1 hdst ▸ hb
  · obtain ⟨harc, hin, hout⟩ := hs.mem_outbound.1 he
    obtain ⟨hy, -⟩ := moved_of_fuses hs hf hy (hlive (hs.wellFormed.dst_mem _ harc))
    obtain ⟨a, ha, hplace⟩ := (moved_fuses hs hf).1 hx
    have hne : a ≠ e.dst := by
      rintro rfl
      rw [Engine.Fuses.place_of_not_mem hout] at hplace
      exact hlive (hs.wellFormed.dst_mem _ harc) hplace
    have hjoined := hg.joined (.arc hxy) ha hy hne
    obtain rfl : a = e.src := hf.place_inj hs hout hjoined (Digraph.hasArc_of_mem harc)
      (hplace.trans (Engine.Fuses.place_of_mem hin).symm)
    exact ⟨ha, hy⟩

end Merge

namespace Ranked

variable {x y : String}

/-- At first every edge is called after itself. -/
lemma refl (hs : Tracks g o o) (hex : Exclusive o) (ho : ∀ id, o.origin.get? id = none)
    (hr : ∀ b, o.renamed.get? b = none) : Ranked o [] o x y := by
  have hnone : ∀ {p f}, ¬ Outranked o [] x y p f := by
    rintro p f ⟨s, members, type, pattern, hmem, -⟩
    cases hmem
  refine ⟨fun h => absurd h hnone, fun _ _ _ => hnone, fun _ c hmem hx hy => ?_, fun h => ?_, fun h => absurd h hnone⟩
  · obtain ⟨z, hz, hz'⟩ := hx
    obtain ⟨w, hw, hw'⟩ := hy
    obtain rfl := hex hz hz'
    obtain rfl := hex hw hw'
    rw [baseId, Dict.getD_of_none (ho _)]
    exact hs.id_of_mem hmem
  · rw [hr] at h
    cases h

/-- An edge that is called after this one was never outranked. -/
lemma first_of_hasArc (h : Ranked o trace s x y) (hs : Tracks g o s) {e : Edge} (he : s.dag.hasArc e.src e.dst)
    (hbase : s.baseId e = .arc x y) {p f : String} : ¬ Outranked o trace x y p f := by
  obtain ⟨a, ha, hsrc, hdst⟩ := Digraph.hasArc_iff.1 he
  refine h.first a ha (Eq.trans ?_ hbase)
  rw [baseId, baseId, hs.id_of_mem ha, hsrc, hdst]
  rfl

section Fuses

variable {pat : Pattern} {members : List String} {n : Node} {type pattern : String}

variable (h : Ranked (copy g none) trace s x y) (htr : Traced (copy g none) s)
  (hs : Edited g (copy g none) s) (ht : Edited g (copy g none) t) (hp : Populated (copy g none))
  (hxy : (copy g none).dag.hasArc x y) (hf : Engine.Fuses s pat members n t)

include h htr hs ht hp hxy hf in
/-- What an edge is called after when it was moved has not been outranked. -/
lemma first_fuses {c : Arc Edge} (hc : c ∈ t.dag.arcs) (hbase : t.baseId c.val = .arc x y) {p f : String} :
    ¬ Outranked (copy g none) (trace ++ [(s, .merge members n.name type pattern)]) x y p f := by
  intro hout
  rcases hf.merged.called c hc with ⟨hcs, hbase'⟩ | ⟨m, hlead, -, rfl, hbase'⟩
  · have hbase := hbase'.symm.trans hbase
    rcases outranked_merge.1 hout with hout | ⟨-, hyield⟩
    · exact h.first c hcs hbase hout
    · obtain ⟨hsrc, hdst⟩ := hs.tracks.payload c hcs
      have hst := htr.stands_of_baseId hs hp (hsrc.symm ▸ hdst.symm ▸ Digraph.hasArc_of_mem hcs) hxy hbase
      obtain ⟨-, hmem⟩ := hyield.of_stands htr.toGrouped hst
      exact hf.not_mem_of_live hs.tracks (ht.tracks.wellFormed.dst_mem c hc) (hdst ▸ hmem)
  · have hbase := hbase'.symm.trans hbase
    have harc := hs.hasArc_crossing hlead.mem
    rcases outranked_merge.1 hout with hout | ⟨-, hyield⟩
    · exact h.first_of_hasArc hs.tracks harc hbase hout
    · exact hyield.not_leading htr.toGrouped hs.tracks.toRoster hf.contractible.nodup
        (htr.stands_of_baseId hs hp harc hxy hbase) hlead

include h htr hs hxy hf in
/-- An edge that has not been outranked is what the edge is called after that it stands for. -/
lemma called_fuses (hno : ∀ {p f}, ¬ Outranked (copy g none)
      (trace ++ [(s, .merge members n.name type pattern)]) x y p f) {c : Arc Edge} (hc : c ∈ t.dag.arcs)
    (hx : Moved (copy g none) t x c.src) (hy : Moved (copy g none) t y c.dst) :
    t.baseId c.val = .arc x y := by
  have hold : ∀ {p f}, ¬ Outranked (copy g none) trace x y p f :=
    fun hout => hno (outranked_merge.2 (.inl hout))
  have hnew : ∀ {p}, ¬ Yields (copy g none) s members x y p :=
    fun hy => hno (outranked_merge.2 (.inr ⟨rfl, hy⟩))
  rcases hf.merged.called c hc with ⟨hcs, hbase⟩ | ⟨m, hlead, -, rfl, hbase⟩
  · have hlive : ∀ {k}, k ∈ s.dag.keys → k ≠ n.name := by
      rintro k hk rfl
      exact hf.name_fresh hs.tracks hk
    have hx := moved_of_fuses hs.tracks hf hx (hlive (hs.tracks.wellFormed.src_mem c hcs))
    have hy := moved_of_fuses hs.tracks hf hy (hlive (hs.tracks.wellFormed.dst_mem c hcs))
    exact hbase.trans (h.called hold c hcs hx.1 hy.1)
  · obtain ⟨hx, hy⟩ := moved_of_leading hs.tracks htr.toGrouped hxy hf hnew hlead hx hy
    obtain ⟨a, ha, hsrc, hdst⟩ := Digraph.hasArc_iff.1 (hs.hasArc_crossing hlead.mem)
    refine hbase.trans (Eq.trans ?_ (h.called hold a ha (hsrc ▸ hx) (hdst ▸ hy)))
    rw [baseId, baseId, hs.tracks.id_of_mem ha, hsrc, hdst]
    rfl

include h htr hs ht hp hxy hf in
/-- Where an edge is noted to be, it was outranked in no merge but the one that made the edge there. -/
lemma settled_fuses {a b : String} (hren : t.renamed.get? (EdgeId.arc x y) = some (EdgeId.arc a b))
    (ha : a ∈ t.dag.keys) (hb : b ∈ t.dag.keys) :
    Survives (copy g none) (trace ++ [(s, .merge members n.name type pattern)]) x y a b := by
  intro p f hout
  have haf := ht.tracks.arrowFree_live ha
  rcases hf.merged.renamed hren with hren | ⟨m, hm, hbase, hid⟩
  · -- The note is an older one, so no member is at its ends.
    obtain ⟨a', b', he, ha', hb', -⟩ := hs.settled.renames.renamed_place hren
    obtain ⟨rfl, rfl⟩ := (EdgeId.arc_inj haf (hs.tracks.arrowFree _ ha')).1 he
    obtain ⟨has, -⟩ := (hf.mem_keys.1 ha).resolve_left fun hn => hf.contractible.free (hn ▸ ha')
    obtain ⟨hbs, hmem⟩ := (hf.mem_keys.1 hb).resolve_left fun hn => hf.contractible.free (hn ▸ hb')
    rcases outranked_merge.1 hout with hout | ⟨-, hyield⟩
    · exact h.settled hren has hbs hout
    · exact absurd (hyield.of_stands htr.toGrouped (htr.noted hxy hren has hbs)).2 hmem
  · have harc := hs.hasArc_crossing hm
    rcases outranked_merge.1 hout with hout | ⟨rfl, hyield⟩
    · exact absurd hout (h.first_of_hasArc hs.tracks harc hbase)
    · obtain ⟨hp, hmem⟩ := hyield.of_stands htr.toGrouped (htr.stands_of_baseId hs hp harc hxy hbase)
      obtain ⟨hsrc, hdst⟩ := @place_crossing _ _ _ members n hs.tracks _ hm
      have hfree : ArrowFree m.2.src := hs.arrowFree_crossing (ht.tracks.arrowFree_live (hf.mem_keys.2 (.inl rfl))) hm
      obtain ⟨rfl, rfl⟩ := (EdgeId.arc_inj hfree haf).1 hid
      obtain ⟨before, c, after, -, -, hpm, -⟩ := hyield
      rw [hsrc, hdst, Engine.Fuses.place_of_mem hmem, hp, Engine.Fuses.place_of_not_mem hpm]
      exact ⟨rfl, rfl⟩

include h htr hs ht hxy hf in
/-- An edge that is outranked only where it is now is noted to be there. -/
lemma kept_fuses {p f a b : String}
    (hout : Outranked (copy g none) (trace ++ [(s, .merge members n.name type pattern)]) x y p f)
    (hsurv : Survives (copy g none) (trace ++ [(s, .merge members n.name type pattern)]) x y a b)
    (hab : t.dag.hasArc a b) (hx : Moved (copy g none) t x a) (hy : Moved (copy g none) t y b) :
    t.renamed.get? (EdgeId.arc x y) = some (EdgeId.arc a b) := by
  rcases outranked_merge.1 hout with hout | ⟨rfl, hyield⟩
  · -- It was moved here before, so neither end is the fused node.
    obtain ⟨rfl, rfl⟩ := hsurv (outranked_merge.2 (.inl hout))
    obtain ⟨htp, htf⟩ := h.placed hout
    obtain ⟨hx, -⟩ := moved_of_fuses hs.tracks hf hx fun he => hf.contractible.free (he ▸ htp)
    obtain ⟨hy, -⟩ := moved_of_fuses hs.tracks hf hy fun he => hf.contractible.free (he ▸ htf)
    have hne : p ≠ f := by
      rintro rfl
      exact ht.tracks.acyclic _ (.single hab)
    refine hf.merged.still (fun m hm hbase => ?_) ?_ (ht.tracks.hasEdge_iff.2 ⟨_, _, hab, rfl⟩)
    · exact h.first_of_hasArc hs.tracks (hs.hasArc_crossing hm) hbase hout
    · exact h.kept hout (fun ho => hsurv (outranked_merge.2 (.inl ho))) (htr.joined (.arc hxy) hx hy hne) hx hy
  · -- It was the first one so far, for the fused node is new.
    obtain ⟨rfl, rfl⟩ := hsurv hout
    have hold : ∀ {p f}, ¬ Outranked (copy g none) trace x y p f := by
      intro p' f' ho
      obtain ⟨-, rfl⟩ := hsurv (outranked_merge.2 (.inl ho))
      exact hf.contractible.free (h.placed ho).2
    obtain ⟨before, c, after, hmembers, hxp, hpm, hyc, -⟩ := hyield
    have hmem : c ∈ members := by simp [hmembers]
    obtain ⟨e, he, rfl, rfl⟩ := Digraph.hasArc_iff.1 (htr.joined (.arc hxy) hxp hyc fun he => hpm (he ▸ hmem))
    have hcross : (e.val, movedIn n e.val) ∈ s.crossings members n :=
      mem_crossings.2 (.inl ⟨_, hs.tracks.val_mem_inbound he hpm hmem, rfl⟩)
    have hnoted := hf.merged.noted _ hcross
    rw [h.called hold e he hxp hyc] at hnoted
    rw [hnoted, ← (hs.tracks.payload e he).1]
    rfl

include h htr hs ht hp hxy hf in
/-- A merge moves edges together with what is known of them. -/
lemma fuses : Ranked (copy g none) (trace ++ [(s, .merge members n.name type pattern)]) t x y := by
  refine ⟨fun hout => ?_, fun c hc hbase => h.first_fuses htr hs ht hp hxy hf hc hbase,
    fun hno c hc => h.called_fuses htr hs hxy hf hno hc, h.settled_fuses htr hs ht hp hxy hf,
    h.kept_fuses htr hs ht hxy hf⟩
  rw [hf.merged.taken, hf.merged.taken]
  rcases outranked_merge.1 hout with hout | ⟨rfl, before, c, after, -, ⟨z, -, hz⟩, -⟩
  · exact (h.placed hout).imp .inr .inr
  · exact ⟨.inr (hs.tracks.live_taken _ hz.1), .inl rfl⟩

end Fuses

/-- A drop moves edges together with what is known of them. -/
lemma dropped (h : Ranked (copy g none) trace s x y) (htr : Traced (copy g none) s)
    (hs : Edited g (copy g none) s) (ht : Edited g (copy g none) t)
    (hxy : (copy g none).dag.hasArc x y) {name : String} {src : Edge} (hd : Dropped s name src t) :
    Ranked (copy g none) (trace ++ [(s, .drop name)]) t x y := by
  have hfirst : ∀ e ∈ s.outEdges name, s.baseId e = .arc x y → ∀ {p f},
      ¬ Outranked (copy g none) trace x y p f := fun e he hbase =>
    h.first_of_hasArc hs.tracks (Digraph.hasArc_of_mem (hs.tracks.mem_outEdges.1 he).1) hbase
  have hmoved := fun {u a} => @moved_dropped (copy g none) _ _ _ _ hd u a
  constructor <;> simp only [Survives, outranked_drop]
  · rw [hd.taken]
    exact h.placed
  · intro c hc hbase
    rcases hd.called c hc with ⟨hcs, hbase'⟩ | ⟨m, hlead, -, rfl, hbase'⟩
    · exact h.first c hcs (hbase'.symm.trans hbase)
    · obtain ⟨e, he, rfl⟩ := List.mem_map.1 hlead.mem
      exact hfirst e he (hbase'.symm.trans hbase)
  · intro hno c hc hx hy
    have hx := (hmoved.1 hx).1
    have hy := (hmoved.1 hy).1
    rcases hd.called c hc with ⟨hcs, hbase⟩ | ⟨m, -, hnew, rfl, -⟩
    · exact hbase.trans (h.called hno c hcs hx hy)
    · -- The edge stood for one that led there already.
      refine absurd (htr.joined (.arc hxy) hx hy ?_) hnew
      intro he
      exact ht.tracks.acyclic _ (.single (he ▸ Digraph.hasArc_of_mem hc))
  · intro a b hren ha hb p f hout
    rcases hd.renamed hren with hren | ⟨e, he, hbase, -⟩
    · exact h.settled hren (hd.mem_keys.1 ha).1 (hd.mem_keys.1 hb).1 hout
    · exact absurd hout (hfirst e he hbase)
  · intro p f a b hout hsurv hab hx hy
    refine hd.still (fun e he hbase => hfirst e he hbase hout) ?_ (ht.tracks.hasEdge_iff.2 ⟨_, _, hab, rfl⟩)
    have hx := (hmoved.1 hx).1
    have hy := (hmoved.1 hy).1
    refine h.kept hout hsurv (htr.joined (.arc hxy) hx hy ?_) hx hy
    rintro rfl
    exact ht.tracks.acyclic _ (.single hab)

end Ranked

/-- What a run knows of the edges it started from. -/
lemma ranked_of_runs {e : Engine} (haf : ∀ p ∈ e.patterns, ArrowFree p.name) (hg : g.Regular)
    (hp : Populated (copy g none)) (hex : Exclusive (copy g none)) (hr : e.Runs (copy g none) trace s) :
    Traced (copy g none) s ∧
      ∀ {x y}, (copy g none).dag.hasArc x y → Ranked (copy g none) trace s x y := by
  suffices h : Edited g (copy g none) s ∧ Traced (copy g none) s ∧
      ∀ {x y}, (copy g none).dag.hasArc x y → Ranked (copy g none) trace s x y from h.2
  induction hr with
  | nil =>
    have hs : Edited g (copy g none) (copy g none) := .copy hg none
    refine ⟨hs, .refl hp hex hs.tracks.wellFormed fun b => rfl, fun _ => ?_⟩
    exact .refl hs.tracks hex (fun id => rfl) fun b => rfl
  | @snoc trace s t ed _ hstep ih =>
    obtain ⟨hs, htr, hranked⟩ := ih
    have ht := hstep.edited hs haf
    refine ⟨ht, ?_⟩
    cases hstep with
    | drop hok =>
      obtain ⟨src, hdrop, hd⟩ := Engine.dropped_of_drop hs hok
      exact ⟨htr.dropped hs ht hp hdrop hd, fun hxy => (hranked hxy).dropped htr hs ht hxy hd⟩
    | @merge head p members _ n hmem hfind hok =>
      obtain ⟨-, hf⟩ := Engine.fuses_of_merge hs (haf p hmem) hfind hok
      rw [← fusedNode_name (merge_ok_iff.1 hok).2.1]
      exact ⟨htr.fuses hs ht hp hf, fun hxy => (hranked hxy).fuses htr hs ht hp hxy hf⟩

end Sandbox

end OpGraph
