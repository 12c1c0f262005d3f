import Mathlib
import OpGraph.Proofs.Sandbox.Edits

/-!
# Registered edges under their new identifiers

When nodes are merged or dropped, the edges at them are taken in hand and moved one by one. A sandbox keeps the
registrations on the moved edges, and notes for each edge of the graph the identifier it was moved to. Two edges can
be moved to one place; only one of them is known from there on as the origin of that place, so the note on the other
is not renewed when the place itself is moved. `Renames g hand s` says what holds while the edges in `hand` wait to
be moved, and `Settled g s` what holds between edits.
-/

namespace OpGraph.Sandbox

variable {g : Graph} {s t : Sandbox} {id b : EdgeId} {e src : Edge}

/-- An identifier is that of an edge exactly when the edge is there. -/
lemma Tracks.hasEdge_iff {o : Sandbox} (h : Tracks g o s) : s.hasEdge id ↔ ∃ x y, s.dag.hasArc x y ∧ id = .arc x y := by
  unfold hasEdge
  constructor
  · intro hid
    split at hid
    · rename_i src dst he
      exact ⟨src, dst, hid, EdgeId.eq_arc_of_endpoints? he⟩
    · cases hid
  · rintro ⟨x, y, hxy, rfl⟩
    rw [EdgeId.endpoints?_arc (h.arrowFree_live (Digraph.hasVertex_iff.1 (h.wellFormed.hasVertex_src hxy)))]
    exact hxy

/-- An identifier belongs to an edge that is there or in hand. -/
def Current (s : Sandbox) (hand : List Edge) (id : EdgeId) : Prop :=
  s.hasEdge id ∨ ∃ e ∈ hand, e.id = id

/-- What a sandbox knows of moved and registered edges while the edges in `hand` are to be moved. -/
structure Renames (g : Graph) (hand : List Edge) (s : Sandbox) : Prop where
  hand_nodup : (hand.map Edge.id).Nodup
  hand_taken : ∀ e ∈ hand, s.taken.contains e.src ∧ s.taken.contains e.dst
  hand_gone : ∀ e ∈ hand, e.src ∉ s.dag.keys ∨ e.dst ∉ s.dag.keys
  hand_base : ∀ e ∈ hand, g.dag.hasArc e.src e.dst → e.id ∈ s.removedEdges ∧ s.renamed.get? e.id = none
  hand_fresh : ∀ e ∈ hand, ¬ g.dag.hasArc e.src e.dst → s.origin.contains e.id
  origin : ∀ {id b}, s.origin.get? id = some b → s.renamed.get? b = some id
  fresh : ∀ {x y}, s.dag.hasArc x y → ¬ g.dag.hasArc x y → s.origin.contains (EdgeId.arc x y)
  renamed_removed : ∀ {b id}, s.renamed.get? b = some id → b ∈ s.removedEdges
  renamed_place : ∀ {b id}, s.renamed.get? b = some id → ∃ u v, id = EdgeId.arc u v ∧
    s.taken.contains u ∧ s.taken.contains v ∧ ¬ g.dag.hasArc u v ∧
      (s.dag.hasArc u v ∨ u ∉ s.dag.keys ∨ v ∉ s.dag.keys)
  kept : ∀ b, g.isRegistered b → b ∉ s.removedEdges → s.registered.contains b
  moved : ∀ b, g.isRegistered b → b ∈ s.removedEdges →
    ((∃ e ∈ hand, e.id = b) ∧ s.registered.contains b) ∨
      ∃ id, s.renamed.get? b = some id ∧ (s.Current hand id → s.registered.contains id) ∧
        (s.origin.get? id = some b → s.Current hand id)
  registered : ∀ id, s.registered.contains id →
    (g.isRegistered id ∧ (id ∉ s.removedEdges ∨ ∃ e ∈ hand, e.id = id)) ∨
      (s.Current hand id ∧ ∃ b, g.isRegistered b ∧ ∃ id', s.renamed.get? b = some id' ∧
        (id' = id ∨ ¬ s.Current hand id'))

/-- What a sandbox knows of moved and registered edges between edits. -/
structure Settled (g : Graph) (s : Sandbox) : Prop where
  renames : Renames g [] s
  live : ∀ {id b}, s.origin.get? id = some b → s.hasEdge id

/-! ### Moving one edge -/

/-- The new edge fits in, or its two ends are joined already. -/
def Lands (s : Sandbox) (new : Edge) : Prop :=
  (s.dag.hasArc new.src new.dst ∧ s.dag.addArc new.src new.dst new = .error (.arcExists new.src new.dst)) ∨
    (¬ s.dag.hasArc new.src new.dst ∧ ∃ dag, s.dag.addArc new.src new.dst new = .ok dag)

/-- What moving an edge changes. -/
structure Rewired (s : Sandbox) (old new : Edge) (t : Sandbox) : Prop where
  keys : t.dag.keys = s.dag.keys
  hasArc : ∀ {x y}, t.dag.hasArc x y ↔ (x = new.src ∧ y = new.dst) ∨ s.dag.hasArc x y
  taken : t.taken = s.taken
  removedEdges : t.removedEdges = s.removedEdges
  renamed : t.renamed = s.renamed.insert (s.origin.getD old.id old.id) new.id
  registered : t.registered = Graph.moveRegistration s.registered old.id new.id
  origin : ∀ id, t.origin.get? id =
    if id = new.id ∧ ¬ s.dag.hasArc new.src new.dst then some (s.origin.getD old.id old.id)
    else if id = old.id then none else s.origin.get? id

/-- Moving an edge to where it lands changes what it should. -/
lemma rewired_rewire {new : Edge} (hl : s.Lands new) (old : Edge) : Rewired s old new (s.rewire old new) := by
  rcases rewire_eq s old new with ⟨dag, hdag, he⟩ | ⟨herr, he⟩ | ⟨hno, hne, -⟩
  · have hn := (Digraph.addArc_ok_iff.1 hdag).2.2.2.1
    rw [he]
    refine ⟨Digraph.keys_addArc hdag, Digraph.hasArc_addArc hdag, rfl, rfl, rfl, rfl, ?_⟩
    intro id
    by_cases hid : id = new.id <;> by_cases hold : id = old.id <;> simp [hid, hold, hn]
  · have harc : s.dag.hasArc new.src new.dst := by
      rcases hl with ⟨hl, -⟩ | ⟨-, dag, hdag⟩
      · exact hl
      · rw [herr] at hdag
        cases hdag
    rw [he]
    refine ⟨rfl, ?_, rfl, rfl, rfl, rfl, ?_⟩
    · intro x y
      constructor
      · exact .inr
      · rintro (⟨rfl, rfl⟩ | hxy)
        · exact harc
        · exact hxy
    · intro id
      by_cases hold : id = old.id <;> simp [hold, harc]
  · rcases hl with ⟨-, herr⟩ | ⟨-, dag, hdag⟩
    · exact absurd herr hne
    · exact absurd hdag (hno dag)

/-- Moving an edge notes its new name under the name that it had in the graph. -/
lemma Rewired.get?_renamed {old new : Edge} (hr : Rewired s old new t) (b : EdgeId) :
    t.renamed.get? b = if b = s.origin.getD old.id old.id then some new.id else s.renamed.get? b := by
  rw [hr.renamed, Dict.get?_insert]

/-- Moving an edge moves its registration along. -/
lemma Rewired.contains_registered {old new : Edge} (hr : Rewired s old new t) : t.registered.contains id ↔
      (s.registered.contains id ∧ id ≠ old.id) ∨ (id = new.id ∧ s.registered.contains old.id) := by
  rw [hr.registered, Graph.contains_moveRegistration]

namespace Renames

variable {g : Graph} {o s t : Sandbox} {hand : List Edge} {old new : Edge}

/-- The identifier under which the graph knows an edge in hand: the one it has, or the one it was moved from. -/
lemma base_cases (h : Renames g (old :: hand) s) :
    (s.origin.get? old.id = none ∧ s.origin.getD old.id old.id = old.id ∧ g.dag.hasArc old.src old.dst ∧
      s.renamed.get? old.id = none) ∨
    ∃ b, s.origin.get? old.id = some b ∧ s.origin.getD old.id old.id = b ∧ s.renamed.get? b = some old.id := by
  cases ho : s.origin.get? old.id with
  | none =>
    have hg : g.dag.hasArc old.src old.dst := by
      by_contra hg
      obtain ⟨b, hb⟩ := Dict.contains_iff.1 (h.hand_fresh old List.mem_cons_self hg)
      rw [ho] at hb
      cases hb
    exact .inl ⟨rfl, by rw [Dict.getD, ho]; rfl, hg, (h.hand_base old List.mem_cons_self hg).2⟩
  | some b => exact .inr ⟨b, rfl, by rw [Dict.getD, ho]; rfl, h.origin ho⟩

/-- What the edge at hand comes from was moved at most to where it is. -/
lemma eq_old_of_renamed_base (h : Renames g (old :: hand) s)
    (hid : s.renamed.get? (s.origin.getD old.id old.id) = some id) : id = old.id := by
  rcases h.base_cases with ⟨-, hb, -, hn⟩ | ⟨b, -, hb, hn⟩
  · rw [hb, hn] at hid
    cases hid
  · rw [hb, hn] at hid
    exact (Option.some.inj hid).symm

/-- What an edge in hand was in the graph counts as removed. -/
lemma base_removed (h : Renames g (old :: hand) s) : s.origin.getD old.id old.id ∈ s.removedEdges := by
  rcases h.base_cases with ⟨-, hb, hg, -⟩ | ⟨b, -, hb, hsome⟩
  · rw [hb]
    exact (h.hand_base old List.mem_cons_self hg).1
  · rw [hb]
    exact h.renamed_removed hsome

/-- No other edge in hand has the identifier of the first one. -/
lemma hand_ne (h : Renames g (old :: hand) s) (he : e ∈ hand) : e.id ≠ old.id := by
  have hnd := h.hand_nodup
  rw [List.map_cons, List.nodup_cons] at hnd
  exact fun heq => hnd.1 (heq ▸ List.mem_map_of_mem he)

/-- The new place of an edge is not the one it had. -/
lemma new_ne_old (h : Renames g (old :: hand) s) (hs : Tracks g o s) (hsrc : new.src ∈ s.dag.keys)
    (hdst : new.dst ∈ s.dag.keys) : new.id ≠ old.id := by
  intro he
  obtain ⟨hes, hed⟩ := (EdgeId.arc_inj (hs.arrowFree_live hsrc)
    (hs.arrowFree _ (h.hand_taken old List.mem_cons_self).1)).1 he
  rcases h.hand_gone old List.mem_cons_self with hg | hg
  · exact hg (hes ▸ hsrc)
  · exact hg (hed ▸ hdst)

/-- An edge in hand is not there. -/
lemma not_hasEdge_hand (h : Renames g hand s) (hs : Tracks g o s) (he : e ∈ hand) : ¬ s.hasEdge e.id := by
  rw [hs.hasEdge_iff]
  rintro ⟨x, y, hxy, hid⟩
  have hx := Digraph.hasVertex_iff.1 (hs.wellFormed.hasVertex_src hxy)
  have hy := Digraph.hasVertex_iff.1 (hs.wellFormed.hasVertex_dst hxy)
  obtain ⟨rfl, rfl⟩ := (EdgeId.arc_inj (hs.arrowFree _ (h.hand_taken e he).1) (hs.arrowFree_live hx)).1 hid
  exact (h.hand_gone e he).elim (· hx) (· hy)

/-- A registered edge in hand that the graph knows under its identifier is an edge of the graph. -/
lemma hasArc_of_registered (h : Renames g hand s) (hs : Tracks g o s) (hg : g.Regular) (he : e ∈ hand)
    (hr : g.isRegistered e.id) : g.dag.hasArc e.src e.dst := by
  obtain ⟨a, ha, hid⟩ := hg.exists_arc_of_registered hr
  obtain ⟨hes, hed⟩ := (EdgeId.arc_inj (hs.arrowFree _ (h.hand_taken e he).1) (hg.arrowFree_src ha)).1 hid
  rw [hes, hed]
  exact Digraph.hasArc_of_mem ha

/-- The current identifiers after an edge was moved. -/
lemma current_rewired (h : Renames g (old :: hand) s) (hs : Tracks g o s) (ht : Tracks g o t)
    (hr : Rewired s old new t) : t.Current hand id ↔ (s.Current (old :: hand) id ∧ id ≠ old.id) ∨ id = new.id := by
  have hedge : t.hasEdge id ↔ s.hasEdge id ∨ id = new.id := by
    rw [hs.hasEdge_iff, ht.hasEdge_iff]
    constructor
    · rintro ⟨x, y, hxy, rfl⟩
      rcases hr.hasArc.1 hxy with ⟨rfl, rfl⟩ | hxy
      · exact .inr rfl
      · exact .inl ⟨x, y, hxy, rfl⟩
    · rintro (⟨x, y, hxy, rfl⟩ | rfl)
      · exact ⟨x, y, hr.hasArc.2 (.inr hxy), rfl⟩
      · exact ⟨_, _, hr.hasArc.2 (.inl ⟨rfl, rfl⟩), rfl⟩
  have hnot := h.not_hasEdge_hand hs List.mem_cons_self
  unfold Current
  rw [hedge]
  constructor
  · rintro ((hid | hid) | ⟨e, he, rfl⟩)
    · refine .inl ⟨.inl hid, ?_⟩
      rintro rfl
      exact hnot hid
    · exact .inr hid
    · exact .inl ⟨.inr ⟨e, List.mem_cons_of_mem _ he, rfl⟩, h.hand_ne he⟩
  · rintro (⟨hid | ⟨e, he, rfl⟩, hne⟩ | hid)
    · exact .inl (.inl hid)
    · rcases List.mem_cons.1 he with rfl | he
      · exact absurd rfl hne
      · exact .inr ⟨e, he, rfl⟩
    · exact .inl (.inr hid)

/-- An edge of the graph in hand was not moved before, so it has its own identifier. -/
lemma base_eq_self (h : Renames g (old :: hand) s) (hs : Tracks g o s) (hg : g.dag.hasArc old.src old.dst) :
    s.origin.getD old.id old.id = old.id := by
  rcases h.base_cases with ⟨-, hb, -, -⟩ | ⟨b, -, -, hb⟩
  · exact hb
  · obtain ⟨u, v, hid, hu, -, hn, -⟩ := h.renamed_place hb
    obtain ⟨rfl, rfl⟩ := (EdgeId.arc_inj (hs.arrowFree _ (h.hand_taken old List.mem_cons_self).1)
      (hs.arrowFree _ hu)).1 hid
    exact absurd hg hn

/-- A place between two nodes that are there was moved to only if there is an edge. -/
lemma hasEdge_of_renamed (h : Renames g hand s) (hs : Tracks g o s) (hsrc : new.src ∈ s.dag.keys)
    (hdst : new.dst ∈ s.dag.keys) (hb : s.renamed.get? b = some new.id) : s.hasEdge new.id := by
  obtain ⟨u, v, hid, hu, -, -, hplace⟩ := h.renamed_place hb
  obtain ⟨rfl, rfl⟩ := (EdgeId.arc_inj (hs.arrowFree_live hsrc) (hs.arrowFree _ hu)).1 hid
  rcases hplace with harc | hk | hk
  · exact hs.hasEdge_iff.2 ⟨_, _, harc, rfl⟩
  · exact absurd hsrc hk
  · exact absurd hdst hk

/-- An identifier that is not current stays so, for the new place lies between two nodes that are there. -/
lemma not_current_rewired (h : Renames g (old :: hand) s) (hs : Tracks g o s) (ht : Tracks g o t)
    (hr : Rewired s old new t) (hsrc : new.src ∈ s.dag.keys) (hdst : new.dst ∈ s.dag.keys)
    (hb : s.renamed.get? b = some id) (hid : ¬ s.Current (old :: hand) id) : ¬ t.Current hand id := by
  intro hc
  rcases (h.current_rewired hs ht hr).1 hc with ⟨hc, -⟩ | rfl
  · exact hid hc
  · exact hid (.inl (h.hasEdge_of_renamed hs hsrc hdst hb))

/-- A registered edge of the graph that was moved is still in hand or known under a registered identifier. -/
lemma moved_rewired (h : Renames g (old :: hand) s) (hs : Tracks g o s) (ht : Tracks g o t) (hg : g.Regular)
    (hr : Rewired s old new t) (hsrc : new.src ∈ s.dag.keys) (hdst : new.dst ∈ s.dag.keys)
    (hb : g.isRegistered b) (hrem : b ∈ s.removedEdges) : ((∃ e ∈ hand, e.id = b) ∧ t.registered.contains b) ∨
      ∃ id, t.renamed.get? b = some id ∧ (t.Current hand id → t.registered.contains id) ∧
        (t.origin.get? id = some b → t.Current hand id) := by
  have hcur : ∀ {id}, t.Current hand id ↔ (s.Current (old :: hand) id ∧ id ≠ old.id) ∨ id = new.id :=
    h.current_rewired hs ht hr
  -- Whatever comes to the new place is registered there if it was registered in hand.
  have hnew : b = s.origin.getD old.id old.id → s.registered.contains old.id →
      ∃ id, t.renamed.get? b = some id ∧ (t.Current hand id → t.registered.contains id) ∧
        (t.origin.get? id = some b → t.Current hand id) := fun hbase hreg =>
    ⟨new.id, by rw [hr.get?_renamed, if_pos hbase], fun _ => hr.contains_registered.2 (.inr ⟨rfl, hreg⟩),
      fun _ => hcur.2 (.inr rfl)⟩
  rcases h.moved b hb hrem with ⟨⟨e, he, rfl⟩, hreg⟩ | ⟨id, hid, hcr, hco⟩
  · rcases List.mem_cons.1 he with rfl | he
    · exact .inr (hnew (h.base_eq_self hs (h.hasArc_of_registered hs hg List.mem_cons_self hb)).symm hreg)
    · exact .inl ⟨⟨e, he, rfl⟩, hr.contains_registered.2 (.inl ⟨hreg, h.hand_ne he⟩)⟩
  · by_cases hbase : b = s.origin.getD old.id old.id
    · obtain rfl : id = old.id := h.eq_old_of_renamed_base (hbase ▸ hid)
      exact .inr (hnew hbase (hcr (.inr ⟨old, List.mem_cons_self, rfl⟩)))
    · refine .inr ⟨id, by rw [hr.get?_renamed, if_neg hbase, hid], ?_, ?_⟩
      · intro hc
        rcases hcur.1 hc with ⟨hc, hne⟩ | rfl
        · exact hr.contains_registered.2 (.inl ⟨hcr hc, hne⟩)
        · exact hr.contains_registered.2 (.inl ⟨hcr (.inl (h.hasEdge_of_renamed hs hsrc hdst hid)),
            h.new_ne_old hs hsrc hdst⟩)
      · intro ho
        rw [hr.origin] at ho
        split at ho
        · rename_i hidn
          exact hcur.2 (.inr hidn.1)
        · split at ho
          · cases ho
          · exact hcur.2 (.inl ⟨hco ho, ‹_›⟩)

/-- A registered identifier is one of the graph, or it stands for a registered edge of the graph that was moved; the
note on that edge may name a place that is gone. -/
lemma registered_rewired (h : Renames g (old :: hand) s) (hs : Tracks g o s) (ht : Tracks g o t) (hg : g.Regular)
    (hr : Rewired s old new t) (hsrc : new.src ∈ s.dag.keys) (hdst : new.dst ∈ s.dag.keys)
    (hid : t.registered.contains id) : (g.isRegistered id ∧ (id ∉ s.removedEdges ∨ ∃ e ∈ hand, e.id = id)) ∨
      (t.Current hand id ∧ ∃ b, g.isRegistered b ∧ ∃ id', t.renamed.get? b = some id' ∧
        (id' = id ∨ ¬ t.Current hand id')) := by
  have hcur : ∀ {id}, t.Current hand id ↔ (s.Current (old :: hand) id ∧ id ≠ old.id) ∨ id = new.id :=
    h.current_rewired hs ht hr
  have hstale : ∀ {b id}, s.renamed.get? b = some id → ¬ s.Current (old :: hand) id → ¬ t.Current hand id :=
    h.not_current_rewired hs ht hr hsrc hdst
  rcases hr.contains_registered.1 hid with ⟨hid, hne⟩ | ⟨rfl, hold⟩
  · rcases h.registered id hid with ⟨hgr, hk⟩ | ⟨hc, b, hgr, id', hid', hk⟩
    · refine .inl ⟨hgr, hk.imp_right ?_⟩
      rintro ⟨e, he, rfl⟩
      exact ⟨e, (List.mem_cons.1 he).resolve_left fun heq => hne (heq ▸ rfl), rfl⟩
    · have hbase : b ≠ s.origin.getD old.id old.id := by
        rintro rfl
        obtain rfl := h.eq_old_of_renamed_base hid'
        exact hk.elim (fun heq => hne heq.symm) (· (.inr ⟨old, List.mem_cons_self, rfl⟩))
      exact .inr ⟨hcur.2 (.inl ⟨hc, hne⟩), b, hgr, id', by rw [hr.get?_renamed, if_neg hbase, hid'],
        hk.imp_right (hstale hid')⟩
  · refine .inr ⟨hcur.2 (.inr rfl), ?_⟩
    rcases h.registered old.id hold with ⟨hgr, -⟩ | ⟨-, b, hgr, id', hid', hk⟩
    · have hbase := h.base_eq_self hs (h.hasArc_of_registered hs hg List.mem_cons_self hgr)
      exact ⟨old.id, hgr, new.id, by rw [hr.get?_renamed, if_pos hbase.symm], .inl rfl⟩
    · by_cases hbase : b = s.origin.getD old.id old.id
      · exact ⟨b, hgr, new.id, by rw [hr.get?_renamed, if_pos hbase], .inl rfl⟩
      · refine ⟨b, hgr, id', by rw [hr.get?_renamed, if_neg hbase, hid'], .inr ?_⟩
        rcases hk with rfl | hk
        · intro hc
          rcases hcur.1 hc with ⟨-, hne⟩ | heq
          · exact hne rfl
          · exact h.new_ne_old hs hsrc hdst heq.symm
        · exact hstale hid' hk

/-- Moving one of the edges in hand to a place where the graph has none. -/
lemma rewired (h : Renames g (old :: hand) s) (hs : Tracks g o s) (ht : Tracks g o t) (hg : g.Regular)
    (hr : Rewired s old new t) (hsrc : new.src ∈ s.dag.keys) (hdst : new.dst ∈ s.dag.keys)
    (hn : ¬ g.dag.hasArc new.src new.dst) : Renames g hand t where
  hand_nodup := (List.nodup_cons.1 h.hand_nodup).2
  hand_taken := fun e he => hr.taken ▸ h.hand_taken e (List.mem_cons_of_mem _ he)
  hand_gone := fun e he => hr.keys ▸ h.hand_gone e (List.mem_cons_of_mem _ he)
  hand_base := by
    intro e he hge
    obtain ⟨hrem, hnone⟩ := h.hand_base e (List.mem_cons_of_mem _ he) hge
    refine ⟨hr.removedEdges ▸ hrem, ?_⟩
    rw [hr.get?_renamed, if_neg, hnone]
    intro heq
    rcases h.base_cases with ⟨-, hb, -, -⟩ | ⟨b, -, hb, hsome⟩
    · exact h.hand_ne he (heq.trans hb)
    · rw [heq, hb, hsome] at hnone
      cases hnone
  hand_fresh := by
    intro e he hge
    obtain ⟨b, hb⟩ := Dict.contains_iff.1 (h.hand_fresh e (List.mem_cons_of_mem _ he) hge)
    rw [Dict.contains_iff, hr.origin]
    split
    · exact ⟨_, rfl⟩
    · rw [if_neg (h.hand_ne he)]
      exact ⟨b, hb⟩
  origin := by
    intro id b hb
    rw [hr.origin] at hb
    rw [hr.get?_renamed]
    split at hb
    · rename_i hid
      rw [if_pos (Option.some.inj hb).symm, hid.1]
    · split at hb
      · cases hb
      · rename_i hid
        rw [if_neg, h.origin hb]
        rintro rfl
        exact hid (h.eq_old_of_renamed_base (h.origin hb))
  fresh := by
    intro x y hxy hgn
    rw [Dict.contains_iff, hr.origin]
    split
    · exact ⟨_, rfl⟩
    · rename_i hid
      have harc : s.dag.hasArc x y := by
        rcases hr.hasArc.1 hxy with ⟨rfl, rfl⟩ | hxy
        · by_contra harc
          exact hid ⟨rfl, harc⟩
        · exact hxy
      rw [if_neg]
      · exact Dict.contains_iff.1 (h.fresh harc hgn)
      · intro heq
        exact h.not_hasEdge_hand hs List.mem_cons_self (heq ▸ hs.hasEdge_iff.2 ⟨x, y, harc, rfl⟩)
  renamed_removed := by
    intro b id hb
    rw [hr.removedEdges]
    rw [hr.get?_renamed] at hb
    split at hb
    · rename_i heq
      exact heq ▸ h.base_removed
    · exact h.renamed_removed hb
  renamed_place := by
    intro b id hb
    rw [hr.taken, hr.keys]
    rw [hr.get?_renamed] at hb
    split at hb
    · cases hb
      exact ⟨_, _, rfl, hs.live_taken _ hsrc, hs.live_taken _ hdst, hn, .inl (hr.hasArc.2 (.inl ⟨rfl, rfl⟩))⟩
    · obtain ⟨u, v, hid, hu, hv, hng, hplace⟩ := h.renamed_place hb
      exact ⟨u, v, hid, hu, hv, hng, hplace.imp_left fun harc => hr.hasArc.2 (.inr harc)⟩
  kept := by
    intro b hb hrem
    rw [hr.removedEdges] at hrem
    refine hr.contains_registered.2 (.inl ⟨h.kept b hb hrem, ?_⟩)
    rintro rfl
    exact hrem (h.hand_base old List.mem_cons_self (h.hasArc_of_registered hs hg List.mem_cons_self hb)).1
  moved := fun b hb hrem => h.moved_rewired hs ht hg hr hsrc hdst hb (hr.removedEdges ▸ hrem)
  registered := fun id hid => hr.removedEdges ▸ h.registered_rewired hs ht hg hr hsrc hdst hid

end Renames

/-! ### Taking edges in hand -/

/-- The sandbox `t` is `s` without the nodes in `gone`, and the edges at these nodes are in hand or not registered. -/
structure Cleared (s : Sandbox) (gone : List String) (hand : List Edge) (t : Sandbox) : Prop where
  moves : t.moves = s.moves
  taken : ∀ k, s.taken.contains k → t.taken.contains k
  keys : ∀ k, s.taken.contains k → (k ∈ t.dag.keys ↔ k ∈ s.dag.keys ∧ k ∉ gone)
  hasArc : ∀ {x y}, t.dag.hasArc x y ↔ s.dag.hasArc x y ∧ x ∉ gone ∧ y ∉ gone
  hand_nodup : (hand.map Edge.id).Nodup
  hand_mem : ∀ e ∈ hand, s.dag.hasArc e.src e.dst ∧ (e.src ∈ gone ∨ e.dst ∈ gone)
  rest : ∀ {x y}, s.dag.hasArc x y → x ∈ gone ∨ y ∈ gone →
    (∃ e ∈ hand, e.id = EdgeId.arc x y) ∨ ¬ s.registered.contains (EdgeId.arc x y)

namespace Cleared

variable {g : Graph} {o s t : Sandbox} {gone : List String} {hand : List Edge}

/-- The edges of the graph that are removed now are those removed before and those at the nodes that are gone. -/
lemma removedEdges_iff (h : Cleared s gone hand t) (hs : Tracks g o s) (ht : Tracks g o t) (hc : Copied g o)
    : b ∈ t.removedEdges ↔ b ∈ s.removedEdges ∨
      ∃ x y, s.dag.hasArc x y ∧ g.dag.hasArc x y ∧ (x ∈ gone ∨ y ∈ gone) ∧ b = .arc x y := by
  have hgone : ∀ k, k ∈ s.dag.keys → k ∈ t.removedNodes → k ∈ gone := by
    intro k hk hr
    by_contra hn
    exact (ht.removed k hr).2.2 ((h.keys k (hs.live_taken k hk)).2 ⟨hk, hn⟩)
  rw [ht.removedEdges, hs.removedEdges]
  constructor
  · rintro ⟨a, ha, hn, rfl⟩
    by_cases hst : s.Stays a
    · have hmem := hs.mem_arcs_of_stays ha hst
      refine .inr ⟨a.src, a.dst, Digraph.hasArc_of_mem hmem, Digraph.hasArc_of_mem (hc.arcs a ha), ?_, rfl⟩
      rw [Stays, not_and_or, not_not, not_not] at hn
      exact hn.imp (hgone _ (hs.wellFormed.src_mem a hmem)) (hgone _ (hs.wellFormed.dst_mem a hmem))
    · exact .inl ⟨a, ha, hst, rfl⟩
  · rintro (⟨a, ha, hn, rfl⟩ | ⟨x, y, hxy, hg, hk, rfl⟩)
    · refine ⟨a, ha, fun hst => hn ?_, rfl⟩
      obtain ⟨b, hb, hbs, hbd⟩ := Digraph.hasArc_iff.1
        (h.hasArc.1 (Digraph.hasArc_of_mem (ht.mem_arcs_of_stays ha hst))).1
      have hst := (hs.stays_of_mem_arcs hb (by rw [hbs, hbd]; exact Digraph.hasArc_of_mem (hc.arcs a ha))).2
      rwa [Stays, hbs, hbd] at hst
    · obtain ⟨a, ha, rfl, rfl⟩ := Digraph.hasArc_iff.1 hxy
      refine ⟨a, (hs.stays_of_mem_arcs ha hg).1, fun hst => ?_, rfl⟩
      have harc := h.hasArc.1 (Digraph.hasArc_of_mem (ht.mem_arcs_of_stays (hs.stays_of_mem_arcs ha hg).1 hst))
      exact hk.elim harc.2.1 harc.2.2

/-- An edge in hand was there before. -/
lemma hasEdge_of_current (h : Cleared s gone hand t) (hs : Tracks g o s) (ht : Tracks g o t)
    (hid : t.Current hand id) : s.hasEdge id := by
  rw [hs.hasEdge_iff]
  rcases hid with hid | ⟨e, he, rfl⟩
  · obtain ⟨x, y, hxy, rfl⟩ := ht.hasEdge_iff.1 hid
    exact ⟨x, y, (h.hasArc.1 hxy).1, rfl⟩
  · exact ⟨_, _, (h.hand_mem e he).1, rfl⟩

/-- An edge that was there and is registered is still there or in hand. -/
lemma current_of_registered (h : Cleared s gone hand t) (hs : Tracks g o s) (ht : Tracks g o t)
    (hid : s.hasEdge id) (hr : s.registered.contains id) : t.Current hand id := by
  obtain ⟨x, y, hxy, rfl⟩ := hs.hasEdge_iff.1 hid
  by_cases hk : x ∈ gone ∨ y ∈ gone
  · rcases h.rest hxy hk with hhand | hn
    · exact .inr hhand
    · exact absurd hr hn
  · rw [not_or] at hk
    exact .inl (ht.hasEdge_iff.2 ⟨x, y, h.hasArc.2 ⟨hxy, hk⟩, rfl⟩)

/-- Between two edits nothing is in hand; then the edges at the nodes that go are taken. -/
lemma renames (h : Cleared s gone hand t) (hset : Settled g s) (hs : Tracks g o s) (ht : Tracks g o t)
    (hc : Copied g o) : Renames g hand t := by
  have hren := hset.renames
  have hremoved := fun {b} => h.removedEdges_iff hs ht hc (b := b)
  have hcurrent : ∀ {id}, t.Current hand id → s.Current [] id := fun hid => .inl (h.hasEdge_of_current hs ht hid)
  have hedge : ∀ {id}, s.Current [] id → s.hasEdge id := fun hid => hid.resolve_right (by simp)
  obtain ⟨hreg, horig, hrnm⟩ := moves_eq_iff.1 h.moves
  -- An edge of the graph that is removed now and was not before is in hand if it is registered.
  have hnew : ∀ {b}, b ∈ t.removedEdges → b ∉ s.removedEdges → s.registered.contains b → ∃ e ∈ hand, e.id = b := by
    intro b hb hn hbr
    obtain ⟨x, y, hxy, -, hk, rfl⟩ := (hremoved.1 hb).resolve_left hn
    exact (h.rest hxy hk).resolve_right (not_not.2 hbr)
  have hends : ∀ e ∈ hand, e.src ∈ s.dag.keys ∧ e.dst ∈ s.dag.keys := by
    intro e he
    have harc := (h.hand_mem e he).1
    exact ⟨Digraph.hasVertex_iff.1 (hs.wellFormed.hasVertex_src harc),
      Digraph.hasVertex_iff.1 (hs.wellFormed.hasVertex_dst harc)⟩
  refine {
    hand_nodup := h.hand_nodup
    hand_taken := fun e he => ⟨h.taken _ (hs.live_taken _ (hends e he).1), h.taken _ (hs.live_taken _ (hends e he).2)⟩
    hand_gone := ?_, hand_base := ?_
    hand_fresh := fun e he hg => horig ▸ hren.fresh (h.hand_mem e he).1 hg
    origin := fun hb => hrnm ▸ hren.origin (horig ▸ hb)
    fresh := fun hxy hg => horig ▸ hren.fresh (h.hasArc.1 hxy).1 hg
    renamed_removed := fun hb => hremoved.2 (.inl (hren.renamed_removed (hrnm ▸ hb)))
    renamed_place := ?_
    kept := fun b hb hrem => hreg ▸ hren.kept b hb fun hn => hrem (hremoved.2 (.inl hn))
    moved := ?_, registered := ?_ }
  · intro e he
    obtain ⟨hsrc, hdst⟩ := hends e he
    refine (h.hand_mem e he).2.imp (fun hk hm => ?_) (fun hk hm => ?_)
    · exact ((h.keys _ (hs.live_taken _ hsrc)).1 hm).2 hk
    · exact ((h.keys _ (hs.live_taken _ hdst)).1 hm).2 hk
  · intro e he hg
    obtain ⟨harc, hk⟩ := h.hand_mem e he
    refine ⟨hremoved.2 (.inr ⟨_, _, harc, hg, hk, rfl⟩), ?_⟩
    rw [hrnm, Option.eq_none_iff_forall_ne_some]
    intro id hid
    obtain ⟨a, ha, hsrc, hdst⟩ := Digraph.hasArc_iff.1 harc
    obtain ⟨hao, hst⟩ := hs.stays_of_mem_arcs ha (by rw [hsrc, hdst]; exact hg)
    refine hs.not_baseEdges_of_removed hc (hren.renamed_removed hid) ((hs.baseEdges _).2 ⟨a, hao, hst, ?_⟩)
    rw [Edge.id, hsrc, hdst]
  · intro b id hb
    obtain ⟨u, v, hid, hu, hv, hng, hplace⟩ := hren.renamed_place (hrnm ▸ hb)
    refine ⟨u, v, hid, h.taken u hu, h.taken v hv, hng, ?_⟩
    rw [h.keys u hu, h.keys v hv, h.hasArc]
    tauto
  · intro b hb hrem
    rw [hreg, horig, hrnm]
    by_cases hn : b ∈ s.removedEdges
    · rcases hren.moved b hb hn with ⟨⟨e, he, -⟩, -⟩ | ⟨id, hid, hcr, hco⟩
      · cases he
      · exact .inr ⟨id, hid, fun hcur => hcr (hcurrent hcur),
          fun ho => h.current_of_registered hs ht (hedge (hco ho)) (hcr (hco ho))⟩
    · have hbr := hren.kept b hb hn
      exact .inl ⟨hnew hrem hn hbr, hbr⟩
  · intro id hid
    rw [hreg] at hid
    rw [hrnm]
    rcases hren.registered id hid with ⟨hgr, hk⟩ | ⟨hcur, b, hgr, id', hid', hk⟩
    · refine .inl ⟨hgr, ?_⟩
      by_cases hrem : id ∈ t.removedEdges
      · exact .inr (hnew hrem (hk.resolve_right (by simp)) hid)
      · exact .inl hrem
    · exact .inr ⟨h.current_of_registered hs ht (hedge hcur) hid, b, hgr, id', hid',
        hk.imp_right fun hn hc' => hn (hcurrent hc')⟩

end Cleared

/-! ### Forgetting what is gone -/

/-- Of the notes on moved edges those are forgotten that say the same as one of the given pairs. -/
lemma get?_foldl_forget : ∀ {gone : List (EdgeId × EdgeId)} {renamed : Dict EdgeId},
      (gone.foldl (fun renamed p => if renamed.get? p.2 = some p.1 then renamed.erase p.2 else renamed)
        renamed).get? b = some id ↔ renamed.get? b = some id ∧ (id, b) ∉ gone
  | [], renamed => by simp
  | (i, c) :: gone, renamed => by
    rw [List.foldl_cons, get?_foldl_forget, List.mem_cons, not_or, Prod.mk.injEq]
    by_cases hp : renamed.get? c = some i
    · rw [if_pos hp, Dict.get?_erase]
      by_cases hb : b = c
      · subst hb
        simp only [hp, ↓reduceIte, reduceCtorEq, false_and, Option.some.injEq, and_true, false_iff, not_and]
        exact fun hi hn => absurd hi.symm hn
      · simp [hb]
    · rw [if_neg hp]
      have hne : renamed.get? b = some id → ¬ (id = i ∧ b = c) := by
        rintro h ⟨rfl, rfl⟩
        exact hp h
      tauto

/-- What is known of the origin of edges is kept for those that are there. -/
lemma get?_origin_pruneRenames : s.pruneRenames.origin.get? id = some b ↔ s.origin.get? id = some b ∧ s.hasEdge id := by
  have h : s.pruneRenames.origin = s.origin.filter fun id _ => s.hasEdge id := rfl
  rw [h, Dict.get?_filter, Option.filter_eq_some_iff]

/-- Where an edge was moved to is forgotten if it is the origin of an edge that is gone. -/
lemma get?_renamed_pruneRenames : s.pruneRenames.renamed.get? b = some id ↔
      s.renamed.get? b = some id ∧ (s.origin.get? id = some b → s.hasEdge id) := by
  have h : s.pruneRenames.renamed = (s.origin.entries.filter fun p => !s.hasEdge p.1).foldl
    (fun renamed p => if renamed.get? p.2 = some p.1 then renamed.erase p.2 else renamed) s.renamed := rfl
  rw [h, get?_foldl_forget, List.mem_filter, Dict.get?_eq_some_iff s.origin]
  simp

/-- After all edges in hand were moved, forgetting what is gone settles the sandbox. -/
lemma Renames.settled {o : Sandbox} (h : Renames g [] s) (hs : Tracks g o s) : Settled g s.pruneRenames := by
  -- The notes on registered edges are never forgotten.
  have hkeep : ∀ {b id}, s.renamed.get? b = some id → (s.origin.get? id = some b → s.Current [] id) →
      s.pruneRenames.renamed.get? b = some id := by
    intro b id hb ho
    exact get?_renamed_pruneRenames.2 ⟨hb, fun h => (ho h).resolve_right (by simp)⟩
  refine ⟨⟨h.hand_nodup, h.hand_taken, h.hand_gone, by simp, by simp, ?_, ?_,
    fun hb => h.renamed_removed (get?_renamed_pruneRenames.1 hb).1,
    fun hb => h.renamed_place (get?_renamed_pruneRenames.1 hb).1, h.kept, ?_, ?_⟩,
    fun ho => (get?_origin_pruneRenames.1 ho).2⟩
  · intro id b ho
    obtain ⟨ho, he⟩ := get?_origin_pruneRenames.1 ho
    exact hkeep (h.origin ho) fun _ => .inl he
  · intro x y hxy hg
    obtain ⟨b, hb⟩ := Dict.contains_iff.1 (h.fresh hxy hg)
    exact Dict.contains_iff.2 ⟨b, get?_origin_pruneRenames.2 ⟨hb, hs.hasEdge_iff.2 ⟨x, y, hxy, rfl⟩⟩⟩
  · intro b hb hrem
    rcases h.moved b hb hrem with ⟨⟨e, he, -⟩, -⟩ | ⟨id, hid, hcr, hco⟩
    · cases he
    · exact .inr ⟨id, hkeep hid hco, hcr, fun ho => hco (get?_origin_pruneRenames.1 ho).1⟩
  · intro id hid
    rcases h.registered id hid with hk | ⟨hc, b, hgr, id', hid', hk⟩
    · exact .inl hk
    · refine .inr ⟨hc, b, hgr, id', ?_, hk⟩
      rcases h.moved b hgr (h.renamed_removed hid') with ⟨⟨e, he, -⟩, -⟩ | ⟨id'', hid'', -, hco⟩
      · cases he
      · rw [hid'] at hid''
        cases hid''
        exact hkeep hid' hco

/-! ### Whole edits -/

/-- Only the nodes and edges that are there and what is known of moved edges matter. -/
lemma Renames.congr {hand : List Edge} (h : Renames g hand s) (hmoves : t.moves = s.moves)
    (htaken : t.taken = s.taken) (hremoved : t.removedEdges = s.removedEdges) (hkeys : t.dag.keys = s.dag.keys)
    (harcs : t.dag.arcs = s.dag.arcs) : Renames g hand t := by
  obtain ⟨hreg, horig, hrnm⟩ := moves_eq_iff.1 hmoves
  have harc : t.dag.hasArc = s.dag.hasArc := by
    funext x y
    rw [Digraph.hasArc, Digraph.hasArc, Digraph.arc?, Digraph.arc?, harcs]
  have hedge : t.hasEdge = s.hasEdge := by
    funext id
    rw [hasEdge, hasEdge, harc]
  have hcur : t.Current hand = s.Current hand := by
    funext id
    rw [Current, Current, hedge]
  exact {
    hand_nodup := h.hand_nodup
    hand_taken := by rw [htaken]; exact h.hand_taken
    hand_gone := by rw [hkeys]; exact h.hand_gone
    hand_base := by rw [hremoved, hrnm]; exact h.hand_base
    hand_fresh := by rw [horig]; exact h.hand_fresh
    origin := by rw [horig, hrnm]; exact h.origin
    fresh := by rw [harc, horig]; exact h.fresh
    renamed_removed := by rw [hrnm, hremoved]; exact h.renamed_removed
    renamed_place := by rw [hrnm, htaken, harc, hkeys]; exact h.renamed_place
    kept := by rw [hremoved, hreg]; exact h.kept
    moved := by rw [hremoved, hreg, hrnm, hcur, horig]; exact h.moved
    registered := by rw [hremoved, hreg, hrnm, hcur]; exact h.registered }

lemma Renames.of_topology {hand : List Edge} (h : Renames g hand s)
    (htop : t.topology = s.topology) (hmoves : t.moves = s.moves) : Renames g hand t := by
  simp only [topology, Prod.mk.injEq] at htop
  obtain ⟨-, -, hdag, -, htaken, -, hremoved, -⟩ := htop
  exact h.congr hmoves htaken hremoved (by rw [hdag]) (by rw [hdag])

/-- A sandbox of a graph starts settled. -/
lemma Settled.copy (hg : g.Regular) (region : Option (List String)) : Settled g (Sandbox.copy g region) := by
  have hc := copied_copy hg region
  have horigin : (Sandbox.copy g region).origin = {} := rfl
  have hrenamed : (Sandbox.copy g region).renamed = {} := rfl
  have hremoved : (Sandbox.copy g region).removedEdges = [] := rfl
  refine ⟨{
    hand_nodup := List.nodup_nil
    hand_taken := by simp
    hand_gone := by simp
    hand_base := by simp
    hand_fresh := by simp
    origin := by simp [horigin]
    fresh := fun hxy hn => absurd (hc.hasArc hxy) hn
    renamed_removed := by simp [hrenamed]
    renamed_place := by simp [hrenamed]
    kept := fun b hb _ => hb
    moved := by simp [hremoved]
    registered := fun id hid => .inl ⟨hid, .inl (by simp [hremoved])⟩ }, by simp [horigin]⟩

namespace Settled

variable {g : Graph} {o s t : Sandbox}

/-- Moving all edges in hand, when their new places fit into a relation without cycles. -/
lemma rewireAll (hg : g.Regular) {r : String → String → Prop} (hr : ∀ x, ¬ Relation.TransGen r x x) :
    ∀ {ms : List (Edge × Edge)} {s : Sandbox}, Tracks g o s → Renames g (ms.map (·.1)) s →
      (∀ x y, s.dag.hasArc x y → r x y) →
      (∀ m ∈ ms, m.2.src ∈ s.dag.keys ∧ m.2.dst ∈ s.dag.keys ∧ r m.2.src m.2.dst ∧ ¬ g.dag.hasArc m.2.src m.2.dst) →
      Renames g [] (s.rewireAll ms)
  | [], _, _, h, _, _ => h
  | m :: ms, s, hs, h, hsub, hms => by
    rw [List.forall_mem_cons] at hms
    obtain ⟨⟨hsrc, hdst, hrm, hn⟩, hms⟩ := hms
    have hl : s.Lands m.2 := hs.wellFormed.addArc_of_acyclic hr hsub (Digraph.hasVertex_iff.2 hsrc)
      (Digraph.hasVertex_iff.2 hdst) hrm m.2
    have hrw := rewired_rewire hl m.1
    have ht := hs.rewire m.1 hn
    refine rewireAll (s := s.rewire m.1 m.2) hg hr ht (h.rewired hs ht hg hrw hsrc hdst hn) ?_ (hrw.keys ▸ hms)
    intro x y hxy
    rcases hrw.hasArc.1 hxy with ⟨rfl, rfl⟩ | hxy
    · exact hrm
    · exact hsub x y hxy

/-- The members of a merge are gone and the edges across their border in hand. -/
lemma cleared_replaced (hs : Tracks g o s) {names : List String} {fused : Node}
    (hm : s.Contractible names fused.name) :
    Cleared s names ((s.crossings names fused).map (·.1)) (s.replaced names fused) := by
  obtain ⟨-, -, -, htaken, hmoves, -⟩ := replaced_eq hs.toRoster hm
  have hhand : (s.crossings names fused).map (·.1) = s.inbound names ++ s.outbound names := by
    simp [crossings, Function.comp_def]
  rw [hhand]
  refine ⟨hmoves, fun k hk => htaken ▸ NameSet.contains_add.2 (.inr hk), ?_, hasArc_replaced hs.toRoster hm,
    hs.nodup_border hm.nodup, ?_, ?_⟩
  · intro k hk
    rw [mem_keys_replaced hs.toRoster hm, or_iff_right]
    rintro rfl
    exact hm.free hk
  · intro e he
    rcases List.mem_append.1 he with he | he
    · obtain ⟨ha, -, hd⟩ := hs.mem_inbound.1 he
      exact ⟨Digraph.hasArc_of_mem ha, .inr hd⟩
    · obtain ⟨ha, hsrc, -⟩ := hs.mem_outbound.1 he
      exact ⟨Digraph.hasArc_of_mem ha, .inl hsrc⟩
  · intro x y hxy hk
    obtain ⟨a, ha, rfl, rfl⟩ := Digraph.hasArc_iff.1 hxy
    obtain ⟨hes, hed⟩ := hs.payload a ha
    have harc := hs.toArc_val ha
    have hid : a.val.id = EdgeId.arc a.src a.dst := by rw [Edge.id, hes, hed]
    rw [← hes, ← hed] at hk
    by_cases hsrc : a.val.src ∈ names
    · by_cases hdst : a.val.dst ∈ names
      · exact .inr (hid ▸ hm.unregistered _ (hs.mem_inner.2 ⟨harc ▸ ha, hsrc, hdst⟩))
      · exact .inl ⟨a.val, List.mem_append.2 (.inr (hs.mem_outbound.2 ⟨harc ▸ ha, hsrc, hdst⟩)), hid⟩
    · exact .inl ⟨a.val, List.mem_append.2 (.inl (hs.mem_inbound.2 ⟨harc ▸ ha, hsrc, hk.resolve_left hsrc⟩)), hid⟩

/-- A merge leaves the sandbox settled. -/
lemma contract (h : Settled g s) (hs : Tracks g o s) (hc : Copied g o) {names : List String} {fused : Node}
    (hm : s.Contractible names fused.name) (haf : ArrowFree fused.name) (record : MergeRecord) :
    Settled g (s.contract names fused record) := by
  have hs₁ := hs.replaced hc hm haf
  have hf : fused.name ∉ g.dag.keys := fun hk => hm.free (hs.taken _ hk)
  have hkeys : ∀ k ∈ s.dag.keys, k ∉ names → k ∈ (s.replaced names fused).dag.keys := fun k hk hn =>
    (mem_keys_replaced hs.toRoster hm).2 (.inr ⟨hk, hn⟩)
  have hfused : fused.name ∈ (s.replaced names fused).dag.keys := (mem_keys_replaced hs.toRoster hm).2 (.inl rfl)
  have hren : Renames g [] ((s.replaced names fused).rewireAll (s.crossings names fused)) := by
    refine rewireAll hc.regular (hs.contracted_acyclic hm) hs₁ ((cleared_replaced hs hm).renames h hs hs₁ hc) ?_ ?_
    · intro x y hxy
      obtain ⟨hxy, hx, hy⟩ := (hasArc_replaced hs.toRoster hm).1 hxy
      exact .inl ⟨hx, hy, hxy⟩
    · intro m hmem
      rcases mem_crossings.1 hmem with ⟨e, he, rfl⟩ | ⟨e, he, rfl⟩
      · obtain ⟨ha, hsrc, hdst⟩ := hs.mem_inbound.1 he
        refine ⟨hkeys _ (hs.wellFormed.src_mem _ ha) hsrc, hfused, .inr (.inl ⟨hsrc, rfl, e.dst, hdst, ?_⟩), ?_⟩
        · exact Digraph.hasArc_of_mem ha
        · exact fun hg => hf (Digraph.hasVertex_iff.1 (hc.regular.dag.hasVertex_dst hg))
      · obtain ⟨ha, hsrc, hdst⟩ := hs.mem_outbound.1 he
        refine ⟨hfused, hkeys _ (hs.wellFormed.dst_mem _ ha) hdst, .inr (.inr ⟨rfl, hdst, e.src, hsrc, ?_⟩), ?_⟩
        · exact Digraph.hasArc_of_mem ha
        · exact fun hg => hf (Digraph.hasVertex_iff.1 (hc.regular.dag.hasVertex_src hg))
  rw [contract_eq]
  obtain ⟨htop, hmov⟩ := foldl_moveBoundary_frame names fused.name
    ((s.replaced names fused).rewireAll (s.crossings names fused))
  refine Renames.settled (hren.of_topology ?_ ?_) ((hs.crossed hc hm haf).of_topology ?_)
  · exact htop
  · exact hmov
  · exact htop

/-- The node to drop is gone and the edges out of it in hand. -/
lemma cleared_removeNode (hs : Tracks g o s) {name : String} (hd : s.Droppable name src) :
    Cleared s [name] (s.outEdges name) (s.removeNode name) := by
  have hdag := dag_removeNode hs.wellFormed name
  refine ⟨(s.removeNode_frame name).1, fun k hk => taken_removeNode s name ▸ hk, ?_, ?_,
    hs.nodup_ids hs.nodup_outEdges fun e he => (hs.mem_outEdges.1 he).1, ?_, ?_⟩
  · intro k _
    rw [hdag, Digraph.mem_keys_dropVertex, List.mem_singleton, and_comm]
  · intro x y
    rw [hdag, hs.wellFormed.hasArc_dropVertex, List.mem_singleton, List.mem_singleton]
  · intro e he
    obtain ⟨ha, rfl⟩ := hs.mem_outEdges.1 he
    exact ⟨Digraph.hasArc_of_mem ha, .inl (List.mem_singleton_self _)⟩
  · intro x y hxy hk
    obtain ⟨a, ha, rfl, rfl⟩ := Digraph.hasArc_iff.1 hxy
    obtain ⟨hes, hed⟩ := hs.payload a ha
    have harc := hs.toArc_val ha
    have hid : a.val.id = EdgeId.arc a.src a.dst := by rw [Edge.id, hes, hed]
    rw [List.mem_singleton, List.mem_singleton] at hk
    rcases hk with hk | hk
    · exact .inl ⟨a.val, hs.mem_outEdges.2 ⟨harc ▸ ha, hes.trans hk⟩, hid⟩
    · have hin : a.val ∈ s.inEdges name := hs.mem_inEdges.2 ⟨harc ▸ ha, hed.trans hk⟩
      rw [hd.source, List.mem_singleton] at hin
      rw [← hid, hin]
      exact .inr hd.unregistered

/-- Replacing payloads does not matter to moved edges. -/
lemma renames_reread {hand : List Edge} (h : Renames g hand s) : Renames g hand (reread src s e) := by
  obtain ⟨hkeys, harcs, htaken, hremoved, hmoves, -⟩ := reread_frame src s e
  exact h.congr hmoves htaken hremoved hkeys harcs

/-- Feeding all consumers past a node, when that fits into a relation without cycles. -/
lemma foldl_bypass (hg : g.Regular) {r : String → String → Prop} (hr : ∀ x, ¬ Relation.TransGen r x x) :
    ∀ {es : List Edge} {s : Sandbox}, Tracks g o s → Renames g es s → (∀ x y, s.dag.hasArc x y → r x y) →
      src.src ∈ s.dag.keys → (∀ e ∈ es, e.dst ∈ s.dag.keys ∧ r src.src e.dst ∧ ¬ g.dag.hasArc src.src e.dst) →
      Renames g [] (es.foldl (bypass src) s)
  | [], _, _, h, _, _, _ => h
  | e :: es, s, hs, h, hsub, hsrc, hes => by
    rw [List.forall_mem_cons] at hes
    obtain ⟨⟨hdst, hre, hn⟩, hes⟩ := hes
    set t := reread src s e with ht
    have hkeys : t.dag.keys = s.dag.keys := (reread_frame src s e).1
    have hs₁ : Tracks g o t := reread_induct (fun _ _ _ ht => hs.updateNode ht) hs
    have hsub₁ : ∀ x y, t.dag.hasArc x y → r x y := by
      intro x y hxy
      rw [Digraph.hasArc_iff, ht, (reread_frame src s e).2.1, ← Digraph.hasArc_iff] at hxy
      exact hsub x y hxy
    have hsrc₁ : (movedPast src e).src ∈ t.dag.keys := hkeys ▸ hsrc
    have hdst₁ : (movedPast src e).dst ∈ t.dag.keys := hkeys ▸ hdst
    have hl : t.Lands (movedPast src e) := hs₁.wellFormed.addArc_of_acyclic hr hsub₁ (Digraph.hasVertex_iff.2 hsrc₁)
      (Digraph.hasVertex_iff.2 hdst₁) hre _
    have hrw := rewired_rewire hl e
    have hs₂ := hs₁.rewire e (show ¬ g.dag.hasArc (movedPast src e).src (movedPast src e).dst from hn)
    rw [List.foldl_cons, bypass_eq, ← ht]
    have hkeys₂ : (t.rewire e (movedPast src e)).dag.keys = s.dag.keys := hrw.keys.trans hkeys
    refine foldl_bypass hg hr hs₂ ((renames_reread h).rewired hs₁ hs₂ hg hrw hsrc₁ hdst₁ hn) ?_ (hkeys₂ ▸ hsrc)
      (hkeys₂ ▸ hes)
    intro x y hxy
    rcases hrw.hasArc.1 hxy with ⟨rfl, rfl⟩ | hxy
    · exact hre
    · exact hsub₁ x y hxy

/-- A drop leaves the sandbox settled. -/
lemma drop (h : Settled g s) (hs : Tracks g o s) (hc : Copied g o) {name : String} (hd : s.Droppable name src) :
    Settled g ((s.outEdges name).foldl (bypass src) (s.removeNode name)).pruneRenames := by
  have hs₁ := hs.removeNode hc hd.live (hs.anchors ▸ hd.inside)
  have hcl := cleared_removeNode hs hd
  obtain ⟨hsrc, hdst⟩ := hs.mem_inEdges.1 (hd.source ▸ List.mem_singleton_self src)
  have hadj : s.dag.Adj src.src name := hdst ▸ Digraph.hasArc_of_mem hsrc
  have hne : ∀ {x}, s.dag.Adj name x → x ≠ name := by
    rintro x hx rfl
    exact hs.acyclic x (.single hx)
  have hkeys : ∀ k, k ∈ s.dag.keys → k ≠ name → k ∈ (s.removeNode name).dag.keys := fun k hk hn =>
    (hcl.keys k (hs.live_taken k hk)).2 ⟨hk, by simpa using hn⟩
  have hpast := fun e he => hs.not_hasArc_past hc hd (e := e) he
  refine (foldl_bypass hc.regular (Digraph.Bypassed.acyclic hs.acyclic hadj) hs₁ (hcl.renames h hs hs₁ hc) ?_ ?_
    ?_).settled (hs₁.foldl_bypass hpast)
  · intro x y hxy
    obtain ⟨hxy, hx, hy⟩ := hcl.hasArc.1 hxy
    exact .inl ⟨hxy, by simpa using hx, by simpa using hy⟩
  · refine hkeys _ (hs.wellFormed.src_mem _ hsrc) ?_
    intro heq
    exact hs.acyclic name (.single (heq ▸ hadj))
  · intro e he
    obtain ⟨ha, hes⟩ := hs.mem_outEdges.1 he
    have hedge : s.dag.Adj name e.dst := hes ▸ Digraph.hasArc_of_mem ha
    exact ⟨hkeys _ (hs.wellFormed.dst_mem _ ha) (hne hedge), .inr ⟨rfl, hedge⟩, hpast e he⟩

/-- An edit leaves the sandbox settled. -/
lemma edit (h : Settled g s) (hs : Tracks g o s) (hc : Copied g o) {e : Edit} (haf : e.ArrowFree)
    (he : s.edit e = .ok t) : Settled g t := by
  cases e with
  | merge names f type pattern =>
    obtain ⟨n, rfl, hm, -, rfl⟩ := edit_merge_ok he
    exact h.contract hs hc hm haf _
  | drop name =>
    obtain ⟨src, hd, rfl⟩ := drop_ok_iff.1 he
    exact h.drop hs hc hd
  | update n =>
    have ht := hs.updateNode he
    obtain ⟨dag, hdag, -, rfl⟩ := updateNode_ok_iff.1 he
    have hren := h.renames.congr (t := { s with
      dag
      modified := if s.added.contains n.name then s.modified else s.modified.add n.name }) rfl rfl rfl
      (Digraph.keys_setVertex hdag) (Digraph.arcs_setVertex hdag)
    refine ⟨hren, fun ho => ?_⟩
    obtain ⟨x, y, hxy, hid⟩ := hs.hasEdge_iff.1 (h.live ho)
    refine ht.hasEdge_iff.2 ⟨x, y, ?_, hid⟩
    rwa [Digraph.hasArc_iff, Digraph.arcs_setVertex hdag, ← Digraph.hasArc_iff]

end Settled

end OpGraph.Sandbox
