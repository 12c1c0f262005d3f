import Mathlib
import OpGraph.Proofs.Sandbox.Topology

/-!
# Edits of a sandbox

A sandbox is changed by merging nodes, by dropping a node and by replacing the payload of a node. For each of these
it is stated what the sandbox checks, and which of its parts each of their steps leaves as it was. The notes on the
topology stay true whatever sequence of edits is performed, failing ones included.
-/

namespace OpGraph

variable {s t o : Sandbox} {n fused : Node} {g : Graph} {names : List String} {name : String}

/-- A change of a sandbox. -/
inductive Edit where
  | merge (names : List String) (fused type pattern : String)
  | drop (name : String)
  | update (node : Node)
  deriving Repr

/-- The node that an edit drops. -/
def Edit.dropped? : Edit → Option String
  | merge _ _ _ _ => none
  | drop name => some name
  | update _ => none

/-- The name an edit gives to a fused node holds no arrow. -/
def Edit.ArrowFree : Edit → Prop
  | merge _ fused _ _ => OpGraph.ArrowFree fused
  | drop _ => True
  | update _ => True

instance : DecidablePred Edit.ArrowFree
  | .merge _ fused _ _ => inferInstanceAs (Decidable (OpGraph.ArrowFree fused))
  | .drop _ => inferInstanceAs (Decidable True)
  | .update _ => inferInstanceAs (Decidable True)

/-- The arc an edge is filed under. -/
def Edge.toArc (e : Edge) : Arc Edge :=
  ⟨e.src, e.dst, e⟩

namespace Sandbox

/-- Makes a change. -/
def edit (s : Sandbox) : Edit → Except Error Sandbox
  | .merge names fused type pattern => (·.1) <$> s.merge names fused type pattern
  | .drop name => s.drop name
  | .update n => s.updateNode n

/-- Makes a change if it is allowed, and none otherwise. -/
def perform (s : Sandbox) (e : Edit) : Sandbox :=
  match s.edit e with
  | .ok t => t
  | .error _ => s

/-- Makes changes one after the other. -/
def performAll (s : Sandbox) (es : List Edit) : Sandbox :=
  es.foldl perform s

/-- What every allowed change preserves is preserved by a sequence of changes. -/
lemma performAll_induct {P : Sandbox → Prop} {es : List Edit}
    (step : ∀ s e t, e ∈ es → P s → s.edit e = .ok t → P t) (hs : P s) : P (s.performAll es) := by
  induction es generalizing s with
  | nil => exact hs
  | cons e es ih =>
    refine ih (fun s e' t he => step s e' t (List.mem_cons_of_mem _ he)) ?_
    unfold perform
    split
    · exact step s e _ List.mem_cons_self hs ‹_›
    · exact hs

/-! ### What is left as it was -/

/-- The nodes and edges and the notes on them. -/
def topology (s : Sandbox) :=
  (s.name, s.base, s.dag, s.anchors, s.taken, s.baseEdges, s.removedEdges, s.removedNodes, s.added, s.modified,
    s.committed)

/-- The registered edges and where they were moved from. -/
def moves (s : Sandbox) :=
  (s.registered, s.origin, s.renamed)

/-- The nodes at the boundary and what took their place. -/
def border (s : Sandbox) :=
  (s.ins, s.outs, s.boundary)

/-- The records of fused nodes. -/
def records (s : Sandbox) :=
  (s.merges, s.newMerges, s.supersedes)

/-- The moves are the same exactly if the registered edges, the origins and the new names are. -/
lemma moves_eq_iff : t.moves = s.moves ↔ t.registered = s.registered ∧ t.origin = s.origin ∧ t.renamed = s.renamed := by
  simp only [moves, Prod.mk.injEq]

/-- The border is the same exactly if the inputs, the outputs and what was replaced at the boundary are. -/
lemma border_eq_iff : t.border = s.border ↔ t.ins = s.ins ∧ t.outs = s.outs ∧ t.boundary = s.boundary := by
  simp only [border, Prod.mk.injEq]

/-- The records are the same exactly if the records, the new ones and the superseded ones are. -/
lemma records_eq_iff :
    t.records = s.records ↔ t.merges = s.merges ∧ t.newMerges = s.newMerges ∧ t.supersedes = s.supersedes := by
  simp only [records, Prod.mk.injEq]

/-- What each step leaves as it was is left so by many. -/
lemma foldl_eq_of_step {σ τ α : Type} {f : σ → α → σ} {π : σ → τ} (h : ∀ s x, π (f s x) = π s) :
    ∀ (xs : List α) (s : σ), π (xs.foldl f s) = π s
  | [], _ => rfl
  | x :: xs, s => (foldl_eq_of_step h xs (f s x)).trans (h s x)

/-- Retiring the record of a node touches neither the topology nor the moves nor the border. -/
lemma retire_frame (s : Sandbox) (name : String) :
    (s.retire name).topology = s.topology ∧ (s.retire name).moves = s.moves ∧ (s.retire name).border = s.border := by
  unfold retire
  dsimp only
  split_ifs <;> exact ⟨rfl, rfl, rfl⟩

/-- Removing a node touches neither the moves nor the border nor the records. -/
lemma removeNode_frame (s : Sandbox) (name : String) :
    (s.removeNode name).moves = s.moves ∧ (s.removeNode name).border = s.border ∧
      (s.removeNode name).records = s.records := by
  by_cases h : name ∈ s.dag.keys
  · obtain ⟨base, removed, he, -⟩ := removeNode_eq h
    rw [he]
    split_ifs <;> exact ⟨rfl, rfl, rfl⟩
  · rw [removeNode_of_not_mem h]
    exact ⟨rfl, rfl, rfl⟩

/-- Moving an edge touches neither the border nor the records. -/
lemma rewire_frame (s : Sandbox) (old new : Edge) :
    (s.rewire old new).border = s.border ∧ (s.rewire old new).records = s.records := by
  rcases rewire_eq s old new with ⟨dag, -, he⟩ | ⟨-, he⟩ | ⟨-, -, he⟩ <;> rw [he] <;> exact ⟨rfl, rfl⟩

/-- Moving the boundary touches neither the topology nor the moves nor the records. -/
lemma moveBoundary_frame (s : Sandbox) (old new : String) :
    (s.moveBoundary old new).topology = s.topology ∧ (s.moveBoundary old new).moves = s.moves ∧
      (s.moveBoundary old new).records = s.records := by
  unfold moveBoundary redirectBoundary
  dsimp only
  split_ifs <;> exact ⟨rfl, rfl, rfl⟩

/-- What replacing a payload does: the node keeps its place, and the sandbox notes the change of a node of the graph. -/
lemma updateNode_ok_iff :
    s.updateNode n = .ok t ↔ ∃ dag, s.dag.setVertex n.name n = .ok dag ∧ ¬ s.anchors.contains n.name ∧ t = { s with
      dag
      modified := if s.added.contains n.name then s.modified else s.modified.add n.name } := by
  unfold updateNode isAnchor
  cases s.dag.setVertex n.name n with
  | error e => simp
  | ok dag =>
    by_cases ha : s.anchors.contains n.name
    · simp [ha]
    · simp [ha, eq_comm]

/-- A sandbox of the same topology differs in the other parts only. -/
lemma eq_of_topology (he : t.topology = s.topology) : t = { s with
    registered := t.registered, ins := t.ins, outs := t.outs, merges := t.merges, origin := t.origin
    renamed := t.renamed, boundary := t.boundary, supersedes := t.supersedes, newMerges := t.newMerges } := by
  simp only [topology, Prod.mk.injEq] at he
  obtain ⟨h₁, h₂, h₃, h₄, h₅, h₆, h₇, h₈, h₉, h₁₀, h₁₁⟩ := he
  rw [← h₁, ← h₂, ← h₃, ← h₄, ← h₅, ← h₆, ← h₇, ← h₈, ← h₉, ← h₁₀, ← h₁₁]

/-- Only the topology matters to the notes on nodes. -/
lemma Roster.of_topology (h : Roster g o s) (he : t.topology = s.topology) : Roster g o t := by
  rw [eq_of_topology he]
  exact { h with }

/-- Only the topology matters to the notes on it. -/
lemma Tracks.of_topology (h : Tracks g o s) (he : t.topology = s.topology) : Tracks g o t := by
  rw [eq_of_topology he]
  exact { h with }

/-! ### What the edits check -/

/-- The conditions under which nodes can be merged. -/
structure Contractible (s : Sandbox) (names : List String) (fused : String) : Prop where
  isOpen : s.committed = false
  two : 2 ≤ names.length
  free : ¬ s.taken.contains fused
  nodup : names.Nodup
  live : ∀ m ∈ names, m ∈ s.dag.keys
  inside : ∀ m ∈ names, ¬ s.anchors.contains m
  unregistered : ∀ e ∈ s.inner names, ¬ s.isRegistered e.id
  convex : ∀ e ∈ s.outbound names, ∀ i ∈ s.inbound names, ¬ s.dag.reachable e.dst i.src

/-- The members are accepted exactly if they are distinct nodes of the sandbox that are no anchors and were not seen. -/
lemma checkMembers_ok_iff : ∀ {names seen : List String}, s.checkMembers seen names = .ok () ↔
      names.Nodup ∧ ∀ m ∈ names, m ∈ s.dag.keys ∧ ¬ s.anchors.contains m ∧ m ∉ seen
  | [], seen => by simp [checkMembers]
  | m :: names, seen => by
    unfold checkMembers isAnchor
    by_cases hm : m ∈ s.dag.keys
    · by_cases ha : s.anchors.contains m
      · simp [Digraph.hasVertex_iff.2 hm, ha]
      · by_cases hs : m ∈ seen
        · simp [Digraph.hasVertex_iff.2 hm, ha, hs]
        · simp only [Digraph.hasVertex_iff.2 hm, Bool.not_true, Bool.false_eq_true, ↓reduceIte, ha,
            List.contains_eq_mem, decide_eq_true_eq, hs, checkMembers_ok_iff, List.mem_cons, not_or, List.nodup_cons,
            forall_eq_or_imp, hm, not_false_eq_true, and_self, true_and]
          constructor
          · rintro ⟨hnd, h⟩
            exact ⟨⟨fun hmem => (h m hmem).2.2.1 rfl, hnd⟩, fun j hj => ⟨(h j hj).1, (h j hj).2.1, (h j hj).2.2.2⟩⟩
          · rintro ⟨⟨hn, hnd⟩, h⟩
            refine ⟨hnd, fun j hj => ⟨(h j hj).1, (h j hj).2.1, ?_, (h j hj).2.2⟩⟩
            rintro rfl
            exact hn hj
    · have hm' : s.dag.hasVertex m = false := by
        rw [← Bool.not_eq_true, Digraph.hasVertex_iff]
        exact hm
      simp [hm', hm]

/-- The checks of a merge, in their order. -/
lemma merge_eq (s : Sandbox) (names : List String) (fused type pattern : String) :
    s.merge names fused type pattern =
      if s.committed then .error .committed
      else if names.length < 2 then .error (.tooFew names.length)
      else if s.taken.contains fused then .error (.fusedTaken fused)
      else s.checkMembers [] names >>= fun _ =>
        match (s.inner names).find? fun e => s.isRegistered e.id with
        | some e => .error (.mergeConsumes e.id)
        | none =>
          match (s.outbound names).find? fun e => (s.inbound names).any fun i => s.dag.reachable e.dst i.src with
          | some e => .error (.mergeCycle names e.dst)
          | none => s.fusedNode names fused type >>= fun n =>
            .ok (s.contract names n (s.provenance names fused pattern), n) := by
  unfold merge
  dsimp only
  cases (s.inner names).find? fun e => s.isRegistered e.id <;>
    cases (s.outbound names).find? fun e => (s.inbound names).any fun i => s.dag.reachable e.dst i.src <;> rfl

/-- A merge of nodes that can be merged depends on their attributes only. -/
lemma Contractible.merge_eq {fused : String} (h : s.Contractible names fused) (type pattern : String) :
    s.merge names fused type pattern = s.fusedNode names fused type >>= fun n =>
      .ok (s.contract names n (s.provenance names fused pattern), n) := by
  have hin : (s.inner names).find? (fun e => s.isRegistered e.id) = none := List.find?_eq_none.2 h.unregistered
  have hout : (s.outbound names).find? (fun e => (s.inbound names).any fun i => s.dag.reachable e.dst i.src) =
      none := by
    refine List.find?_eq_none.2 fun e he ha => ?_
    obtain ⟨i, hi, hr⟩ := List.any_eq_true.1 ha
    exact h.convex e he i hi hr
  have hm : s.checkMembers [] names = .ok () :=
    checkMembers_ok_iff.2 ⟨h.nodup, fun m hm => ⟨h.live m hm, h.inside m hm, by simp⟩⟩
  rw [Sandbox.merge_eq, if_neg (by simp [h.isOpen]), if_neg (by have := h.two; omega), if_neg h.free, hm, hin, hout]
  rfl

/-- A merge succeeds exactly when the nodes can be contracted and their attributes fit together. -/
lemma merge_ok_iff {fused type pattern : String} : s.merge names fused type pattern = .ok (t, n) ↔
      s.Contractible names fused ∧ s.fusedNode names fused type = .ok n ∧
        t = s.contract names n (s.provenance names fused pattern) := by
  constructor
  · intro h
    rw [merge_eq] at h
    split at h
    · cases h
    rename_i hopen
    split at h
    · cases h
    rename_i htwo
    split at h
    · cases h
    rename_i hfree
    obtain ⟨hm, h⟩ := bind_unit_eq_ok.1 h
    obtain ⟨hnd, hm⟩ := checkMembers_ok_iff.1 hm
    split at h
    · cases h
    rename_i hin
    split at h
    · cases h
    rename_i hout
    obtain ⟨fn, hfn, h⟩ := bind_eq_ok.1 h
    cases h
    refine ⟨⟨by simpa using hopen, by omega, hfree, hnd, fun m hmem => (hm m hmem).1, fun m hmem => (hm m hmem).2.1,
      ?_, ?_⟩, hfn, rfl⟩
    · exact List.find?_eq_none.1 hin
    · intro e he i hi hr
      exact List.find?_eq_none.1 hout e he (List.any_eq_true.2 ⟨i, hi, hr⟩)
  · rintro ⟨h, hfn, rfl⟩
    rw [h.merge_eq, bind_eq_ok]
    exact ⟨n, hfn, rfl⟩

/-- The conditions under which a node can be dropped. -/
structure Droppable (s : Sandbox) (name : String) (src : Edge) : Prop where
  isOpen : s.committed = false
  live : name ∈ s.dag.keys
  inside : ¬ s.anchors.contains name
  notOutput : ¬ s.outs.contains name
  source : s.inEdges name = [src]
  unregistered : ¬ s.isRegistered src.id
  consumers : ∀ e ∈ s.outEdges name, ¬ s.anchors.contains e.dst ∧ ¬ s.isRegistered e.id ∧ ¬ s.dag.hasArc src.src e.dst

/-- The checks of a drop, in their order. -/
lemma dropSource_eq (s : Sandbox) (name : String) :
    s.dropSource name =
      if s.committed then .error .committed
      else if !s.dag.hasVertex name then .error (.nodeMissing name)
      else if s.anchors.contains name then .error (.nodeOutside name)
      else if s.outs.contains name then .error (.declaredOutput name)
      else match s.inEdges name with
        | [src] =>
          if s.isRegistered src.id then .error (.dropConsumes src.id)
          else (s.outEdges name).forM (s.checkBypass name src.src) >>= fun _ => .ok src
        | es => .error (.inputCount name es.length) := rfl

/-- A consumer can be joined to the producer exactly if it is no anchor, its edge is not registered, and it is not
joined. -/
lemma checkBypass_ok_iff {producer : String} {e : Edge} : s.checkBypass name producer e = .ok () ↔
      ¬ s.anchors.contains e.dst ∧ ¬ s.isRegistered e.id ∧ ¬ s.dag.hasArc producer e.dst := by
  unfold checkBypass isAnchor
  split_ifs <;> simp [*]

/-- A drop succeeds exactly when the node can be dropped. -/
lemma drop_ok_iff : s.drop name = .ok t ↔ ∃ src, s.Droppable name src ∧
      t = ((s.outEdges name).foldl (bypass src) (s.removeNode name)).pruneRenames := by
  have hdrop : s.drop name = .ok t ↔ ∃ src, s.dropSource name = .ok src ∧
      (.ok ((s.outEdges name).foldl (bypass src) (s.removeNode name)).pruneRenames : Except Error Sandbox) = .ok t :=
    bind_eq_ok
  rw [hdrop]
  refine exists_congr fun src => ?_
  rw [Except.ok.injEq, @eq_comm _ _ t]
  refine and_congr_left fun _ => ?_
  rw [dropSource_eq]
  constructor
  · intro h
    split at h
    · cases h
    rename_i hopen
    split at h
    · cases h
    rename_i hlive
    split at h
    · cases h
    rename_i hinside
    split at h
    · cases h
    rename_i hout
    split at h
    · rename_i src' hsrc
      split at h
      · cases h
      rename_i hreg
      obtain ⟨hall, h⟩ := bind_unit_eq_ok.1 h
      cases h
      rw [Bool.not_eq_true', Bool.not_eq_false, Digraph.hasVertex_iff] at hlive
      exact ⟨by simpa using hopen, hlive, hinside, hout, hsrc, hreg,
        fun e he => checkBypass_ok_iff.1 (forM_ok_iff.1 hall e he)⟩
    · cases h
  · intro h
    have hall : (s.outEdges name).forM (s.checkBypass name src.src) = .ok () :=
      forM_ok_iff.2 fun e he => checkBypass_ok_iff.2 (h.consumers e he)
    have hlive : ¬ (!s.dag.hasVertex name) = true := by
      rw [Bool.not_eq_true', Bool.not_eq_false, Digraph.hasVertex_iff]
      exact h.live
    rw [if_neg (by simp [h.isOpen]), if_neg hlive, if_neg h.inside, if_neg h.notOutput, h.source]
    dsimp only
    rw [if_neg h.unregistered, bind_unit_eq_ok]
    exact ⟨hall, rfl⟩

/-! ### Edges as arcs -/

namespace Roster

variable {g : Graph} {o s : Sandbox} {names : List String} {k : String} {e : Edge}

/-- An arc of a sandbox is that of the edge it holds. -/
lemma toArc_val (h : Roster g o s) {a : Arc Edge} (ha : a ∈ s.dag.arcs) : a.val.toArc = a := by
  obtain ⟨hs, hd⟩ := h.payload a ha
  rw [Edge.toArc, hs, hd]

lemma mem_inEdges (h : Roster g o s) : e ∈ s.inEdges k ↔ e.toArc ∈ s.dag.arcs ∧ e.dst = k := by
  simp only [inEdges, List.mem_map, h.wellFormed.mem_inArcs]
  constructor
  · rintro ⟨a, ⟨ha, rfl⟩, rfl⟩
    rw [h.toArc_val ha]
    exact ⟨ha, (h.payload a ha).2⟩
  · rintro ⟨ha, rfl⟩
    exact ⟨e.toArc, ⟨ha, rfl⟩, rfl⟩

lemma mem_outEdges (h : Roster g o s) : e ∈ s.outEdges k ↔ e.toArc ∈ s.dag.arcs ∧ e.src = k := by
  simp only [outEdges, List.mem_map, h.wellFormed.mem_outArcs]
  constructor
  · rintro ⟨a, ⟨ha, rfl⟩, rfl⟩
    rw [h.toArc_val ha]
    exact ⟨ha, (h.payload a ha).1⟩
  · rintro ⟨ha, rfl⟩
    exact ⟨e.toArc, ⟨ha, rfl⟩, rfl⟩

lemma mem_inner (h : Roster g o s) :
    e ∈ s.inner names ↔ e.toArc ∈ s.dag.arcs ∧ e.src ∈ names ∧ e.dst ∈ names := by
  simp only [inner, List.mem_flatMap, List.mem_filter, h.mem_inEdges, List.contains_eq_mem, decide_eq_true_eq]
  constructor
  · rintro ⟨k, hk, ⟨ha, rfl⟩, hs⟩
    exact ⟨ha, hs, hk⟩
  · rintro ⟨ha, hs, hd⟩
    exact ⟨e.dst, hd, ⟨ha, rfl⟩, hs⟩

lemma mem_inbound (h : Roster g o s) :
    e ∈ s.inbound names ↔ e.toArc ∈ s.dag.arcs ∧ e.src ∉ names ∧ e.dst ∈ names := by
  simp only [inbound, List.mem_flatMap, List.mem_filter, h.mem_inEdges, List.contains_eq_mem, Bool.not_eq_true',
    decide_eq_false_iff_not]
  constructor
  · rintro ⟨k, hk, ⟨ha, rfl⟩, hs⟩
    exact ⟨ha, hs, hk⟩
  · rintro ⟨ha, hs, hd⟩
    exact ⟨e.dst, hd, ⟨ha, rfl⟩, hs⟩

lemma mem_outbound (h : Roster g o s) :
    e ∈ s.outbound names ↔ e.toArc ∈ s.dag.arcs ∧ e.src ∈ names ∧ e.dst ∉ names := by
  simp only [outbound, List.mem_flatMap, List.mem_filter, h.mem_outEdges, List.contains_eq_mem, Bool.not_eq_true',
    decide_eq_false_iff_not]
  constructor
  · rintro ⟨k, hk, ⟨ha, rfl⟩, hd⟩
    exact ⟨ha, hk, hd⟩
  · rintro ⟨ha, hs, hd⟩
    exact ⟨e.src, hs, ⟨ha, rfl⟩, hd⟩

lemma val_mem_inbound (h : Roster g o s) {a : Arc Edge} (ha : a ∈ s.dag.arcs) (hsrc : a.src ∉ names)
    (hdst : a.dst ∈ names) : a.val ∈ s.inbound names :=
  h.mem_inbound.2 ⟨by rw [h.toArc_val ha]; exact ha, (h.payload a ha).1 ▸ hsrc, (h.payload a ha).2 ▸ hdst⟩

lemma val_mem_outbound (h : Roster g o s) {a : Arc Edge} (ha : a ∈ s.dag.arcs) (hsrc : a.src ∈ names)
    (hdst : a.dst ∉ names) : a.val ∈ s.outbound names :=
  h.mem_outbound.2 ⟨by rw [h.toArc_val ha]; exact ha, (h.payload a ha).1 ▸ hsrc, (h.payload a ha).2 ▸ hdst⟩

/-- The edges across the border of the members, contracted, close no cycle. -/
lemma contracted_acyclic (h : Roster g o s) {f : String} (hm : s.Contractible names f) (x : String) :
    ¬ Relation.TransGen (Digraph.Contracted s.dag.Adj (· ∈ names) f) x x := by
  have hf : f ∉ s.dag.keys := fun hk => hm.free (h.live_taken _ hk)
  refine Digraph.Contracted.acyclic h.acyclic ?_ ?_ ?_ x
  · exact fun x hx => hf (Digraph.hasVertex_iff.1 (h.wellFormed.hasVertex_dst hx))
  · exact fun x hx => hf (Digraph.hasVertex_iff.1 (h.wellFormed.hasVertex_src hx))
  · intro m y x m' hmem hy hmy hx hmem' hxm hpath
    obtain ⟨a, ha, rfl, rfl⟩ := Digraph.hasArc_iff.1 hmy
    obtain ⟨b, hb, rfl, rfl⟩ := Digraph.hasArc_iff.1 hxm
    refine hm.convex _ (h.val_mem_outbound ha hmem hy) _ (h.val_mem_inbound hb hx hmem')
      (h.wellFormed.proper.reachable_iff.2 ⟨?_, ?_⟩)
    · rw [(h.payload a ha).2]
      exact Digraph.hasVertex_iff.2 (h.wellFormed.dst_mem a ha)
    · rw [(h.payload a ha).2, (h.payload b hb).1]
      exact hpath

end Roster

namespace Tracks

variable {g : Graph} {o s : Sandbox} {names : List String} {k : String} {e : Edge}

/-- Edges that are there have different identifiers if they are different. -/
lemma nodup_ids (h : Tracks g o s) {es : List Edge} (hnd : es.Nodup) (hes : ∀ e ∈ es, e.toArc ∈ s.dag.arcs) :
    (es.map Edge.id).Nodup := by
  refine hnd.map_on ?_
  intro e he e' he' hid
  obtain ⟨hsrc, hdst⟩ := (EdgeId.arc_inj (h.arrowFree_live (h.wellFormed.src_mem _ (hes e he)))
    (h.arrowFree_live (h.wellFormed.src_mem _ (hes e' he')))).1 hid
  exact congrArg Arc.val (h.wellFormed.arc_unique (hes e he) (hes e' he') hsrc hdst)

/-- No two arcs of a tracked sandbox hold one edge. -/
lemma nodup_vals (h : Tracks g o s) {as : List (Arc Edge)} (hsub : as.Sublist s.dag.arcs) :
    (as.map (·.val)).Nodup := by
  refine ((h.wellFormed.arcs_nodup.of_map _).sublist hsub).map_on ?_
  intro a ha b hb heq
  rw [← h.toArc_val (hsub.subset ha), ← h.toArc_val (hsub.subset hb), heq]

lemma nodup_inEdges (h : Tracks g o s) : (s.inEdges k).Nodup := by
  refine h.nodup_vals ?_
  rw [h.wellFormed.inArcs_eq]
  exact List.filter_sublist

lemma nodup_outEdges (h : Tracks g o s) : (s.outEdges k).Nodup := by
  refine h.nodup_vals ?_
  rw [h.wellFormed.outArcs_eq, Digraph.arcsFrom]
  exact List.filter_sublist

lemma nodup_inbound (h : Tracks g o s) (hn : names.Nodup) : (s.inbound names).Nodup := by
  refine List.nodup_flatMap.2 ⟨fun k _ => h.nodup_inEdges.filter _, hn.imp ?_⟩
  intro j k hjk e hj hk
  exact hjk ((h.mem_inEdges.1 (List.mem_of_mem_filter hj)).2.symm.trans
    (h.mem_inEdges.1 (List.mem_of_mem_filter hk)).2)

lemma nodup_outbound (h : Tracks g o s) (hn : names.Nodup) : (s.outbound names).Nodup := by
  refine List.nodup_flatMap.2 ⟨fun k _ => h.nodup_outEdges.filter _, hn.imp ?_⟩
  intro j k hjk e hj hk
  exact hjk ((h.mem_outEdges.1 (List.mem_of_mem_filter hj)).2.symm.trans
    (h.mem_outEdges.1 (List.mem_of_mem_filter hk)).2)

/-- The edges across the border of a set of nodes have different identifiers. -/
lemma nodup_border (h : Tracks g o s) (hn : names.Nodup) :
    ((s.inbound names ++ s.outbound names).map Edge.id).Nodup := by
  refine h.nodup_ids (List.nodup_append.2 ⟨h.nodup_inbound hn, h.nodup_outbound hn, ?_⟩) ?_
  · rintro e he e' he' rfl
    exact (h.mem_inbound.1 he).2.1 (h.mem_outbound.1 he').2.1
  · intro e he
    rcases List.mem_append.1 he with he | he
    · exact (h.mem_inbound.1 he).1
    · exact (h.mem_outbound.1 he).1

/-- Two nodes that the graph joins are joined in the sandbox, unless both are neighbours of the region. -/
lemma hasArc_of_graph (h : Tracks g o s) (hc : Copied g o) {x y : String} (hx : x ∈ s.dag.keys) (hy : y ∈ s.dag.keys)
    (hn : ¬ (o.anchors.contains x ∧ o.anchors.contains y)) (hg : g.dag.hasArc x y) : s.dag.hasArc x y := by
  obtain ⟨a, ha, rfl, rfl⟩ := Digraph.hasArc_iff.1 hg
  have hsrc := (h.live hx).resolve_left (h.not_mem_added (hc.regular.dag.src_mem a ha))
  have hdst := (h.live hy).resolve_left (h.not_mem_added (hc.regular.dag.dst_mem a ha))
  have hmem : a ∈ o.dag.arcs := by
    rw [not_and_or] at hn
    exact hc.complete a ha (hn.imp (⟨hsrc, ·⟩) (⟨hdst, ·⟩))
  refine Digraph.hasArc_of_mem (h.mem_arcs_of_stays hmem ⟨fun hr => ?_, fun hr => ?_⟩)
  · exact (h.removed _ hr).2.2 hx
  · exact (h.removed _ hr).2.2 hy

end Tracks

/-! ### Taking members out -/

/-- Removing a node from a sandbox drops its vertex. -/
lemma dag_removeNode (wf : s.dag.WellFormed) (name : String) : (s.removeNode name).dag = s.dag.dropVertex name := by
  by_cases h : name ∈ s.dag.keys
  · obtain ⟨base, removed, he, -⟩ := removeNode_eq h
    rw [he]
    split_ifs <;> rfl
  · rw [removeNode_of_not_mem h]
    rw [← Digraph.hasVertex_iff] at h
    rw [wf.dropVertex_of_not_mem h]

/-- Removing nodes from a sandbox drops their vertices one after the other. -/
lemma dag_foldl_removeNode :
    ∀ (names : List String) {s : Sandbox}, s.dag.WellFormed →
      (names.foldl removeNode s).dag = names.foldl Digraph.dropVertex s.dag
  | [], _, _ => rfl
  | name :: names, s, wf => by
    have hd := dag_removeNode wf name
    rw [List.foldl_cons, dag_foldl_removeNode names (hd ▸ wf.dropVertex name), hd, List.foldl_cons]

/-- The name of a removed node stays taken. -/
lemma taken_removeNode (s : Sandbox) (name : String) : (s.removeNode name).taken = s.taken := by
  by_cases h : name ∈ s.dag.keys
  · obtain ⟨base, removed, he, -⟩ := removeNode_eq h
    rw [he]
    split_ifs <;> rfl
  · rw [removeNode_of_not_mem h]

/-- Taking out nodes inside the region keeps the notes on nodes true. -/
lemma Roster.foldl_removeNode :
    ∀ {names : List String} {s : Sandbox}, Roster g o s → names.Nodup → (∀ m ∈ names, m ∈ s.dag.keys) →
      (∀ m ∈ names, ¬ o.anchors.contains m) → Roster g o (names.foldl Sandbox.removeNode s)
  | [], _, h, _, _, _ => h
  | name :: names, s, h, hnd, hlive, hin => by
    rw [List.nodup_cons] at hnd
    rw [List.forall_mem_cons] at hlive hin
    rw [List.foldl_cons]
    refine foldl_removeNode (h.removeNode hlive.1 hin.1) hnd.2 (fun m hm => ?_) hin.2
    rw [dag_removeNode h.wellFormed, Digraph.mem_keys_dropVertex]
    refine ⟨?_, hlive.2 m hm⟩
    rintro rfl
    exact hnd.1 hm

namespace Tracks

variable {g : Graph} {o : Sandbox}

/-- Taking out nodes inside the region keeps the notes true. -/
lemma foldl_removeNode (hc : Copied g o) :
    ∀ {names : List String} {s : Sandbox}, Tracks g o s → names.Nodup → (∀ m ∈ names, m ∈ s.dag.keys) →
      (∀ m ∈ names, ¬ o.anchors.contains m) → Tracks g o (names.foldl Sandbox.removeNode s)
  | [], _, h, _, _, _ => h
  | name :: names, s, h, hnd, hlive, hin => by
    rw [List.nodup_cons] at hnd
    rw [List.forall_mem_cons] at hlive hin
    rw [List.foldl_cons]
    refine foldl_removeNode hc (h.removeNode hc hlive.1 hin.1) hnd.2 (fun m hm => ?_) hin.2
    rw [dag_removeNode h.wellFormed, Digraph.mem_keys_dropVertex]
    refine ⟨?_, hlive.2 m hm⟩
    rintro rfl
    exact hnd.1 hm

end Tracks

/-! ### Moving edges -/

/-- An edge into a member as an edge into the fused node. -/
def movedIn (fused : Node) (e : Edge) : Edge :=
  { e with dst := fused.name, dstSlot := slotOf fused.inputs e.var e.dstSlot, shape := [] }

/-- An edge out of a member as an edge out of the fused node. -/
def movedOut (fused : Node) (e : Edge) : Edge :=
  { e with src := fused.name, srcSlot := slotOf fused.outputs e.var e.srcSlot, shape := [] }

/-- The edge that feeds the consumer of `e` from the producer of `src`. -/
def movedPast (src e : Edge) : Edge :=
  { src with dst := e.dst, dstSlot := e.dstSlot, shape := [] }

/-- Moves edges one after the other. -/
def rewireAll (s : Sandbox) (ms : List (Edge × Edge)) : Sandbox :=
  ms.foldl (fun s m => s.rewire m.1 m.2) s

/-- The edges across the border of a set of nodes, each with the edge that takes its place. -/
def crossings (s : Sandbox) (names : List String) (fused : Node) : List (Edge × Edge) :=
  (s.inbound names).map (fun e => (e, movedIn fused e)) ++ (s.outbound names).map fun e => (e, movedOut fused e)

/-- The crossings of a merge are its inbound and outbound edges, each with the edge it becomes. -/
lemma mem_crossings {m : Edge × Edge} : m ∈ s.crossings names fused ↔
      (∃ e ∈ s.inbound names, (e, movedIn fused e) = m) ∨ ∃ e ∈ s.outbound names, (e, movedOut fused e) = m := by
  rw [crossings, List.mem_append, List.mem_map, List.mem_map]

/-- The sandbox with a fused node in the place of its members and before any edge is moved to it. -/
def replaced (s : Sandbox) (names : List String) (fused : Node) : Sandbox :=
  (names.foldl removeNode (names.foldl retire s)).addNode fused ((names.head?.bind s.dag.seq?).getD 0)

/-- Retiring records leaves the topology as it is. -/
lemma topology_foldl_retire (s : Sandbox) (names : List String) : (names.foldl retire s).topology = s.topology :=
  foldl_eq_of_step (fun s name => (s.retire_frame name).1) names s

/-- Retiring records leaves the digraph as it is. -/
lemma dag_foldl_retire (s : Sandbox) (names : List String) : (names.foldl retire s).dag = s.dag :=
  congrArg (·.2.2.1) (topology_foldl_retire s names)

/-- The nodes and edges with a fused node in the place of its members. -/
lemma replaced_eq (h : Roster g o s) (hm : s.Contractible names fused.name) :
    ∃ dag, (names.foldl Digraph.dropVertex s.dag).addVertexAt fused.name fused
        ((names.head?.bind s.dag.seq?).getD 0) = .ok dag ∧
      (s.replaced names fused).dag = dag ∧ (s.replaced names fused).taken = s.taken.add fused.name ∧
      (s.replaced names fused).moves = s.moves ∧ (s.replaced names fused).border = s.border ∧
      (s.replaced names fused).records = (names.foldl retire s).records := by
  set r := names.foldl retire s with hr
  have hdag : (names.foldl removeNode r).dag = names.foldl Digraph.dropVertex s.dag := by
    rw [dag_foldl_removeNode names (by rw [hr, dag_foldl_retire]; exact h.wellFormed), hr, dag_foldl_retire]
  have htaken : (names.foldl removeNode r).taken = s.taken := by
    rw [foldl_eq_of_step taken_removeNode]
    exact congrArg (·.2.2.2.2.1) (topology_foldl_retire s names)
  have hfree : fused.name ∉ (names.foldl removeNode r).dag.keys := by
    rw [hdag, Digraph.mem_keys_foldl_dropVertex]
    exact fun hk => hm.free (h.live_taken _ hk.1)
  obtain ⟨dag, hok, he⟩ := addNode_eq hfree ((names.head?.bind s.dag.seq?).getD 0)
  rw [hdag] at hok
  refine ⟨dag, hok, ?_, ?_, ?_, ?_, ?_⟩
  all_goals rw [replaced, he]
  · exact congrArg (NameSet.add · fused.name) htaken
  · exact (foldl_eq_of_step (fun s name => (s.removeNode_frame name).1) names r).trans
      (foldl_eq_of_step (fun s name => (s.retire_frame name).2.1) names s)
  · exact (foldl_eq_of_step (fun s name => (s.removeNode_frame name).2.1) names r).trans
      (foldl_eq_of_step (fun s name => (s.retire_frame name).2.2) names s)
  · exact foldl_eq_of_step (fun s name => (s.removeNode_frame name).2.2) names r

/-- After the members were replaced, the fused node is there beside the nodes that are no members. -/
lemma mem_keys_replaced (h : Roster g o s) (hm : s.Contractible names fused.name) {k : String} :
    k ∈ (s.replaced names fused).dag.keys ↔ k = fused.name ∨ k ∈ s.dag.keys ∧ k ∉ names := by
  obtain ⟨dag, hok, hdag, -⟩ := replaced_eq h hm
  rw [hdag, Digraph.mem_keys_addVertexAt hok, Digraph.mem_keys_foldl_dropVertex]

/-- After the members were replaced, the arcs between other nodes are left. -/
lemma hasArc_replaced (h : Roster g o s) (hm : s.Contractible names fused.name) {x y : String} :
    (s.replaced names fused).dag.hasArc x y ↔ s.dag.hasArc x y ∧ x ∉ names ∧ y ∉ names := by
  obtain ⟨dag, hok, hdag, -⟩ := replaced_eq h hm
  rw [hdag, Digraph.hasArc_iff, Digraph.arcs_addVertexAt hok, Digraph.hasArc_iff]
  simp only [h.wellFormed.mem_arcs_foldl_dropVertex]
  constructor
  · rintro ⟨a, ⟨ha, hs, hd⟩, rfl, rfl⟩
    exact ⟨⟨a, ha, rfl, rfl⟩, hs, hd⟩
  · rintro ⟨⟨a, ha, rfl, rfl⟩, hs, hd⟩
    exact ⟨a, ⟨ha, hs, hd⟩, rfl, rfl⟩

/-- A contraction step by step. -/
lemma contract_eq (s : Sandbox) (names : List String) (fused : Node) (record : MergeRecord) :
    let t := names.foldl (fun s name => s.moveBoundary name fused.name)
      ((s.replaced names fused).rewireAll (s.crossings names fused))
    s.contract names fused record = pruneRenames { t with
      merges := t.merges.insert fused.name record
      newMerges := t.newMerges ++ [fused.name] } := by
  simp only [rewireAll, crossings, List.foldl_append, List.foldl_map]
  rfl

/-- Moving the boundary from several nodes touches neither the topology nor the moves. -/
lemma foldl_moveBoundary_frame (names : List String) (new : String) (s : Sandbox) :
    let t := names.foldl (fun s name => s.moveBoundary name new) s
    t.topology = s.topology ∧ t.moves = s.moves :=
  ⟨@foldl_eq_of_step _ _ _ _ topology (fun s name => (s.moveBoundary_frame name new).1) names s,
    @foldl_eq_of_step _ _ _ _ moves (fun s name => (s.moveBoundary_frame name new).2.1) names s⟩

/-- Moving an edge leaves the names of the nodes, and those that are taken, as they are. -/
lemma keys_rewire (s : Sandbox) (old new : Edge) :
    (s.rewire old new).dag.keys = s.dag.keys ∧ (s.rewire old new).taken = s.taken := by
  rcases rewire_eq s old new with ⟨dag, hdag, he⟩ | ⟨-, he⟩ | ⟨-, -, he⟩
  · rw [he]
    exact ⟨Digraph.keys_addArc hdag, rfl⟩
  · rw [he]
    exact ⟨rfl, rfl⟩
  · rw [he]
    exact ⟨rfl, rfl⟩

/-- A merge has the nodes that are there before any edge is moved. -/
lemma keys_contract (s : Sandbox) (names : List String) (fused : Node) (record : MergeRecord) :
    (s.contract names fused record).dag.keys = (s.replaced names fused).dag.keys ∧
      (s.contract names fused record).taken = (s.replaced names fused).taken := by
  set w := (s.replaced names fused).rewireAll (s.crossings names fused) with hw
  have htop := @foldl_eq_of_step _ _ _ _ topology (fun s name => (s.moveBoundary_frame name fused.name).1) names w
  have hkeys : w.dag.keys = (s.replaced names fused).dag.keys :=
    @foldl_eq_of_step _ _ _ _ (fun s : Sandbox => s.dag.keys)
      (fun s (m : Edge × Edge) => (keys_rewire s m.1 m.2).1) _ _
  have htaken : w.taken = (s.replaced names fused).taken :=
    @foldl_eq_of_step _ _ _ _ (fun s : Sandbox => s.taken)
      (fun s (m : Edge × Edge) => (keys_rewire s m.1 m.2).2) _ _
  rw [contract_eq]
  exact ⟨(congrArg (fun t => t.2.2.1.keys) htop).trans hkeys, (congrArg (fun t => t.2.2.2.2.1) htop).trans htaken⟩

/-- After a merge the members are gone and the fused node is there. -/
lemma mem_keys_contract (h : Roster g o s) (hm : s.Contractible names fused.name) (record : MergeRecord) {k : String} :
    k ∈ (s.contract names fused record).dag.keys ↔ k = fused.name ∨ k ∈ s.dag.keys ∧ k ∉ names := by
  rw [(keys_contract s names fused record).1, mem_keys_replaced h hm]

/-- A merge takes the name of the fused node and no other one. -/
lemma taken_contract (h : Roster g o s) (hm : s.Contractible names fused.name) (record : MergeRecord) :
    (s.contract names fused record).taken = s.taken.add fused.name := by
  obtain ⟨-, -, -, htaken, -⟩ := replaced_eq h hm
  rw [(keys_contract s names fused record).2, htaken]

/-- Replaces what the consumer of an edge reads. -/
def reread (src : Edge) (s : Sandbox) (e : Edge) : Sandbox :=
  match s.node? e.dst with
  | none => s
  | some c => match s.updateNode (readInstead e.var src.var c) with
    | .ok s => s
    | .error _ => s

/-- Bypassing a node changes what the consumer reads and moves its edge. -/
lemma bypass_eq (src : Edge) (s : Sandbox) (e : Edge) : bypass src s e = (reread src s e).rewire e (movedPast src e) :=
  rfl

/-- What replacing the payload of a consumer preserves is preserved by replacing what it reads. -/
lemma reread_induct {P : Sandbox → Prop} {src e : Edge}
    (step : ∀ c t, s.node? e.dst = some c → s.updateNode (readInstead e.var src.var c) = .ok t → P t) (hs : P s) :
    P (reread src s e) := by
  unfold reread
  split
  · exact hs
  · rename_i c hc
    split
    · exact step c _ hc ‹_›
    · exact hs

/-- Changing what a consumer reads leaves everything but its node as it is. -/
lemma reread_frame (src : Edge) (s : Sandbox) (e : Edge) :
    let t := reread src s e
    t.dag.keys = s.dag.keys ∧ t.dag.arcs = s.dag.arcs ∧ t.taken = s.taken ∧ t.removedEdges = s.removedEdges ∧
      t.moves = s.moves ∧ t.border = s.border ∧ t.records = s.records := by
  refine reread_induct (P := fun t => t.dag.keys = s.dag.keys ∧ t.dag.arcs = s.dag.arcs ∧ t.taken = s.taken ∧
    t.removedEdges = s.removedEdges ∧ t.moves = s.moves ∧ t.border = s.border ∧ t.records = s.records)
    (fun c t _ ht => ?_) ⟨rfl, rfl, rfl, rfl, rfl, rfl, rfl⟩
  obtain ⟨dag, hdag, -, rfl⟩ := updateNode_ok_iff.1 ht
  exact ⟨Digraph.keys_setVertex hdag, Digraph.arcs_setVertex hdag, rfl, rfl, rfl, rfl, rfl⟩

/-- Feeding consumers past a node changes neither the nodes that are there nor the boundary nor the records. -/
lemma foldl_bypass_frame (src : Edge) (es : List Edge) (s : Sandbox) :
    let t := es.foldl (bypass src) s
    t.dag.keys = s.dag.keys ∧ t.taken = s.taken ∧ t.border = s.border ∧ t.records = s.records := by
  have hstep : ∀ (s : Sandbox) (e : Edge), ((bypass src s e).dag.keys, (bypass src s e).taken, (bypass src s e).border,
      (bypass src s e).records) = (s.dag.keys, s.taken, s.border, s.records) := by
    intro s e
    obtain ⟨hkeys, -, htaken, -, -, hborder, hrecords⟩ := reread_frame src s e
    obtain ⟨hkeys', htaken'⟩ := keys_rewire (reread src s e) e (movedPast src e)
    obtain ⟨hborder', hrecords'⟩ := rewire_frame (reread src s e) e (movedPast src e)
    rw [bypass_eq, hkeys', htaken', hborder', hrecords', hkeys, htaken, hborder, hrecords]
  simpa only [Prod.mk.injEq] using @foldl_eq_of_step _ _ _ _
    (fun s : Sandbox => (s.dag.keys, s.taken, s.border, s.records)) hstep es s

/-- What dropping a node leaves. -/
lemma drop_frame (h : Roster g o s) (name : String) (src : Edge) :
    let t := ((s.outEdges name).foldl (bypass src) (s.removeNode name)).pruneRenames
    (∀ k, k ∈ t.dag.keys ↔ k ∈ s.dag.keys ∧ k ≠ name) ∧ t.taken = s.taken ∧ t.border = s.border ∧
      t.records = s.records := by
  obtain ⟨hkeys, htaken, hborder, hrecords⟩ := foldl_bypass_frame src (s.outEdges name) (s.removeNode name)
  obtain ⟨-, hborder', hrecords'⟩ := s.removeNode_frame name
  refine ⟨fun k => ?_, htaken.trans (taken_removeNode s name), hborder.trans hborder', hrecords.trans hrecords'⟩
  have hk : k ∈ ((s.outEdges name).foldl (bypass src) (s.removeNode name)).dag.keys ↔ k ≠ name ∧ k ∈ s.dag.keys := by
    rw [hkeys, dag_removeNode h.wellFormed, Digraph.mem_keys_dropVertex]
  exact hk.trans and_comm

/-- The fused node is made exactly if the attributes of its members go together. -/
lemma fusedNode_ok_iff {type : String} :
    s.fusedNode names name type = .ok n ↔ ∃ attrs, s.fusedAttrs names = .ok attrs ∧ n = {
      name, type, attrs
      precision := ((s.nodesOf names).head?.map (·.precision)).getD .fp32
      inputs := s.fusedInputs names
      outputs := s.fusedOutputs names } := by
  unfold fusedNode
  rw [bind_eq_ok]
  refine exists_congr fun attrs => and_congr_right fun _ => ?_
  exact ⟨fun h => by cases h; rfl, fun h => by rw [h]; rfl⟩

/-- The fused node has the name that was asked for. -/
lemma fusedNode_name {type : String} (h : s.fusedNode names name type = .ok n) : n.name = name := by
  obtain ⟨attrs, -, rfl⟩ := fusedNode_ok_iff.1 h
  rfl

/-- An edit that merges members contracts them to the fused node. -/
lemma edit_merge_ok {type pattern : String} (he : s.edit (.merge names name type pattern) = .ok t) :
    ∃ n, n.name = name ∧ s.Contractible names n.name ∧ s.fusedNode names n.name type = .ok n ∧
      t = s.contract names n (s.provenance names n.name pattern) := by
  obtain ⟨⟨t', n⟩, hok, rfl⟩ := map_eq_ok.1 he
  obtain ⟨hm, hn, rfl⟩ := merge_ok_iff.1 hok
  obtain rfl := fusedNode_name hn
  exact ⟨n, rfl, hm, hn, rfl⟩

namespace Roster

variable {g : Graph} {o s t : Sandbox} {names : List String} {fused : Node}

/-- Putting a fused node in the place of its members keeps the notes on nodes true. -/
lemma replaced (h : Roster g o s) (hm : s.Contractible names fused.name) : Roster g o (s.replaced names fused) := by
  have htop := topology_foldl_retire s names
  have hdag : (names.foldl Sandbox.retire s).dag = s.dag := congrArg (·.2.2.1) htop
  have htaken : (names.foldl Sandbox.retire s).taken = s.taken := congrArg (·.2.2.2.2.1) htop
  have h₁ : Roster g o (names.foldl Sandbox.retire s) := h.of_topology htop
  have h₂ : Roster g o (names.foldl Sandbox.removeNode (names.foldl Sandbox.retire s)) :=
    foldl_removeNode h₁ hm.nodup (hdag ▸ hm.live) (h.anchors ▸ hm.inside)
  refine h₂.addNode ?_ _
  rw [foldl_eq_of_step taken_removeNode, htaken]
  exact hm.free

/-- A merge keeps the notes on nodes true. -/
lemma contract (h : Roster g o s) (hm : s.Contractible names fused.name) (record : MergeRecord) :
    Roster g o (s.contract names fused record) := by
  have hmoved : Roster g o ((s.replaced names fused).rewireAll (s.crossings names fused)) :=
    List.foldlRecOn _ _ (h.replaced hm) fun _ h m _ => h.rewire m.1 m.2
  rw [contract_eq]
  refine hmoved.of_topology ?_
  exact @foldl_eq_of_step _ _ _ _ topology (fun s name => (s.moveBoundary_frame name fused.name).1) names _

/-- Feeding consumers past a node keeps the notes on nodes true. -/
lemma foldl_bypass (h : Roster g o s) (src : Edge) (es : List Edge) : Roster g o (es.foldl (bypass src) s) :=
  List.foldlRecOn _ _ h fun s h e _ =>
    Roster.rewire (s := reread src s e) (reread_induct (fun _ _ _ ht => h.updateNode ht) h) e (movedPast src e)

/-- An edit keeps the notes on nodes true. -/
lemma edit (h : Roster g o s) {e : Edit} (he : s.edit e = .ok t) : Roster g o t := by
  cases e with
  | merge names f type pattern =>
    obtain ⟨n, rfl, hm, -, rfl⟩ := edit_merge_ok he
    exact h.contract hm _
  | drop name =>
    obtain ⟨src, hd, rfl⟩ := drop_ok_iff.1 he
    exact ((h.removeNode hd.live (h.anchors ▸ hd.inside)).foldl_bypass src _).of_topology rfl
  | update n => exact h.updateNode he

end Roster

namespace Tracks

variable {g : Graph} {o s t : Sandbox} {names : List String} {fused : Node}

/-- Moving edges to where the graph has none keeps a sandbox tracked. -/
lemma rewireAll :
    ∀ {ms : List (Edge × Edge)} {s : Sandbox}, Tracks g o s → (∀ m ∈ ms, ¬ g.dag.hasArc m.2.src m.2.dst) →
      Tracks g o (s.rewireAll ms)
  | [], _, h, _ => h
  | m :: ms, s, h, hn => by
    rw [List.forall_mem_cons] at hn
    exact rewireAll (s := s.rewire m.1 m.2) (h.rewire m.1 hn.1) hn.2

/-- Putting a fused node in the place of its members keeps the notes true. -/
lemma replaced (h : Tracks g o s) (hc : Copied g o) (hm : s.Contractible names fused.name)
    (haf : ArrowFree fused.name) : Tracks g o (s.replaced names fused) := by
  have htop := topology_foldl_retire s names
  have hdag : (names.foldl Sandbox.retire s).dag = s.dag := congrArg (·.2.2.1) htop
  have htaken : (names.foldl Sandbox.retire s).taken = s.taken := congrArg (·.2.2.2.2.1) htop
  have h₁ : Tracks g o (names.foldl Sandbox.retire s) := h.of_topology htop
  have h₂ : Tracks g o (names.foldl Sandbox.removeNode (names.foldl Sandbox.retire s)) :=
    foldl_removeNode hc h₁ hm.nodup (hdag ▸ hm.live) (h.anchors ▸ hm.inside)
  refine h₂.addNode ?_ haf _
  rw [foldl_eq_of_step taken_removeNode, htaken]
  exact hm.free

/-- Moving the edges across the border of the members to the fused node keeps the notes true. -/
lemma crossed (h : Tracks g o s) (hc : Copied g o) (hm : s.Contractible names fused.name)
    (haf : ArrowFree fused.name) : Tracks g o ((s.replaced names fused).rewireAll (s.crossings names fused)) := by
  have hg : ∀ x, ¬ g.dag.hasArc x fused.name ∧ ¬ g.dag.hasArc fused.name x := by
    intro x
    have hn : fused.name ∉ g.dag.keys := fun hk => hm.free (h.taken _ hk)
    exact ⟨fun ha => hn (Digraph.hasVertex_iff.1 (hc.regular.dag.hasVertex_dst ha)),
      fun ha => hn (Digraph.hasVertex_iff.1 (hc.regular.dag.hasVertex_src ha))⟩
  refine (h.replaced hc hm haf).rewireAll ?_
  intro m hmem
  rcases mem_crossings.1 hmem with ⟨e, -, rfl⟩ | ⟨e, -, rfl⟩
  · exact (hg _).1
  · exact (hg _).2

/-- A merge keeps the notes true. -/
lemma contract (h : Tracks g o s) (hc : Copied g o) (hm : s.Contractible names fused.name)
    (haf : ArrowFree fused.name) (record : MergeRecord) : Tracks g o (s.contract names fused record) := by
  rw [contract_eq]
  refine (h.crossed hc hm haf).of_topology ?_
  exact @foldl_eq_of_step _ _ _ _ topology (fun s name => (s.moveBoundary_frame name fused.name).1) names _

/-- Feeding consumers past a node keeps the notes true. -/
lemma foldl_bypass {src : Edge} :
    ∀ {es : List Edge} {s : Sandbox}, Tracks g o s → (∀ e ∈ es, ¬ g.dag.hasArc src.src e.dst) →
      Tracks g o (es.foldl (bypass src) s)
  | [], _, h, _ => h
  | e :: es, s, h, hn => by
    rw [List.forall_mem_cons] at hn
    have h₁ : Tracks g o (reread src s e) := reread_induct (fun _ _ _ ht => h.updateNode ht) h
    exact foldl_bypass (s := bypass src s e) (h₁.rewire e hn.1) hn.2

/-- The graph has no edge from the producer of a node that can be dropped to its consumers. -/
lemma not_hasArc_past (h : Tracks g o s) (hc : Copied g o) {src e : Edge} (hd : s.Droppable name src)
    (he : e ∈ s.outEdges name) : ¬ g.dag.hasArc src.src e.dst := by
  intro hg
  obtain ⟨hsrc, -⟩ := h.mem_inEdges.1 (hd.source ▸ List.mem_singleton_self src)
  obtain ⟨hdst, -⟩ := h.mem_outEdges.1 he
  obtain ⟨ha, -, hn⟩ := hd.consumers e he
  refine hn (h.hasArc_of_graph hc (h.wellFormed.src_mem _ hsrc) (h.wellFormed.dst_mem _ hdst) ?_ hg)
  rw [h.anchors] at ha
  exact fun hboth => ha hboth.2

/-- An edit keeps the notes true. -/
lemma edit (h : Tracks g o s) (hc : Copied g o) {e : Edit} (haf : e.ArrowFree) (he : s.edit e = .ok t) :
    Tracks g o t := by
  cases e with
  | merge names f type pattern =>
    obtain ⟨n, rfl, hm, -, rfl⟩ := edit_merge_ok he
    exact h.contract hc hm haf _
  | drop name =>
    obtain ⟨src, hd, rfl⟩ := drop_ok_iff.1 he
    have h₁ := h.removeNode hc hd.live (h.anchors ▸ hd.inside)
    exact (h₁.foldl_bypass fun e he => h.not_hasArc_past hc hd he).of_topology rfl
  | update n => exact h.updateNode he

end Tracks

end Sandbox

end OpGraph
