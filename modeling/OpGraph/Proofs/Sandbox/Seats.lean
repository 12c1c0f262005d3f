import Mathlib
import OpGraph.Proofs.Graph.Calls
import OpGraph.Proofs.Sandbox.Histories

/-!
# The order of nodes

Nodes are listed by ascending sequence numbers, and putting a node in at a given number does not check that the number
is free. A fused node takes the number of its first member, in the sandbox and again when the patch is applied, and by
then nodes may have been put into the graph and taken out of it. `Graph.Shared` follows a graph together with all
sandboxes taken from it. Two nodes never get one number: a number that a patch brings along is held in the graph by a
node that the patch takes out, or by none.
-/

namespace OpGraph

variable {k : String} {n : UInt64} {e : Edit}

namespace Digraph

variable {α β : Type} {g g' : Digraph α β}

/-! ### Seats -/

/-- The vertices without their payloads: the names and the numbers. -/
def seats (g : Digraph α β) : List (String × UInt64) :=
  g.vertices.map fun v => (v.key, v.seq)

/-- The vertices are listed by their numbers, and no number is given twice. -/
def Ascending (g : Digraph α β) : Prop :=
  g.seats.Pairwise fun x y => x.2 < y.2

/-- The order of the vertices is the only one by their numbers: no two vertices have one number, the vertices are listed
by strictly ascending numbers, and whatever order they are sorted from, sorting them leads to this list. -/
structure Unambiguous (g : Digraph α β) : Prop where
  distinct : ∀ v ∈ g.vertices, ∀ w ∈ g.vertices, v.seq = w.seq → v = w
  sorted : g.vertices.Pairwise fun v w => v.seq < w.seq
  unique : ∀ vs : List (Vertex α), vs.Perm g.vertices → (vs.Pairwise fun v w => v.seq ≤ w.seq) → vs = g.vertices

/-- The name on a seat is that of a vertex. -/
lemma fst_mem_keys {x : String × UInt64} (h : x ∈ g.seats) : x.1 ∈ g.keys := by
  obtain ⟨v, hv, rfl⟩ := List.mem_map.1 h
  exact List.mem_map_of_mem hv

/-- The number of a vertex is on its seat. -/
lemma seat_mem_of_seq? (h : g.seq? k = some n) : (k, n) ∈ g.seats := by
  obtain ⟨v, hv, rfl⟩ := Option.map_eq_some_iff.1 h
  exact List.mem_map.2 ⟨v, mem_of_vertex? hv, by rw [key_of_vertex? hv]⟩

/-- Vertices may have gone, but none came and no number was given out. -/
structure Thins (g g' : Digraph α β) : Prop where
  seats : g'.seats.Sublist g.seats
  nextSeq : g'.nextSeq = g.nextSeq

namespace Thins

lemma refl (g : Digraph α β) : Thins g g :=
  ⟨.refl _, rfl⟩

lemma trans {g'' : Digraph α β} (h : Thins g g') (h' : Thins g' g'') : Thins g g'' :=
  ⟨h'.seats.trans h.seats, h'.nextSeq.trans h.nextSeq⟩

/-- The removal of a vertex gives out no number. -/
lemma dropVertex (g : Digraph α β) (k : String) : Thins g (g.dropVertex k) := by
  refine ⟨?_, nextSeq_dropVertex g k⟩
  rw [Digraph.seats, vertices_dropVertex]
  exact List.filter_sublist.map _

/-- The removal of an arc leaves all seats. -/
lemma dropArc (g : Digraph α β) (src dst : String) : Thins g (g.dropArc src dst) := by
  refine ⟨?_, nextSeq_dropArc g src dst⟩
  rw [Digraph.seats, vertices_dropArc, Digraph.seats]

/-- An arc that is added changes no seat and takes no number. -/
lemma addArc {src dst : String} {val : β} (h : g.addArc src dst val = .ok g') : Thins g g' := by
  obtain ⟨-, -, -, -, -, rfl⟩ := addArc_ok_iff.1 h
  exact ⟨.refl _, rfl⟩

end Thins

/-- New payloads for some vertices leave the seats as they are. -/
lemma seats_map_payload {p : Vertex α → Prop} [DecidablePred p] (f : α → α) (vs : List (Vertex α)) :
    ((vs.map fun v => if p v then { v with val := f v.val } else v).map fun v => (v.key, v.seq)) =
      vs.map fun v => (v.key, v.seq) := by
  rw [List.map_map]
  apply List.map_congr_left
  intro v _
  rw [Function.comp_apply]
  split <;> rfl

/-- Setting what a vertex holds leaves the seats as they are. -/
lemma seats_setVertex {val : α} (h : g.setVertex k val = .ok g') : g'.seats = g.seats := by
  obtain ⟨-, rfl⟩ := setVertex_ok_iff.1 h
  exact seats_map_payload (fun _ => val) g.vertices

/-- Setting what a vertex holds changes no seat and takes no number. -/
lemma Thins.setVertex {val : α} (h : g.setVertex k val = .ok g') : Thins g g' := by
  refine ⟨seats_setVertex h ▸ .refl _, ?_⟩
  obtain ⟨-, rfl⟩ := setVertex_ok_iff.1 h
  rfl

/-- A vertex that is added at a number takes that seat, and all others are kept. -/
lemma seats_addVertexAt {val : α} (h : g.addVertexAt k val n = .ok g') : g'.seats.Perm ((k, n) :: g.seats) := by
  obtain ⟨-, rfl⟩ := addVertexAt_ok_iff.1 h
  exact (place_perm _ g.vertices).map _

/-- A vertex that is put where its number belongs leaves the list sorted if no other vertex has that number. -/
lemma pairwise_place {v : Vertex α} {ws : List (Vertex α)} (h : ws.Pairwise fun v w => v.seq < w.seq)
    (hne : ∀ w ∈ ws, w.seq ≠ v.seq) : (place v ws).Pairwise fun v w => v.seq < w.seq := by
  induction ws with
  | nil => exact List.pairwise_singleton _ v
  | cons w ws ih =>
    rw [List.pairwise_cons] at h
    rw [List.forall_mem_cons] at hne
    rw [place]
    split
    · rename_i hlt
      refine List.pairwise_cons.2 ⟨?_, List.pairwise_cons.2 h⟩
      intro u hu
      cases List.mem_cons.1 hu with
      | inl hu => exact hu ▸ hlt
      | inr hu => exact UInt64.lt_trans hlt (h.1 u hu)
    · rename_i hlt
      refine List.pairwise_cons.2 ⟨?_, ih h.2 hne.2⟩
      intro u hu
      cases List.mem_cons.1 ((place_perm v ws).mem_iff.1 hu) with
      | inl hu => exact hu ▸ UInt64.lt_of_le_of_ne (UInt64.not_lt.1 hlt) hne.1
      | inr hu => exact h.1 u hu

namespace Ascending

lemma of_seats (h : g.Ascending) {γ δ : Type} {g' : Digraph γ δ} (hs : g'.seats.Sublist g.seats) : g'.Ascending :=
  List.Pairwise.sublist hs h

/-- The vertices of an ascending digraph are sorted by their numbers. -/
lemma sorted (h : g.Ascending) : g.vertices.Pairwise fun v w => v.seq < w.seq := by
  rwa [Ascending, seats, List.pairwise_map] at h

/-- A number belongs to one vertex. -/
lemma eq_of_snd_eq (h : g.Ascending) {x y : String × UInt64} (hx : x ∈ g.seats) (hy : y ∈ g.seats) (he : x.2 = y.2) :
    x = y := by
  have hnd : (g.seats.map (·.2)).Nodup := List.pairwise_map.2 (h.imp fun hlt => UInt64.ne_of_lt hlt)
  exact List.inj_on_of_nodup_map hnd hx hy he

/-- A vertex that is added at a free number keeps a digraph ascending. -/
lemma addVertexAt (h : g.Ascending) {val : α} (hok : g.addVertexAt k val n = .ok g')
    (hfree : ∀ x ∈ g.seats, x.2 ≠ n) : g'.Ascending := by
  obtain ⟨-, rfl⟩ := addVertexAt_ok_iff.1 hok
  apply List.pairwise_map.2
  exact pairwise_place h.sorted fun w hw => hfree (w.key, w.seq) (List.mem_map_of_mem hw)

/-- Vertices that are listed by their numbers are so in one order only. -/
lemma unambiguous (h : g.Ascending) : g.Unambiguous := by
  have hdistinct : ∀ v ∈ g.vertices, ∀ w ∈ g.vertices, v.seq = w.seq → v = w := by
    have hnd : (g.vertices.map (·.seq)).Nodup := List.pairwise_map.2 (h.sorted.imp fun hlt => UInt64.ne_of_lt hlt)
    exact fun v hv w hw he => List.inj_on_of_nodup_map hnd hv hw he
  refine ⟨hdistinct, h.sorted, fun vs hp hs => ?_⟩
  have hle : g.vertices.Pairwise fun v w => v.seq ≤ w.seq := h.sorted.imp fun hlt => UInt64.le_of_lt hlt
  refine List.Perm.eq_of_pairwise (fun v w hv hw hvw hwv => ?_) hs hle hp
  exact hdistinct v (hp.mem_iff.1 hv) w hw (UInt64.le_antisymm hvw hwv)

end Ascending

/-- The vertices are listed by their numbers, all of which were given out before. -/
structure Ordered (g : Digraph α β) : Prop where
  ascending : g.Ascending
  below : ∀ x ∈ g.seats, x.2 < g.nextSeq

namespace Ordered

/-- A digraph that thins out stays in order. -/
lemma thins (h : g.Ordered) (ht : Thins g g') : g'.Ordered :=
  ⟨h.ascending.of_seats ht.seats, fun x hx => ht.nextSeq ▸ h.below x (ht.seats.subset hx)⟩

/-- A number that was given out before and that no vertex has can be given again. -/
lemma reuse (h : g.Ordered) {val : α} (hok : g.addVertexAt k val n = .ok g')
    (hfree : ∀ x ∈ g.seats, x.2 ≠ n) (hn : n < g.nextSeq) : g'.Ordered ∧ g'.nextSeq = g.nextSeq := by
  have hnext : g'.nextSeq = g.nextSeq := by
    obtain ⟨-, rfl⟩ := addVertexAt_ok_iff.1 hok
    exact if_neg (UInt64.not_le.2 hn)
  refine ⟨⟨h.ascending.addVertexAt hok hfree, fun x hx => ?_⟩, hnext⟩
  rw [hnext]
  cases List.mem_cons.1 ((seats_addVertexAt hok).mem_iff.1 hx) with
  | inl hx => exact hx ▸ hn
  | inr hx => exact h.below x hx

/-- The next number is free, and as long as there is another one it comes behind all that were given out. -/
lemma addNext (h : g.Ordered) {val : α} (hok : g.addVertexAt k val g.nextSeq = .ok g')
    (hroom : g.nextSeq.toNat + 1 < UInt64.size) : g'.Ordered ∧ g'.nextSeq.toNat = g.nextSeq.toNat + 1 := by
  have hnext : g'.nextSeq = g.nextSeq + 1 := by
    obtain ⟨-, rfl⟩ := addVertexAt_ok_iff.1 hok
    exact if_pos (UInt64.le_refl _)
  have hnat : g'.nextSeq.toNat = g.nextSeq.toNat + 1 := by
    rw [hnext, UInt64.toNat_add, UInt64.toNat_one, Nat.mod_eq_of_lt hroom]
  refine ⟨⟨h.ascending.addVertexAt hok fun x hx => UInt64.ne_of_lt (h.below x hx), fun x hx => ?_⟩, hnat⟩
  rw [UInt64.lt_iff_toNat_lt, hnat]
  cases List.mem_cons.1 ((seats_addVertexAt hok).mem_iff.1 hx) with
  | inl hx => exact hx ▸ Nat.lt_succ_self _
  | inr hx => exact Nat.lt_succ_of_lt (UInt64.lt_iff_toNat_lt.1 (h.below x hx))

end Ordered

end Digraph

namespace Sandbox

variable {g : Graph} {o s t : Sandbox}

/-! ### Edits -/

/-- Moving an edge leaves the seats as they are. -/
lemma seats_rewire (s : Sandbox) (old new : Edge) : (s.rewire old new).dag.seats = s.dag.seats := by
  rw [Digraph.seats, vertices_rewire, Digraph.seats]

/-- Updating a node leaves the seats as they are. -/
lemma seats_updateNode {n : Node} (h : s.updateNode n = .ok t) : t.dag.seats = s.dag.seats := by
  obtain ⟨dag, hdag, -, rfl⟩ := updateNode_ok_iff.1 h
  exact Digraph.seats_setVertex hdag

/-- Joining a consumer past a node leaves the seats as they are. -/
lemma seats_bypass (src : Edge) (s : Sandbox) (e : Edge) : (bypass src s e).dag.seats = s.dag.seats := by
  rw [bypass_eq, seats_rewire]
  exact reread_induct (P := fun t => t.dag.seats = s.dag.seats) (fun _ _ _ ht => seats_updateNode ht) rfl

/-- A drop takes a seat away. -/
lemma seats_drop_sublist (h : Roster g o s) {name : String} (hok : s.drop name = .ok t) :
    t.dag.seats.Sublist s.dag.seats := by
  obtain ⟨src, -, rfl⟩ := drop_ok_iff.1 hok
  have hfold : ((s.outEdges name).foldl (bypass src) (s.removeNode name)).dag.seats = (s.removeNode name).dag.seats :=
    @foldl_eq_of_step _ _ _ _ (fun s : Sandbox => s.dag.seats) (seats_bypass src) _ _
  show ((s.outEdges name).foldl (bypass src) (s.removeNode name)).dag.seats.Sublist s.dag.seats
  rw [hfold, dag_removeNode h.wellFormed]
  exact (Digraph.Thins.dropVertex s.dag name).seats

/-- The seats after a merge are those after the members were replaced. -/
lemma seats_contract (s : Sandbox) (names : List String) (fused : Node) (record : MergeRecord) :
    (s.contract names fused record).dag.seats = (s.replaced names fused).dag.seats := by
  obtain ⟨htop, -⟩ := foldl_moveBoundary_frame names fused.name
    ((s.replaced names fused).rewireAll (s.crossings names fused))
  rw [contract_eq]
  refine (congrArg (fun t => t.2.2.1.seats) htop).trans ?_
  exact congrArg (List.map fun v => (v.key, v.seq)) (vertices_rewireAll _ _)

/-- A merge takes the seats of its members away and gives the number of the first one to the fused node. -/
lemma seats_merge (h : Roster g o s) {names : List String} {fused : Node} (hm : s.Contractible names fused.name)
    (record : MergeRecord) :
    ∃ m n, ∃ dag dag' : Digraph Node Edge, m ∈ names ∧ (m, n) ∈ s.dag.seats ∧ dag.seats.Sublist s.dag.seats ∧
    (∀ m ∈ names, m ∉ dag.keys) ∧
      dag.addVertexAt fused.name fused n = .ok dag' ∧ (s.contract names fused record).dag.seats = dag'.seats := by
  obtain ⟨dag, hok, hdag, -⟩ := replaced_eq h hm
  have htwo := hm.two
  cases hn : names with
  | nil =>
    rw [hn] at htwo
    exact absurd htwo (by decide)
  | cons m ms =>
    have hmem : m ∈ names := hn ▸ List.mem_cons_self
    obtain ⟨v, hv⟩ := Digraph.hasVertex_iff_exists.1 (Digraph.hasVertex_iff.2 (hm.live m hmem))
    have hseq : s.dag.seq? m = some v.seq := by rw [Digraph.seq?, hv, Option.map_some]
    rw [hn, List.head?_cons, Option.bind_some, hseq, Option.getD_some] at hok
    refine ⟨m, v.seq, _, dag, hn ▸ hmem, Digraph.seat_mem_of_seq? hseq, ?_, ?_, hok, ?_⟩
    · exact List.foldlRecOn (m :: ms) Digraph.dropVertex (List.Sublist.refl s.dag.seats) fun d hd k _ =>
        (Digraph.Thins.dropVertex d k).seats.trans hd
    · exact fun k hk hlive => (Digraph.mem_keys_foldl_dropVertex.1 hlive).2 hk
    · rw [← hn, seats_contract, hdag]

/-- An edit leaves the nodes listed by their numbers. -/
lemma ascending_edit (h : Roster g o s) (ha : s.dag.Ascending) (he : s.edit e = .ok t) : t.dag.Ascending := by
  cases e with
  | merge names fused type pattern =>
    obtain ⟨f, rfl, hc, -, rfl⟩ := edit_merge_ok he
    obtain ⟨m, n, dag, dag', hm, hseat, hsub, hgone, hok, hseats⟩ :=
      seats_merge h hc (s.provenance names f.name pattern)
    -- the number is free once its holder is out
    have hfree : ∀ x ∈ dag.seats, x.2 ≠ n := by
      intro x hx hxn
      obtain rfl := ha.eq_of_snd_eq (hsub.subset hx) hseat hxn
      exact hgone m hm (Digraph.fst_mem_keys hx)
    have hadd := (ha.of_seats hsub).addVertexAt hok hfree
    exact hadd.of_seats (hseats ▸ List.Sublist.refl _)
  | drop name => exact ha.of_seats (seats_drop_sublist h he)
  | update n => exact ha.of_seats (seats_updateNode he ▸ List.Sublist.refl _)

/-- After an edit a node has the seat it had, or its name is new and its number that of a node which the edit took
out. -/
lemma mem_seats_edit (h : Roster g o s) (he : s.edit e = .ok t) {x : String × UInt64} (hx : x ∈ t.dag.seats) :
    x ∈ s.dag.seats ∨ ¬ s.taken.contains x.1 ∧ ∃ m ∉ t.dag.keys, (m, x.2) ∈ s.dag.seats := by
  cases e with
  | merge names fused type pattern =>
    obtain ⟨f, rfl, hc, -, rfl⟩ := edit_merge_ok he
    obtain ⟨m, n, dag, dag', hm, hseat, hsub, hgone, hok, hseats⟩ :=
      seats_merge h hc (s.provenance names f.name pattern)
    rw [hseats] at hx
    cases List.mem_cons.1 ((Digraph.seats_addVertexAt hok).mem_iff.1 hx) with
    | inl hx =>
      subst hx
      refine .inr ⟨hc.free, m, fun hlive => ?_, hseat⟩
      cases (mem_keys_contract h hc _).1 hlive with
      | inl hmf => exact hc.free (hmf ▸ h.live_taken m (hc.live m hm))
      | inr hlive => exact hlive.2 hm
    | inr hx => exact .inl (hsub.subset hx)
  | drop name => exact .inl ((seats_drop_sublist h he).subset hx)
  | update n => exact .inl (seats_updateNode he ▸ hx)

/-! ### The graph a sandbox was taken from -/

/-- Where the nodes of a sandbox stand in the graph that it was taken from, which may have changed since. As long as no
patch was applied to the graph, a number of the sandbox is held in the graph by the node of the sandbox itself, by a
node that the sandbox took out, or by none. -/
structure Seated (g : Graph) (s : Sandbox) : Prop where
  account : ∃ g₀ o, Roster g₀ o s
  ascending : s.dag.Ascending
  base : s.base ≤ g.version
  below : ∀ x ∈ s.dag.seats, x.2 < g.dag.nextSeq
  holder : s.base = g.version → ∀ x ∈ s.dag.seats, ∀ u ∈ g.dag.seats, u.2 = x.2 →
    u.1 ∈ s.removedNodes ∨ u = x ∧ x.1 ∉ s.added

namespace Seated

variable {g' : Graph}

/-- A copy has the seats of the graph. -/
lemma copy (hg : g.Consistent) (ho : g.dag.Ordered) (region : Option (List String)) :
    Seated g (Sandbox.copy g region) := by
  have hsub : (Sandbox.copy g region).dag.seats.Sublist g.dag.seats := List.filter_sublist.map _
  refine ⟨⟨g, _, .copy_of_acyclic hg.toWellFormed hg.payload hg.acyclic region⟩, ho.ascending.of_seats hsub,
    Nat.le_refl _,
    fun x hx => ho.below x (hsub.subset hx), fun _ x hx u hu he => ?_⟩
  exact .inr ⟨ho.ascending.eq_of_snd_eq hu (hsub.subset hx) he, List.not_mem_nil⟩

/-- What an edit took out stays out. -/
lemma removed_edit {g₀ : Graph} (hr : Roster g₀ o s) (he : s.edit e = .ok t)
    (hk : k ∈ s.removedNodes) : k ∈ t.removedNodes := by
  obtain ⟨hcopied, -, hgone⟩ := hr.removed k hk
  by_contra hnot
  have hlive := (hr.edit he).present k hcopied hnot
  obtain ⟨v, hv, rfl⟩ := List.mem_map.1 hlive
  cases mem_seats_edit hr he (List.mem_map_of_mem hv) with
  | inl hseat => exact hgone (Digraph.fst_mem_keys hseat)
  | inr hfused => exact hfused.1 (hr.taken _ (hr.within _ hcopied))

/-- An edit that succeeds keeps a sandbox seated. -/
lemma edit (h : Seated g s) (he : s.edit e = .ok t) : Seated g t := by
  obtain ⟨g₀, o, hr⟩ := h.account
  have hr' := hr.edit he
  have hbase : t.base = s.base := hr'.base.trans hr.base.symm
  refine ⟨⟨g₀, o, hr'⟩, ascending_edit hr h.ascending he, hbase ▸ h.base, fun x hx => ?_, fun hcur x hx u hu hux => ?_⟩
  · rcases mem_seats_edit hr he hx with hold | ⟨-, m, -, hseat⟩
    · exact h.below x hold
    · exact h.below (m, x.2) hseat
  · rcases mem_seats_edit hr he hx with hold | ⟨-, m, hgone, hseat⟩
    · rcases h.holder (hbase ▸ hcur) x hold u hu hux with hrem | ⟨rfl, hadd⟩
      · exact .inl (removed_edit hr he hrem)
      · have hcopied := (hr.live (Digraph.fst_mem_keys hold)).resolve_left hadd
        exact .inr ⟨rfl, hr'.not_mem_added (hr.within _ hcopied)⟩
    -- the number of a fused node is that of a member, whose holder in the graph is out of the sandbox now
    · rcases h.holder (hbase ▸ hcur) _ hseat u hu hux with hrem | ⟨rfl, hadd⟩
      · exact .inl (removed_edit hr he hrem)
      · have hcopied := (hr.live (Digraph.fst_mem_keys hseat)).resolve_left hadd
        exact .inl (not_not.1 fun hnot => hgone (hr'.present m hcopied hnot))

/-- Taking nodes out of the graph, or putting them in at numbers that were not given out, disturbs no sandbox. -/
lemma of_graph (h : Seated g s) (hv : g'.version = g.version) (hn : g.dag.nextSeq ≤ g'.dag.nextSeq)
    (hs : ∀ u ∈ g'.dag.seats, u ∈ g.dag.seats ∨ g.dag.nextSeq ≤ u.2) : Seated g' s := by
  refine ⟨h.account, h.ascending, hv ▸ h.base, fun x hx => UInt64.lt_of_lt_of_le (h.below x hx) hn,
    fun hcur x hx u hu hux => ?_⟩
  cases hs u hu with
  | inl hold => exact h.holder (hcur.trans hv) x hx u hold hux
  | inr hnew => exact absurd (hux ▸ h.below x hx) (UInt64.not_lt.2 hnew)

/-- Once a patch was applied, a sandbox taken before is out of date. -/
lemma of_outdated (h : Seated g s) (hv : g.version < g'.version) (hn : g'.dag.nextSeq = g.dag.nextSeq) : Seated g' s :=
  ⟨h.account, h.ascending, h.base.trans hv.le, fun x hx => hn ▸ h.below x hx,
    fun hcur => absurd (hcur ▸ h.base) (not_le_of_gt hv)⟩

/-- A sandbox that was committed has the nodes it had. -/
lemma close (h : Seated g s) : Seated g { s with committed := true } := by
  obtain ⟨g₀, o, hr⟩ := h.account
  exact ⟨⟨g₀, { o with committed := true }, { hr with committed := rfl }⟩, h.ascending, h.base, h.below, h.holder⟩

end Seated

/-! ### Commits -/

/-- A commit leaves the sandbox as it was and marks it. -/
lemma commit_sandbox {g' : Graph} {c : Changes} (h : s.commit g = .ok (g', t, c)) :
    t = { s with committed := true } := by
  unfold commit at h
  split at h
  · cases h
  · split at h
    · cases h
    · split at h
      · cases h
        rfl
      · cases h

/-- The nodes that a patch brings along have the seats they have in the sandbox. -/
lemma mem_addNodes (h : Roster g o s) {q : PlacedNode} (hq : q ∈ s.patch.addNodes) :
    q.node.name ∈ s.added ∧ (q.node.name, q.seq) ∈ s.dag.seats := by
  obtain ⟨k, hk, he⟩ := List.mem_filterMap.1 hq
  obtain ⟨v, hv, rfl⟩ := Option.map_eq_some_iff.1 he
  have hmem := Digraph.mem_of_vertex? hv
  have hname : v.val.name = k := (h.named v hmem).trans (Digraph.key_of_vertex? hv)
  refine ⟨hname.symm ▸ hk, List.mem_map.2 ⟨v, hmem, ?_⟩⟩
  rw [h.named v hmem]

/-- No two of the nodes that a patch brings along have one number. -/
lemma nodup_seq_addNodes (h : Roster g o s) (ha : s.dag.Ascending) : (s.patch.addNodes.map (·.seq)).Nodup := by
  have hnames : (s.patch.addNodes.map (·.node.name)).Nodup := h.names_addNodes.symm ▸ h.added_nodup
  refine List.pairwise_map.2 ((List.pairwise_map.1 hnames).imp_of_mem fun {p q} hp hq hne he => hne ?_)
  exact congrArg Prod.fst (ha.eq_of_snd_eq (mem_addNodes h hp).2 (mem_addNodes h hq).2 he)

end Sandbox

namespace Graph

variable {dag dag' : Digraph Node Edge}

/-- Nodes that are put in at numbers which were given out before and are free now leave the nodes in order. -/
lemma ordered_patchInNodes {qs : List PlacedNode} (h : dag.Ordered) (hnd : (qs.map (·.seq)).Nodup)
    (hfree : ∀ q ∈ qs, ∀ x ∈ dag.seats, x.2 ≠ q.seq) (hlt : ∀ q ∈ qs, q.seq < dag.nextSeq)
    (hok : qs.foldlM patchInNode dag = .ok dag') : dag'.Ordered ∧ dag'.nextSeq = dag.nextSeq := by
  induction qs generalizing dag with
  | nil =>
    cases hok
    exact ⟨h, rfl⟩
  | cons q qs ih =>
    rw [List.foldlM_cons] at hok
    obtain ⟨mid, hmid, hok⟩ := bind_eq_ok.1 hok
    have hmid := patchInNode_ok hmid
    rw [List.map_cons, List.nodup_cons] at hnd
    rw [List.forall_mem_cons] at hfree hlt
    obtain ⟨hord, hnext⟩ := h.reuse hmid hfree.1 hlt.1
    rw [← hnext]
    refine ih hord hnd.2 (fun p hp x hx => ?_) (fun p hp => hnext ▸ hlt.2 p hp) hok
    cases List.mem_cons.1 ((Digraph.seats_addVertexAt hmid).mem_iff.1 hx) with
    | inl hx =>
      rw [hx]
      exact fun he => hnd.1 (List.mem_map.2 ⟨p, hp, he.symm⟩)
    | inr hx => exact hfree.2 p hp x hx

/-- A patch leaves the nodes in order if every number it brings along is free once it has taken nodes out. -/
lemma ordered_patchTopology {p : Patch} (h : dag.Ordered) (hnd : (p.addNodes.map (·.seq)).Nodup)
    (hfree : ∀ q ∈ p.addNodes, ∀ x ∈ dag.seats, x.1 ∉ p.removeNodes → x.2 ≠ q.seq)
    (hlt : ∀ q ∈ p.addNodes, q.seq < dag.nextSeq) (hok : patchTopology dag p = .ok dag') :
    dag'.Ordered ∧ dag'.nextSeq = dag.nextSeq := by
  unfold patchTopology at hok
  obtain ⟨d₁, h₁, hok⟩ := bind_eq_ok.1 hok
  obtain ⟨d₂, h₂, hok⟩ := bind_eq_ok.1 hok
  obtain ⟨d₃, h₃, hok⟩ := bind_eq_ok.1 hok
  obtain ⟨d₄, h₄, h₅⟩ := bind_eq_ok.1 hok
  have ht₁ := foldlM_ok_induct (P := Digraph.Thins dag) (fun d _ d' _ hd hstep => by
    obtain ⟨src, dst, -, rfl⟩ := patchOutEdge_eq hstep
    exact hd.trans (.dropArc d src dst)) (.refl dag) h₁
  have ht₂ := foldlM_ok_induct (P := Digraph.Thins dag) (fun d k d' _ hd hstep => by
    obtain rfl := patchOutNode_eq hstep
    exact hd.trans (.dropVertex d k)) ht₁ h₂
  have hgone : ∀ x ∈ d₂.seats, x.1 ∉ p.removeNodes := by
    intro x hx
    exact ((mem_keys_patchOutNodes h₂).1 (Digraph.fst_mem_keys hx)).2
  obtain ⟨hord, hnext⟩ := ordered_patchInNodes (h.thins ht₂) hnd
    (fun q hq x hx => hfree q hq x (ht₂.seats.subset hx) (hgone x hx)) (fun q hq => ht₂.nextSeq ▸ hlt q hq) h₃
  have ht₄ := foldlM_ok_induct (P := Digraph.Thins d₃)
    (fun _ _ _ _ hd hstep => hd.trans (.setVertex (patchNode_ok hstep)))
    (.refl d₃) h₄
  have ht₅ := foldlM_ok_induct (P := Digraph.Thins d₃)
    (fun _ _ _ _ hd hstep => hd.trans (.addArc (patchInEdge_ok hstep)))
    ht₄ h₅
  exact ⟨hord.thins ht₅, ht₅.nextSeq.trans (hnext.trans ht₂.nextSeq)⟩

/-- A sandbox that is not out of date brings along numbers that are free, so committing it leaves the nodes in order. -/
lemma ordered_commit {g g' : Graph} {s t : Sandbox} {c : Sandbox.Changes} (ho : g.dag.Ordered) (hs : s.Seated g)
    (he : s.commit g = .ok (g', t, c)) :
    g' = g ∨ (g'.dag.Ordered ∧ g'.dag.nextSeq = g.dag.nextSeq) ∧ g.version < g'.version := by
  obtain ⟨g₀, o, hr⟩ := hs.account
  obtain ⟨hbase, hsame | ⟨htop, hv⟩⟩ := version_apply (Sandbox.commit_ok he).1
  · exact .inl hsame
  · refine .inr ⟨ordered_patchTopology ho (Sandbox.nodup_seq_addNodes hr hs.ascending) (fun q hq u hu hstays heq => ?_)
      (fun q hq => hs.below _ (Sandbox.mem_addNodes hr hq).2) htop, hv⟩
    obtain ⟨hadded, hseat⟩ := Sandbox.mem_addNodes hr hq
    cases hs.holder hbase _ hseat u hu heq with
    | inl hout => exact hstays hout
    | inr hown => exact hown.2 hadded

/-! ### Graphs and their sandboxes -/

/-- A graph and the sandboxes taken from it that calls lead to from a graph without nodes, and the number of nodes that
were put into the graph by a call. A call that fails leads nowhere. -/
inductive Shared : Nat → Graph → List Sandbox → Prop where
  | new (name : String) : Shared 0 { name } []
  | insertNode {k : Nat} {g g' : Graph} {ss : List Sandbox} {n : Node} (h : Shared k g ss)
      (he : g.insertNode n = .ok g') : Shared (k + 1) g' ss
  | connect {k : Nat} {g g' : Graph} {ss : List Sandbox} {e : Edge} (h : Shared k g ss) (he : g.connect e = .ok g') :
      Shared k g' ss
  | removeNode {k : Nat} {g g' : Graph} {ss : List Sandbox} {name : String} (h : Shared k g ss)
      (he : g.removeNode name = .ok g') : Shared k g' ss
  | updateNode {k : Nat} {g : Graph} {ss : List Sandbox} (h : Shared k g ss) (name : String) {f : Node → Node}
      (hf : ∀ v, (f v).name = v.name) : Shared k (g.updateNode name f) ss
  /-- Names, boundaries, registered edges and marks are changed at will. -/
  | remark {k : Nat} {g g' : Graph} {ss : List Sandbox} (h : Shared k g ss) (hd : g'.dag = g.dag)
      (hv : g'.version = g.version) : Shared k g' ss
  | snapshot {k : Nat} {g : Graph} {ss : List Sandbox} {region : Option (List String)} {s : Sandbox} (h : Shared k g ss)
      (he : Sandbox.snapshot g region = .ok s) : Shared k g (s :: ss)
  | edit {k : Nat} {g : Graph} {ss us : List Sandbox} {s t : Sandbox} {e : Edit} (h : Shared k g (ss ++ s :: us))
      (he : s.edit e = .ok t) : Shared k g (ss ++ t :: us)
  | commit {k : Nat} {g g' : Graph} {ss us : List Sandbox} {s t : Sandbox} {c : Sandbox.Changes}
      (h : Shared k g (ss ++ s :: us)) (he : s.commit g = .ok (g', t, c)) : Shared k g' (ss ++ t :: us)

/-- What holds of a graph and its sandboxes after `k` nodes were put in. -/
structure Arranged (k : Nat) (g : Graph) (ss : List Sandbox) : Prop where
  consistent : g.Consistent
  next : g.dag.nextSeq.toNat = k
  ordered : g.dag.Ordered
  seated : ∀ s ∈ ss, s.Seated g

namespace Arranged

variable {k : Nat} {g g' : Graph} {ss us : List Sandbox} {s t : Sandbox}

/-- A call that puts no node in and applies no patch. -/
lemma thins (h : Arranged k g ss) (hc : g'.Consistent) (ht : Digraph.Thins g.dag g'.dag) (hv : g'.version = g.version) :
    Arranged k g' ss := by
  refine ⟨hc, ht.nextSeq ▸ h.next, h.ordered.thins ht, fun s hs => ?_⟩
  exact (h.seated s hs).of_graph hv (ht.nextSeq ▸ UInt64.le_refl _) fun u hu => .inl (ht.seats.subset hu)

/-- Inserting a node keeps a graph and its sandboxes arranged, as long as there are numbers. -/
lemma insertNode (h : Arranged k g ss) (hk : k + 1 < UInt64.size) {n : Node} (he : g.insertNode n = .ok g') :
    Arranged (k + 1) g' ss := by
  have hc := h.consistent.insertNode he
  obtain ⟨dag, hdag, rfl⟩ := insertNode_ok he
  obtain ⟨hord, hnext⟩ := h.ordered.addNext hdag (h.next.symm ▸ hk)
  refine ⟨hc, hnext.trans (congrArg (· + 1) h.next), hord, fun s hs => ?_⟩
  refine (h.seated s hs).of_graph rfl (UInt64.le_iff_toNat_le.2 (hnext ▸ Nat.le_succ _)) fun u hu => ?_
  cases List.mem_cons.1 ((Digraph.seats_addVertexAt hdag).mem_iff.1 hu) with
  | inl hu => exact .inr (hu ▸ UInt64.le_refl _)
  | inr hu => exact .inl hu

/-- Editing one of the sandboxes keeps a graph and its sandboxes arranged. -/
lemma edit (h : Arranged k g (ss ++ s :: us)) (he : s.edit e = .ok t) : Arranged k g (ss ++ t :: us) := by
  refine ⟨h.consistent, h.next, h.ordered, ?_⟩
  have hall := h.seated
  rw [List.forall_mem_append, List.forall_mem_cons] at hall ⊢
  exact ⟨hall.1, hall.2.1.edit he, hall.2.2⟩

/-- Committing one of the sandboxes keeps a graph and its sandboxes arranged. -/
lemma commit (h : Arranged k g (ss ++ s :: us)) {c : Sandbox.Changes} (he : s.commit g = .ok (g', t, c)) :
    Arranged k g' (ss ++ t :: us) := by
  have hs : s.Seated g := h.seated s (by simp)
  have hc := h.consistent.apply (Sandbox.commit_ok he).1
  obtain rfl := Sandbox.commit_sandbox he
  have hall := h.seated
  rw [List.forall_mem_append, List.forall_mem_cons] at hall
  rcases ordered_commit h.ordered hs he with rfl | ⟨⟨hord, hnext⟩, hv⟩
  · refine ⟨hc, h.next, h.ordered, ?_⟩
    rw [List.forall_mem_append, List.forall_mem_cons]
    exact ⟨hall.1, hs.close, hall.2.2⟩
  · refine ⟨hc, hnext ▸ h.next, hord, ?_⟩
    rw [List.forall_mem_append, List.forall_mem_cons]
    exact ⟨fun u hu => (hall.1 u hu).of_outdated hv hnext, hs.close.of_outdated hv hnext,
      fun u hu => (hall.2.2 u hu).of_outdated hv hnext⟩

end Arranged

/-- Whatever was called, numbers go up to the number of nodes that were put in and no two nodes have one. -/
lemma Shared.arranged {k : Nat} {g : Graph} {ss : List Sandbox} (h : Shared k g ss) (hk : k + 1 < UInt64.size) :
    Arranged k g ss := by
  induction h with
  | new name => exact ⟨(Built.new name).consistent, rfl, ⟨List.Pairwise.nil, List.forall_mem_nil _⟩,
    List.forall_mem_nil _⟩
  | insertNode _ he ih => exact (ih (Nat.lt_of_succ_lt hk)).insertNode (Nat.lt_of_succ_lt hk) he
  | connect _ he ih =>
    have hc := (ih hk).consistent.connect he
    obtain ⟨dag, hdag, rfl⟩ := connect_ok he
    exact (ih hk).thins hc (.addArc hdag) rfl
  | removeNode _ he ih =>
    have hc := (ih hk).consistent.removeNode he
    obtain ⟨-, rfl⟩ := removeNode_ok he
    exact (ih hk).thins hc (.dropVertex _ _) rfl
  | @updateNode k g ss _ name f hf ih =>
    have hc := (ih hk).consistent
    have hsame : (g.updateNode name f).dag.seats = g.dag.seats := Digraph.seats_map_payload f g.dag.vertices
    exact (ih hk).thins ⟨hc.toWellFormed.updateNode name hf, hc.payload, hc.acyclic⟩ ⟨hsame ▸ .refl _, rfl⟩ rfl
  | remark _ hd hv ih => exact (ih hk).thins ((ih hk).consistent.of_dag hd) (hd ▸ .refl _) hv
  | snapshot _ he ih =>
    have h := ih hk
    obtain rfl := Sandbox.snapshot_ok he
    exact ⟨h.consistent, h.next, h.ordered, List.forall_mem_cons.2 ⟨.copy h.consistent h.ordered _, h.seated⟩⟩
  | edit _ he ih => exact (ih hk).edit he
  | commit _ he ih => exact (ih hk).commit he

/-- As long as there are numbers left, the nodes of a graph and of every sandbox taken from it have one order. -/
theorem order_unambiguous {k : Nat} {g : Graph} {ss : List Sandbox} (h : Shared k g ss) (hk : k < 2 ^ 64 - 1) :
    g.dag.Unambiguous ∧ ∀ s ∈ ss, s.dag.Unambiguous := by
  have ha := h.arranged (show k + 1 < 2 ^ 64 by omega)
  exact ⟨ha.ordered.ascending.unambiguous, fun s hs => (ha.seated s hs).ascending.unambiguous⟩

/-- Two nodes are merged in a sandbox while another one is taken out of the graph and a new one put in. The sandbox is
committed all the same, and what it fused is fused once more in a sandbox of the outcome. -/
theorem order_unambiguous_interleaved : ∃ g ss, Shared 5 g ss ∧ g.dag.seats = [("a", 0), ("h", 1)] ∧
    (ss.map fun s => s.dag.seats) = [[("a", 0), ("h", 1)], [("a", 0), ("f", 1), ("d", 3)]] ∧
    g.dag.Unambiguous ∧ ∀ s ∈ ss, s.dag.Unambiguous := by
  have h := Shared.new "g"
  have h := h.insertNode (n := { name := "a", type := "input" }) rfl
  have h := h.insertNode (n := { name := "b", type := "conv" }) rfl
  have h := h.insertNode (n := { name := "c", type := "relu" }) rfl
  have h := h.insertNode (n := { name := "d", type := "pool" }) rfl
  have h := h.connect (e := { src := "a", dst := "b" }) rfl
  have h := h.connect (e := { src := "b", dst := "c" }) rfl
  have h := h.snapshot (show Sandbox.snapshot _ none = .ok _ from rfl)
  have h := h.removeNode (show Graph.removeNode _ "d" = .ok _ from rfl)
  have h := h.insertNode (n := { name := "e", type := "dense" }) rfl
  have h := @Shared.edit _ _ [] _ _ _ (.merge ["b", "c"] "f" "conv_relu" "cr") h rfl
  have h := @Shared.commit _ _ _ [] _ _ _ _ h rfl
  have h := h.snapshot (show Sandbox.snapshot _ none = .ok _ from rfl)
  have h := @Shared.edit _ _ [] _ _ _ (.merge ["f", "e"] "h" "block" "block") h rfl
  have h := @Shared.commit _ _ _ [] _ _ _ _ h rfl
  exact ⟨_, _, h, rfl, rfl, order_unambiguous h (by decide)⟩

end Graph

end OpGraph
