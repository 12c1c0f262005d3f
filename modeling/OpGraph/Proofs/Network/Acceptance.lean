import Mathlib
import OpGraph.Proofs.Network.Joining
import OpGraph.Proofs.Workspace

/-!
# Which networks can be frozen

Freezing checks what was declared piece by piece: each variable when it is added, each edge when it is drawn, each
output when it is registered. All of it passes exactly when what was declared is well built, which is said here without
any order of the pieces. The graph that comes of it has one edge for each two nodes of which one reads from the other.
-/

namespace OpGraph.Network

open Relation OpGraph.Graph

variable {n m : Network}

/-! ### What was declared -/

/-- The operators of a network and the nodes that are made for its variables from outside. -/
def parts (n : Network) : List Node :=
  n.graph.nodes ++ n.build.vars.map inputNode

/-- What has to hold of the declarations as a whole. -/
structure WellBuilt (n : Network) : Prop where
  /-- No variable from outside is called like an operator. -/
  apart : ∀ v ∈ n.build.vars, v ∉ n.graph.names
  /-- No variable is written twice. -/
  once : (n.graph.nodes.flatMap (·.outputs) ++ n.build.vars).Nodup
  /-- Every variable that is read is written or comes from outside. -/
  defined : ∀ k ∈ n.graph.nodes, ∀ v ∈ k.inputs, (∃ m ∈ n.graph.nodes, v ∈ m.outputs) ∨ v ∈ n.build.vars
  /-- Nothing reads what depends on it. -/
  acyclic : ∀ a, ¬ TransGen (Passes n.parts) a a
  /-- Where an output is declared, something is read. -/
  outs : ∀ p ∈ n.build.outs, Passes n.parts p.1 p.2
  /-- A variable that has a scale is the first one that some node reads from its writer. -/
  scales : ∀ q ∈ n.build.varScales, ∃ m ∈ n.parts, ∃ k ∈ n.parts, firstRead m k = some q.1

/-- The graph `g` joins the parts of a network. -/
structure Assembles (n : Network) (g : Graph) : Prop where
  nodes : g.nodes.Perm n.parts
  /-- The nodes are in the order in which they were added, if there are not more than can be numbered. -/
  inOrder : n.parts.length ≤ UInt64.size → g.nodes = n.parts
  edges : ∀ e, e ∈ g.edges ↔ ∃ m ∈ n.parts, ∃ k ∈ n.parts, joining m k = some e
  /-- Two nodes are joined by one edge at most. -/
  single : (g.edges.map fun e => (e.src, e.dst)).Nodup
  ins : g.ins = (g.nodes.filter fun k => k.inputs.isEmpty).map (·.name)
  outs : g.outs = (g.nodes.filter fun m => n.parts.all fun k => (firstRead m k).isNone).map (·.name)

/-- The parts of a network are its nodes and the inputs for its variables. -/
lemma mem_parts {k : Node} : k ∈ n.parts ↔ k ∈ n.graph.nodes ∨ ∃ v ∈ n.build.vars, k = inputNode v := by
  simp [parts, eq_comm]

/-- The variables that are written are those that nodes write and those that are declared. -/
lemma outputs_parts (n : Network) :
    n.parts.flatMap (·.outputs) = n.graph.nodes.flatMap (·.outputs) ++ n.build.vars := by
  have hvars : ∀ vs : List String, (vs.map inputNode).flatMap (·.outputs) = vs := by
    intro vs
    induction vs with
    | nil => rfl
    | cons v vs ih => exact congrArg (v :: ·) ih
  rw [parts, List.flatMap_append, hvars]

/-! ### Networks that are being built -/

/-- What holds of a network as long as it is built. -/
structure Open (n : Network) : Prop where
  thawed : n.graph.frozen = false
  unregistered : n.graph.registered = {}
  named : "" ∉ n.build.vars
  numbered : n.graph.dag.Numbered

namespace Open

lemma new (name : String) (library : LibraryRef) : Open (Network.new name library) :=
  ⟨rfl, rfl, List.not_mem_nil, fun _ => ⟨rfl, List.forall_mem_nil _⟩⟩

/-- A request leaves a network open that is still built. -/
lemma request (h : Open n) {q : Request} (hq : n.request q = .ok m) (hs : m.state = .building) : Open m := by
  cases q with
  | addOp name type inputs outputs =>
    obtain ⟨-, graph, hg, rfl⟩ := addOp_ok hq
    have hnum := numbered_insertNode h.numbered hg
    obtain ⟨dag, -, rfl⟩ := insertNode_ok hg
    exact ⟨h.thawed, h.unregistered, h.named, hnum⟩
  | declareVar var =>
    obtain ⟨-, hvar, rfl⟩ := declareVar_ok hq
    refine ⟨h.thawed, h.unregistered, fun hmem => ?_, h.numbered⟩
    rcases List.mem_append.1 hmem with hmem | hmem
    · exact h.named hmem
    · exact hvar (List.mem_singleton.1 hmem).symm
  | declareOut src dst =>
    have hq := failing_ok hq
    split_ifs at hq
    · cases hq
    · cases hq
      exact { h with }
  | declareAllOuts =>
    have hq := failing_ok hq
    split_ifs at hq
    · cases hq
    · cases hq
      exact { h with }
  | set setting =>
    rcases set_cases hq with ⟨op, f, -, rfl⟩ | ⟨calibration, varScales, rfl⟩
    · exact ⟨h.thawed, h.unregistered, h.named, numbered_updateNode h.numbered op f⟩
    · exact { h with }
  | freeze =>
    obtain ⟨-, graph, order, calibration, -, rfl⟩ := freeze_eq hq
    cases hs

end Open

/-- A draft of another epoch is not landed. -/
lemma land_of_stale {d : Draft} (he : n.epoch ≠ d.epoch) (fusion : Bool) (ord : RenameOrder) :
    (n.land d fusion ord).1 = n := by
  unfold land
  split
  · rfl
  · rw [if_pos he]

/-- A network that is not built is not built after a draft landed. -/
lemma state_land (hs : n.state ≠ .building) (d : Draft) (fusion : Bool) (ord : RenameOrder) :
    (n.land d fusion ord).1.state ≠ .building := by
  unfold land
  split
  · exact hs
  · split
    · exact hs
    · split
      · exact hs
      · split
        · rename_i hsettle
          obtain ⟨c, -, hsettle⟩ := bind_eq_ok.1 hsettle
          split at hsettle
          · cases hsettle
          · cases hsettle
            cases fusion with
            | true => exact fun h => by cases h
            | false => exact hs
        · exact hs

lemma durable_open : Workspace.Durable fun n => n.state = .building → Open n where
  new := fun name library _ => .new name library
  refit := fun _ _ _ _ _ h hs => { h hs with }
  request := by
    intro n m q h hq hs
    -- a network that is built was built before
    have hn : n.state = .building := by
      cases answers_request hq with
      | added hb hg => exact hb
      | declared build => exact hs
      | updated op hf => exact hs
      | calibrated calibration build => exact hs
      | frozen hm => exact (freeze_eq hm).1
    exact (h hn).request hq hs
  land := by
    intro _ n _ fusion ord d _ hd h ha hs
    by_cases he : n.epoch = d.epoch
    · exact absurd hs (state_land (ha.not_building hd he) d fusion ord)
    · rw [land_of_stale he] at hs ⊢
      exact h hs

/-! ### The graph that is made -/

/-- The nodes of the graph `g` are the parts of a network, and they are joined as these ask. -/
structure Joined (n : Network) (g : Graph) : Prop where
  wellFormed : g.WellFormed
  nodes : g.nodes.Perm n.parts
  edge? : ∀ m ∈ n.parts, ∀ k ∈ n.parts, g.edge? m.name k.name = joining m k

namespace Joined

variable {g : Graph}

/-- Every name in the graph that is made is that of a part. -/
lemma exists_part (h : Joined n g) {k : String} (hk : k ∈ g.names) : ∃ m ∈ n.parts, m.name = k := by
  obtain ⟨m, hm, rfl⟩ := h.wellFormed.exists_node hk
  exact ⟨m, h.nodes.mem_iff.1 hm, rfl⟩

/-- Two parts are joined exactly if one reads what the other writes. -/
lemma hasArc_iff (h : Joined n g) {m k : Node} (hm : m ∈ n.parts) (hk : k ∈ n.parts) :
    g.dag.hasArc m.name k.name ↔ ∃ v ∈ k.inputs, v ∈ m.outputs := by
  rw [← firstRead_isSome_iff, ← joining_isSome, ← h.edge? m hm k hk, Graph.edge?, Option.isSome_map, Digraph.hasArc]

/-- Nodes are joined where one reads from the other. -/
lemma adj_eq (h : Joined n g) : g.dag.Adj = Passes n.parts := by
  funext a b
  apply propext
  constructor
  · intro hab
    obtain ⟨x, hx, rfl, rfl⟩ := Digraph.hasArc_iff.1 hab
    obtain ⟨m, hm, hsrc⟩ := h.exists_part (h.wellFormed.dag.src_mem x hx)
    obtain ⟨k, hk, hdst⟩ := h.exists_part (h.wellFormed.dag.dst_mem x hx)
    rw [← hsrc, ← hdst] at hab
    exact ⟨m, hm, k, hk, hsrc, hdst, (h.hasArc_iff hm hk).1 hab⟩
  · rintro ⟨m, hm, k, hk, rfl, rfl, hv⟩
    exact (h.hasArc_iff hm hk).2 hv

/-- The edges of the graph that is made are those that join its parts. -/
lemma mem_edges_iff (h : Joined n g) {e : Edge} :
    e ∈ g.edges ↔ ∃ m ∈ n.parts, ∃ k ∈ n.parts, joining m k = some e := by
  rw [h.wellFormed.mem_edges_iff]
  constructor
  · rintro ⟨m, hm, k, hk, he⟩
    have hm := h.nodes.mem_iff.1 hm
    have hk := h.nodes.mem_iff.1 hk
    exact ⟨m, hm, k, hk, (h.edge? m hm k hk).symm.trans he⟩
  · rintro ⟨m, hm, k, hk, he⟩
    exact ⟨m, h.nodes.mem_iff.2 hm, k, h.nodes.mem_iff.2 hk, (h.edge? m hm k hk).trans he⟩

/-- A variable is carried where it is the first one that is read. -/
lemma carries_iff (h : Joined n g) {v : String} :
    (∃ e ∈ g.edges, e.var = v) ↔ ∃ m ∈ n.parts, ∃ k ∈ n.parts, firstRead m k = some v := by
  constructor
  · rintro ⟨e, he, rfl⟩
    obtain ⟨m, hm, k, hk, he⟩ := h.mem_edges_iff.1 he
    obtain ⟨v, hv, rfl⟩ := Option.map_eq_some_iff.1 he
    exact ⟨m, hm, k, hk, hv⟩
  · rintro ⟨m, hm, k, hk, hv⟩
    exact ⟨_, h.mem_edges_iff.2 ⟨m, hm, k, hk, Option.map_eq_some_iff.2 ⟨v, hv, rfl⟩⟩, rfl⟩

/-- An edge of the graph that is made is filed between its ends. -/
lemma payload (h : Joined n g) {a : Arc Edge} (ha : a ∈ g.dag.arcs) : a.val.src = a.src ∧ a.val.dst = a.dst := by
  obtain ⟨m, hm, hsrc⟩ := h.exists_part (h.wellFormed.dag.src_mem a ha)
  obtain ⟨k, hk, hdst⟩ := h.exists_part (h.wellFormed.dag.dst_mem a ha)
  have hedge := h.edge? m hm k hk
  rw [hsrc, hdst, Graph.edge?, h.wellFormed.dag.arc?_of_mem ha] at hedge
  obtain ⟨v, -, he⟩ := Option.map_eq_some_iff.1 hedge.symm
  exact ⟨(congrArg Edge.src he).symm.trans hsrc, (congrArg Edge.dst he).symm.trans hdst⟩

/-- No two edges of the graph that is made have the same ends. -/
lemma ends_nodup (h : Joined n g) : (g.edges.map fun e => (e.src, e.dst)).Nodup := by
  have hends : (g.edges.map fun e => (e.src, e.dst)) = g.dag.arcsBySource.map fun a => (a.src, a.dst) := by
    rw [edges, List.map_map]
    apply List.map_congr_left
    intro a ha
    obtain ⟨hsrc, hdst⟩ := h.payload (h.wellFormed.dag.mem_arcsBySource.1 ha)
    simp [hsrc, hdst]
  rw [hends, (h.wellFormed.dag.arcsBySource_perm.map _).nodup_iff]
  exact h.wellFormed.dag.arcs_nodup

/-- A test of names, done on the nodes. -/
lemma filter_names (h : Joined n g) {p : String → Bool} {q : Node → Bool} (hpq : ∀ k ∈ n.parts, p k.name = q k) :
    g.names.filter p = (g.nodes.filter q).map (·.name) := by
  rw [h.wellFormed.names_eq, List.filter_map]
  congr 1
  exact List.filter_congr fun k hk => hpq k (h.nodes.mem_iff.1 hk)

/-- At the boundary are the nodes that read nothing and those that nobody reads. -/
lemma ins_bound (h : Joined n g) (hdef : ∀ k ∈ n.parts, ∀ v ∈ k.inputs, ∃ m ∈ n.parts, v ∈ m.outputs) :
    (bound g).ins = (g.nodes.filter fun k => k.inputs.isEmpty).map (·.name) := by
  apply h.filter_names
  intro k hk
  rw [Bool.eq_iff_iff, beq_iff_eq, Digraph.inDegree, List.length_eq_zero_iff, List.isEmpty_iff,
    List.eq_nil_iff_forall_not_mem, List.eq_nil_iff_forall_not_mem]
  constructor
  · intro hnone v hv
    obtain ⟨m, hm, hvm⟩ := hdef k hk v hv
    exact hnone m.name (h.wellFormed.dag.mem_preds.2 ((h.hasArc_iff hm hk).2 ⟨v, hv, hvm⟩))
  · intro hnone x hx
    have harc := h.wellFormed.dag.mem_preds.1 hx
    obtain ⟨m, hm, rfl⟩ := h.exists_part (Digraph.hasVertex_iff.1 (h.wellFormed.dag.hasVertex_src harc))
    obtain ⟨v, hv, -⟩ := (h.hasArc_iff hm hk).1 harc
    exact hnone v hv

/-- The outputs of the graph that is made are the parts that nothing reads from. -/
lemma outs_bound (h : Joined n g) :
    (bound g).outs = (g.nodes.filter fun m => n.parts.all fun k => (firstRead m k).isNone).map (·.name) := by
  apply h.filter_names
  intro m hm
  rw [Bool.eq_iff_iff, List.isEmpty_iff, List.eq_nil_iff_forall_not_mem, List.all_eq_true]
  simp only [h.wellFormed.dag.mem_succs, Option.isNone_iff_eq_none, ← Option.not_isSome_iff_eq_none,
    firstRead_isSome_iff]
  constructor
  · intro hnone k hk hv
    exact hnone k.name ((h.hasArc_iff hm hk).2 hv)
  · intro hnone y hy
    obtain ⟨k, hk, rfl⟩ := h.exists_part (Digraph.hasVertex_iff.1 (h.wellFormed.dag.hasVertex_dst hy))
    exact hnone k hk ((h.hasArc_iff hm hk).1 hy)

end Joined

/-! ### Acceptance -/

section Acceptance

variable {added joined listed : Graph}

/-- The first two steps of freezing, in a network that is built, join its parts. -/
lemma joined_of_join (hc : Current n) (hs : n.state = .building)
    (hvars : n.build.vars.foldlM addInput n.graph = .ok added) (hjoin : join added = .ok joined) : Joined n joined := by
  obtain ⟨wf, harcs, -, -⟩ := foldlM_addInput_ok hc.wellFormed hvars
  have harcs := harcs.trans (hc.unjoined hs).1
  have hext := (join_ok hjoin harcs).1
  have hperm := (nodes_foldlM_addInput hvars).1
  refine ⟨⟨hext.wellFormed wf.dag, fun v hv => wf.named v (hext.vertices ▸ hv)⟩, ?_, fun m hm k hk => ?_⟩
  · rwa [nodes, hext.vertices]
  · exact edge?_join wf harcs hjoin (hperm.mem_iff.2 hm) (hperm.mem_iff.2 hk)

/-- Outputs can be registered exactly where nodes are joined. -/
lemma foldlM_registerOut_ok_iff {outs : List (String × String)} {g : Graph} :
    (∃ g', outs.foldlM registerOut g = .ok g') ↔ ∀ p ∈ outs, g.dag.hasArc p.1 p.2 := by
  refine foldlM_ok_iff_of_keeps (P := fun h => h.dag = g.dag) (fun h p hdag => ?_) (fun h p h' hdag hok => ?_) rfl
  · rw [registerOut, registerOutput, Graph.edge?, Option.isSome_map, hdag, Digraph.hasArc]
    cases (g.dag.arc? p.1 p.2).isSome <;> simp
  · have hstep : [p].foldlM registerOut h = .ok h' := bind_eq_ok.2 ⟨h', hok, rfl⟩
    rw [foldlM_registerOut_ok hstep]
    exact hdag

/-- Scales of variables can be set exactly when each of these is carried by an edge. -/
lemma foldlM_scaleVar_ok_iff {g : Graph} {qs : List (String × Float32)} {c : Calibration} :
    (∃ c', qs.foldlM (fun c q => scaleVar g c q.1 q.2) c = .ok c') ↔ ∀ q ∈ qs, ∃ e ∈ g.edges, e.var = q.1 :=
  foldlM_ok_iff_of_keeps (P := fun _ => True) (Q := fun q : String × Float32 => ∃ e ∈ g.edges, e.var = q.1)
    (fun _ _ _ => scaleVar_ok_iff) (fun _ _ _ _ _ => trivial) trivial

/-- What is registered in the end are edges. -/
lemma hasArc_of_registered {g : Graph} (hreg : g.registered = {}) {outs : List (String × String)}
    (hpay : ∀ a ∈ g.dag.arcs, a.val.src = a.src ∧ a.val.dst = a.dst) (wf : g.dag.WellFormed)
    (hok : outs.foldlM registerOut g = .ok listed) (all : Bool) {id : EdgeId}
    (hid : (sealed all listed).isRegistered id) : ∃ x y, g.dag.hasArc x y ∧ id = .arc x y := by
  have hfold : listed.dag = g.dag ∧ ∀ id, listed.isRegistered id → ∃ x y, g.dag.hasArc x y ∧ id = .arc x y := by
    apply foldlM_ok_induct (P := fun h => h.dag = g.dag ∧ ∀ id, h.isRegistered id → ∃ x y, g.dag.hasArc x y ∧
      id = .arc x y)
      _ _ hok
    · intro h p h' _ hh hstep
      unfold registerOut at hstep
      split at hstep
      · rename_i hout
        cases hstep
        unfold registerOutput at hout
        split at hout
        · rename_i hedge
          cases hout
          refine ⟨hh.1, fun id hid => ?_⟩
          rcases NameSet.contains_add.1 hid with rfl | hid
          · refine ⟨p.1, p.2, ?_, rfl⟩
            rwa [Graph.edge?, Option.isSome_map, hh.1] at hedge
          · exact hh.2 id hid
        · cases hout
      · cases hstep
    · refine ⟨rfl, fun id hid => ?_⟩
      rw [isRegistered, hreg] at hid
      cases hid
  cases all with
  | false => exact hfold.2 id hid
  | true =>
    rcases (NameSet.contains_foldl_add (fun e : Edge => e.id)).1 hid with ⟨e, he, rfl⟩ | hid
    · obtain ⟨a, ha, rfl⟩ := List.mem_map.1 he
      rw [hfold.1, wf.mem_arcsBySource] at ha
      obtain ⟨hsrc, hdst⟩ := hpay a ha
      refine ⟨a.src, a.dst, Digraph.hasArc_of_mem ha, ?_⟩
      rw [Edge.id, hsrc, hdst]
    · exact hfold.2 id hid

/-- The graph keeps the rules once its parts are joined without a cycle. -/
lemma Joined.sound_sealed (hj : Joined n joined) (hac : joined.dag.Acyclic) (harrow : ∀ k ∈ joined.names, ArrowFree k)
    (hreg : joined.registered = {}) (hmerges : joined.merges = []) {outs : List (String × String)}
    (houts : outs.foldlM registerOut (bound joined) = .ok listed) (all : Bool) : (sealed all listed).Sound := by
  have hids : ∀ id, (sealed all listed).isRegistered id → ∃ x y, (bound joined).dag.hasArc x y ∧ id = .arc x y :=
    fun _ =>
    hasArc_of_registered (g := bound joined) hreg (fun a ha => hj.payload ha) hj.wellFormed.dag houts all
  obtain ⟨r, hr⟩ := sealed_eq houts all
  rw [hr] at hids ⊢
  refine ⟨fun a ha => hj.payload ha, fun id hid => ?_, fun k hk => ?_, fun k hk => ?_, fun x hx => ?_, hac⟩
  · obtain ⟨x, y, hxy, rfl⟩ := hids id hid
    exact (edgeById?_arc_isSome (harrow x (Digraph.hasVertex_iff.1 (hj.wellFormed.dag.hasVertex_src hxy)))).2 hxy
  · exact Digraph.hasVertex_iff.2 (List.mem_filter.1 hk).1
  · exact Digraph.hasVertex_iff.2 (List.mem_filter.1 hk).1
  · have hx : x ∈ joined.merges := hx
    rw [hmerges] at hx
    cases hx

/-- What has to hold of variables that are read, said of the parts. -/
lemma WellBuilt.defined_parts (h : n.WellBuilt) : ∀ k ∈ n.parts, ∀ v ∈ k.inputs, ∃ m ∈ n.parts, v ∈ m.outputs := by
  intro k hk v hv
  rcases mem_parts.1 hk with hk | ⟨w, -, rfl⟩
  · rcases h.defined k hk v hv with ⟨m, hm, hvm⟩ | hvar
    · exact ⟨m, mem_parts.2 (.inl hm), hvm⟩
    · exact ⟨inputNode v, mem_parts.2 (.inr ⟨v, hvar, rfl⟩), List.mem_singleton_self v⟩
  · cases hv

/-- What can be frozen is well built. -/
lemma wellBuilt_of_resolves (h : Open n) (hc : Current n) (hs : n.state = .building) {g : Graph} {order : List String}
    {c : Calibration} (hr : Resolves n g order c added joined listed) : n.WellBuilt := by
  have hj := joined_of_join hc hs hr.vars hr.join
  have hf := hr.frozen hc.wellFormed (hc.unjoined hs).1
  obtain ⟨-, harcs, -, -⟩ := foldlM_addInput_ok hc.wellFormed hr.vars
  obtain ⟨-, hwired⟩ := join_ok hr.join (harcs.trans (hc.unjoined hs).1)
  obtain ⟨r, hsealed⟩ := sealed_eq hr.outs n.build.registerAll
  obtain rfl := hr.graph.trans hsealed
  refine ⟨((foldlM_addInput_ok_iff h.thawed h.named).1 ⟨_, hr.vars⟩).2, ?_, fun k hk v hv => ?_, ?_, fun p hp => ?_,
    fun q hq => ?_⟩
  · obtain ⟨ps, hps, -⟩ := bind_eq_ok.1 hr.join
    rw [← outputs_parts]
    exact ((nodes_foldlM_addInput hr.vars).1.flatMap_right _).nodup_iff.1 (producers_ok_iff.1 ⟨ps, hps⟩)
  · obtain ⟨m, hm, hvm, -⟩ := hwired.fed (hj.nodes.mem_iff.2 (mem_parts.2 (.inl hk))) hv
    rcases mem_parts.1 (hj.nodes.mem_iff.1 hm) with hm | ⟨w, hw, rfl⟩
    · exact .inl ⟨m, hm, hvm⟩
    · exact .inr (List.mem_singleton.1 hvm ▸ hw)
  · rw [← hj.adj_eq]
    exact hf.sound.acyclic
  · rw [← hj.adj_eq]
    exact foldlM_registerOut_ok_iff.1 ⟨_, hr.outs⟩ p hp
  · exact hj.carries_iff.1 (foldlM_scaleVar_ok_iff.1 ⟨_, hr.scales⟩ q hq)

/-- What is well built can be frozen. -/
lemma WellBuilt.resolves (hb : n.WellBuilt) (h : Open n) (hc : Current n) (hs : n.state = .building)
    (hops : ∀ k ∈ n.graph.names, ArrowFree k) (hvs : ∀ v ∈ n.build.vars, ArrowFree v) :
    ∃ g order c added joined listed, Resolves n g order c added joined listed := by
  obtain ⟨added, hvars⟩ := (foldlM_addInput_ok_iff h.thawed h.named).2 ⟨(List.nodup_append.1 hb.once).2.1, hb.apart⟩
  obtain ⟨wf, harcs, hrest, -⟩ := foldlM_addInput_ok hc.wellFormed hvars
  have harcs := harcs.trans (hc.unjoined hs).1
  have hperm := (nodes_foldlM_addInput hvars).1
  have hmem : ∀ k, k ∈ added.nodes ↔ k ∈ n.parts := fun k => hperm.mem_iff
  obtain ⟨joined, hjoin⟩ : ∃ joined, join added = .ok joined := by
    apply join_ok_of_acyclic wf _ harcs
    · exact (hperm.flatMap_right _).nodup_iff.2 (outputs_parts n ▸ hb.once)
    · intro k hk v hv
      obtain ⟨m, hm, hvm⟩ := hb.defined_parts k ((hmem k).1 hk) v hv
      exact ⟨m, (hmem m).2 hm, hvm⟩
    · rw [Passes.congr hmem]
      exact hb.acyclic
    · rw [hrest]
      exact h.thawed
  have hj := joined_of_join hc hs hvars hjoin
  have hext := (join_ok hjoin harcs).1
  obtain ⟨listed, houts⟩ : ∃ listed, n.build.outs.foldlM registerOut (bound joined) = .ok listed := by
    refine foldlM_registerOut_ok_iff.2 fun p hp => ?_
    have hpasses := hb.outs p hp
    rwa [← hj.adj_eq] at hpasses
  have hac : joined.dag.Acyclic := by
    intro x hx
    rw [hj.adj_eq] at hx
    exact hb.acyclic x hx
  have harrow : ∀ k ∈ joined.names, ArrowFree k := by
    intro k hk
    obtain ⟨m, hm, rfl⟩ := hj.exists_part hk
    rcases mem_parts.1 hm with hm | ⟨w, hw, rfl⟩
    · refine hops _ ?_
      rw [hc.wellFormed.names_eq]
      exact List.mem_map_of_mem hm
    · exact hvs w hw
  have hsound := hj.sound_sealed hac harrow (by rw [hext.rest, hrest]; exact h.unregistered)
    (by rw [hext.rest, hrest]; exact (hc.unjoined hs).2) houts n.build.registerAll
  obtain ⟨r, hr⟩ := sealed_eq houts n.build.registerAll
  have hwf : (sealed n.build.registerAll listed).WellFormed := hj.wellFormed.of_dag (by rw [hr]; rfl)
  obtain ⟨order, horder, -⟩ := hwf.dag.exists_order hsound.acyclic
  obtain ⟨c, hscales⟩ := (foldlM_scaleVar_ok_iff (g := sealed n.build.registerAll listed) (c := n.calibration)).2
    fun q hq => by
      rw [hr]
      exact hj.carries_iff.2 (hb.scales q hq)
  exact ⟨_, order, c, added, joined, listed, hvars, hjoin, houts, rfl, horder, hwf.verify_ok_iff.2 hsound, hscales⟩

/-- The graph that is made of a network assembles its parts. -/
lemma assembles_of_resolves (h : Open n) (hc : Current n) (hs : n.state = .building) {g : Graph} {order : List String}
    {c : Calibration} (hr : Resolves n g order c added joined listed) : n.Assembles g := by
  have hj := joined_of_join hc hs hr.vars hr.join
  have hdef := (wellBuilt_of_resolves h hc hs hr).defined_parts
  obtain ⟨-, harcs, -, -⟩ := foldlM_addInput_ok hc.wellFormed hr.vars
  have hext := (join_ok hr.join (harcs.trans (hc.unjoined hs).1)).1
  obtain ⟨r, hsealed⟩ := sealed_eq hr.outs n.build.registerAll
  obtain rfl := hr.graph.trans hsealed
  refine ⟨hj.nodes, fun hlen => ?_, fun e => hj.mem_edges_iff, hj.ends_nodup, hj.ins_bound hdef, hj.outs_bound⟩
  have hnodes : joined.nodes = added.nodes := by
    rw [nodes, nodes, hext.vertices]
  exact hnodes.trans ((nodes_foldlM_addInput hr.vars).2 h.numbered hlen)

/-- A network that is built can be frozen exactly when it can be resolved. -/
lemma freeze_ok_iff (hs : n.state = .building) :
    (∃ m, n.freeze = .ok m) ↔ ∃ g order c added joined listed, Resolves n g order c added joined listed := by
  constructor
  · rintro ⟨m, hm⟩
    obtain ⟨-, g, order, c, hres, -⟩ := freeze_eq hm
    exact ⟨g, order, c, resolve_ok_iff.1 hres⟩
  · rintro ⟨g, order, c, hres⟩
    refine ⟨{ n with
      graph := g, calibration := c, order := some order, state := .frozen, build := {}, epoch := n.epoch + 1 }, ?_⟩
    unfold freeze
    rw [if_neg (not_not.2 hs)]
    have hres := resolve_ok_iff.2 hres
    simp only [hres]
    rfl

end Acceptance

/-- A network that is being built can be frozen exactly when what was declared is well built. Its graph has one edge for
each two nodes of which one reads from the other, for the first variable it reads there, the inputs of its boundary read
nothing and the outputs are read by nobody, in the order in which the nodes were added: an operator comes behind all
others, and variables from outside come last. -/
theorem freeze_accepts {w : Workspace} (hw : Workspace.Becomes {} w) {r : NetworkRef} (hn : w.network? r = some n)
    (hs : n.state = .building) (hops : ∀ k ∈ n.graph.names, ArrowFree k) (hvs : ∀ v ∈ n.build.vars, ArrowFree v) :
    ((∃ m, n.freeze = .ok m) ↔ n.WellBuilt) ∧ (∀ m, n.freeze = .ok m → n.Assembles m.graph) ∧
      ∀ name type inputs outputs m, n.addOp name type inputs outputs = .ok m → n.graph.nodes.length < UInt64.size →
        m.graph.nodes = n.graph.nodes ++ [({ name, type, inputs, outputs } : Node)] := by
  have hc := hw.current hn
  have hopen : Open n := hw.all durable_open hn hs
  refine ⟨?_, fun m hm => ?_, fun name type inputs outputs m hm hlen => ?_⟩
  · rw [freeze_ok_iff hs]
    constructor
    · rintro ⟨g, order, c, added, joined, listed, hr⟩
      exact wellBuilt_of_resolves hopen hc hs hr
    · intro hb
      exact hb.resolves hopen hc hs hops hvs
  · obtain ⟨-, g, order, c, hres, rfl⟩ := freeze_eq hm
    obtain ⟨added, joined, listed, hr⟩ := resolve_ok_iff.1 hres
    exact assembles_of_resolves hopen hc hs hr
  · obtain ⟨-, graph, hg, rfl⟩ := addOp_ok hm
    exact nodes_insertNode hopen.numbered hg hlen

/-- An operator reads the second and the first variable that another one writes, which reads one from outside; the one
that is read first has a scale, and the edge for it is an output. -/
def crosswise : Workspace :=
  ((Workspace.newNetwork {} "net" none).1).asked 0 [
    .addOp "b" "add" ["q", "p"] ["s"], .addOp "a" "conv" ["x"] ["p", "q"], .declareVar "x", .declareOut "a" "b",
    .set (.varScale "q" 0.5)]

/-- The network is well built, and the one edge between its operators carries the variable that is read first. -/
theorem freeze_accepts_crosswise : ∃ n m, crosswise.network? 0 = some n ∧ n.state = .building ∧
    n.build.vars = ["x"] ∧ n.build.outs = [("a", "b")] ∧ n.build.varScales.map (·.1) = ["q"] ∧ n.WellBuilt ∧
    n.freeze = .ok m ∧ n.Assembles m.graph ∧ m.graph.ins = ["x"] ∧ m.graph.outs = ["b"] ∧
    m.graph.edge? "a" "b" = some { src := "a", dst := "b", srcSlot := 1, dstSlot := 0, var := "q" } := by
  have hw : Workspace.Becomes {} crosswise := ((Workspace.Becomes.refl {}).newNetwork "net" none).asked 0 _
  have hrun : (crosswise.network? 0).any fun n => decide (n.state = .building) && decide (n.graph.names = ["b", "a"]) &&
      decide (n.build.vars = ["x"]) && decide (n.build.outs = [("a", "b")]) &&
      decide (n.build.varScales.map (·.1) = ["q"]) && n.freeze.toOption.any fun m => decide (m.graph.ins = ["x"]) &&
        decide (m.graph.outs = ["b"]) && decide (m.graph.edge? "a" "b" =
          some { src := "a", dst := "b", srcSlot := 1, dstSlot := 0, var := "q" }) := by
    decide +kernel
  obtain ⟨n, hn, hrun⟩ := (Option.any_eq_true _ _).1 hrun
  simp only [Bool.and_eq_true, decide_eq_true_eq] at hrun
  obtain ⟨⟨⟨⟨⟨hs, hnames⟩, hvars⟩, houts⟩, hscales⟩, hfreeze⟩ := hrun
  obtain ⟨m, hm, hm'⟩ := (Option.any_eq_true _ _).1 hfreeze
  simp only [Bool.and_eq_true, decide_eq_true_eq] at hm'
  obtain ⟨⟨hins, hboundary⟩, hedge⟩ := hm'
  have hm := eq_ok_of_toOption hm
  obtain ⟨hiff, hassembles, -⟩ :=
    freeze_accepts hw hn hs (by rw [hnames]; decide +kernel) (by rw [hvars]; decide +kernel)
  exact ⟨n, m, hn, hs, hvars, houts, hscales, hiff.1 ⟨m, hm⟩, hm, hassembles m hm, hins, hboundary, hedge⟩

end OpGraph.Network
