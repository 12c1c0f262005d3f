import Mathlib
import OpGraph.Proofs.Network.Reached

/-!
# Optimizations of any network

Nothing is asked here of what nodes are called. A run of the engine ends well or reaches its cap, for the digraph it
works on has no cycle at any time. A commit leaves a graph that was verified, so its order can be worked out, and the
layouts that are assigned are valid, so its calibration can be worked out too. Hence an optimization lands as a whole,
or nothing changes.
-/

namespace OpGraph

open Sandbox

variable {g : Graph} {d : Draft}

/-! ### Runs of the engine -/

namespace Engine

variable {e : Engine} {g : Graph} {o s t : Sandbox}

/-- The only thing that can go wrong is that the cap is reached. -/
lemma capReached_of_loop {start run : Sandbox × Stats} (h : Roster g o start.1) (hr : e.Reaches start run) {n : Nat}
    {cause : Error} (he : (e.loop n run).2 = some cause) : cause = .capReached e.passes := by
  induction n generalizing run with
  | zero =>
    cases he
    rfl
  | succ n ih =>
    -- the counter of passes is no part of what a run does
    have hstarted : e.Reaches start (run.1, { run.2 with iterations := run.2.iterations + 1 }) := hr.recount rfl rfl
    have hpass := hstarted.pass
    obtain ⟨after, heq, -⟩ := exists_pass (hr.roster h) { run.2 with iterations := run.2.iterations + 1 }
    rw [heq] at hpass
    unfold loop at he
    simp only [heq] at he
    split at he
    · exact ih hpass he
    · cases he

/-- A run fails only by reaching its cap. -/
lemma capReached_of_run (h : Roster g o s) {cause : Error} (he : (e.run s).2 = some cause) :
    cause = .capReached e.passes := by
  have hstart : Roster g o (s, ({} : Stats)).1 := h
  exact capReached_of_loop hstart (.refl _) he

end Engine

/-- Normalizing keeps the roster of nodes. -/
lemma Sandbox.Roster.normalize {o s : Sandbox} (h : Roster g o s) (known : Dict Layout) :
    Roster g o (s.normalize known).1 :=
  normalize_induct (fun _ _ _ _ _ _ _ hs hu => hs.edit (e := .update _) hu) h

namespace Network

variable {n m : Network} {l : Library} {fusion : Bool}

/-! ### Landing -/

/-- The graph `g` is what committing the sandbox `t` makes of the graph of a network. -/
def Commits (n : Network) (t : Sandbox) (g : Graph) : Prop :=
  (t.patch.isEmpty ∧ g = n.graph) ∨ n.graph.Applies t.patch g

/-- The ways in which landing a draft can end. -/
inductive Settles (n : Network) (d : Draft) (fusion : Bool) : Network × Outcome → Prop where
  | illegible {f : Failure} : Settles n d fusion (n, .failed d.stats ⟨.optimize, .layout f⟩)
  | stale (he : n.epoch ≠ d.epoch) : Settles n d fusion (n, .stale d.stats)
  | refused {cause : Sandbox.Error} (he : n.epoch = d.epoch)
    (hc : (d.sandbox.normalize d.known).1.commit n.graph = .error cause) :
      Settles n d fusion (n, .failed d.stats ⟨.optimize, .sandbox cause⟩)
  | done {g : Graph} {c : Calibration} {order : List String} (he : n.epoch = d.epoch)
      (hc : n.Commits (d.sandbox.normalize d.known).1 g) (ho : g.order = .ok order) :
      Settles n d fusion (n.settled g c order d.stats fusion, .done d.stats)

/-- The graph that a commit leaves keeps the rules. -/
lemma Commits.sound (wf : n.graph.WellFormed) (hs : n.graph.Sound) {t : Sandbox} (h : n.Commits t g) :
    g.WellFormed ∧ g.Sound := by
  rcases h with ⟨-, rfl⟩ | h
  · exact ⟨wf, hs⟩
  · exact ⟨h.wellFormed, h.sound⟩

/-- Once a commit is through, the calibration and the order are worked out without fail. -/
lemma settle_ok (wf : n.graph.WellFormed) (hs : n.graph.Sound) {s t t' : Sandbox} {known layouts : Dict Layout}
    {changes : Changes} (hn : s.normalize known = (t, .ok layouts)) (hc : t.commit n.graph = .ok (g, t', changes))
    (stats : Stats) (fusion : Bool) (ord : RenameOrder) :
    ∃ c order, n.settle g ord changes.renamed layouts stats fusion = .ok (n.settled g c order stats fusion) ∧
      n.Commits t g ∧ g.order = .ok order := by
  have hcommits : n.Commits t g := Graph.apply_ok wf (commit_ok hc).1
  obtain ⟨hwf, hsound⟩ := hcommits.sound wf hs
  obtain ⟨c, hrec, -⟩ := recalibrate_ok layouts (valid_normalize hn) n.calibration g ord changes.renamed
  obtain ⟨order, ho, -⟩ := hwf.dag.exists_order hsound.acyclic
  refine ⟨c, order, ?_, hcommits, ho⟩
  rw [settle, hrec, Graph.order, ho]
  rfl

/-- Whatever a draft holds, it lands in one of these ways. -/
lemma settles_land (wf : n.graph.WellFormed) (hs : n.epoch = d.epoch → n.graph.Sound) (fusion : Bool)
    (ord : RenameOrder) : Settles n d fusion (n.land d fusion ord) := by
  unfold land
  cases hnorm : d.sandbox.normalize d.known with
  | mk t result =>
    have ht : (d.sandbox.normalize d.known).1 = t := by rw [hnorm]
    cases result with
    | error f => exact .illegible
    | ok layouts =>
      dsimp only
      by_cases he : n.epoch = d.epoch
      · rw [if_neg (not_not.2 he)]
        cases hcommit : t.commit n.graph with
        | error cause => exact .refused he (ht ▸ hcommit)
        | ok r =>
          obtain ⟨c, order, hsettle, hc, ho⟩ := settle_ok wf (hs he) hnorm hcommit d.stats fusion ord
          dsimp only
          rw [hsettle]
          exact .done he (ht ▸ hc) ho
      · rw [if_pos he]
        exact .stale he

/-- In its own epoch a draft lands, or the network stays as it is. Neither this nor the outcome depends on the order in
which entries are moved. -/
lemma land_cases (wf : n.graph.WellFormed) (hs : n.graph.Sound) (he : n.epoch = d.epoch) (fusion : Bool) :
    (∀ ord, ∃ m, n.land d fusion ord = (m, .done d.stats)) ∨
      ∃ e, ∀ ord, n.land d fusion ord = (n, .failed d.stats e) := by
  unfold land
  cases hnorm : d.sandbox.normalize d.known with
  | mk t result =>
    cases result with
    | error f => exact .inr ⟨_, fun _ => rfl⟩
    | ok layouts =>
      simp only [if_neg (not_not.2 he)]
      cases hcommit : t.commit n.graph with
      | error cause => exact .inr ⟨_, fun _ => rfl⟩
      | ok r =>
        refine .inl fun ord => ?_
        obtain ⟨c, order, hsettle, -⟩ := settle_ok wf hs hnorm hcommit d.stats fusion ord
        dsimp only
        rw [hsettle]
        exact ⟨_, rfl⟩

/-- A draft of another version of the graph does not land. -/
lemma land_of_outdated (h : (d.sandbox.normalize d.known).1.base ≠ n.graph.version) (fusion : Bool)
    (ord : RenameOrder) : (n.land d fusion ord).1 = n := by
  unfold land
  split
  · rfl
  · rename_i t layouts hnorm
    rw [hnorm] at h
    split
    · rfl
    · split
      · rfl
      · rename_i hcommit
        exact absurd (Graph.version_apply (commit_ok hcommit).1).1 h

/-! ### Requests -/

/-- What can be asked of a network alone, other than to optimize it. -/
inductive Request where
  | addOp (name type : String) (inputs outputs : List String)
  | declareVar (var : String)
  | declareOut (src dst : String)
  | declareAllOuts
  | set (setting : Setting)
  | freeze

/-- Does what is asked. -/
def request (n : Network) : Request → Except Error Network
  | .addOp name type inputs outputs => n.addOp name type inputs outputs
  | .declareVar var => n.declareVar var
  | .declareOut src dst => n.declareOut src dst
  | .declareAllOuts => n.declareAllOuts
  | .set setting => n.set setting
  | .freeze => n.freeze

/-- What a request can make of a network. -/
inductive Answers (n : Network) : Network → Prop where
  | added {node : Node} {graph : Graph} (hs : n.state = .building) (hg : n.graph.insertNode node = .ok graph) :
      Answers n { n with graph }
  | declared (build : Build) : Answers n { n with build }
  | updated (op : String) {f : Node → Node} (hf : ∀ v, (f v).bare = v.bare) :
      Answers n { n with graph := n.graph.updateNode op f, epoch := n.epoch + 1 }
  | calibrated (calibration : Calibration) (build : Build) : Answers n { n with calibration, build }
  | frozen {m : Network} (hm : n.freeze = .ok m) : Answers n m

/-- A request makes of a network what it should. -/
lemma answers_request {q : Request} (h : n.request q = .ok m) : Answers n m := by
  cases q with
  | addOp name type inputs outputs =>
    obtain ⟨hs, graph, hg, rfl⟩ := addOp_ok h
    exact .added hs hg
  | declareVar var =>
    obtain ⟨-, -, rfl⟩ := declareVar_ok h
    exact .declared _
  | declareOut src dst =>
    have h := failing_ok h
    split_ifs at h
    · cases h
    · cases h
      exact .declared _
  | declareAllOuts =>
    have h := failing_ok h
    split_ifs at h
    · cases h
    · cases h
      exact .declared _
  | set setting =>
    rcases set_cases h with ⟨op, f, hf, rfl⟩ | ⟨calibration, varScales, rfl⟩
    · exact .updated op hf
    · exact .calibrated _ _
  | freeze => exact .frozen h

/-! ### Current networks -/

/-- The order of a network that is no longer built is that of its graph, which keeps the rules. -/
structure Current (n : Network) : Prop where
  wellFormed : n.graph.WellFormed
  unjoined : n.state = .building → n.graph.dag.arcs = [] ∧ n.graph.merges = []
  sound : n.state ≠ .building → n.graph.Sound
  order : n.state ≠ .building → ∃ order, n.order = some order ∧ n.graph.order = .ok order

namespace Current

lemma new (name : String) (library : LibraryRef) : Current (Network.new name library) where
  wellFormed := ⟨Digraph.wellFormed_empty, List.forall_mem_nil _⟩
  unjoined := fun _ => ⟨rfl, rfl⟩
  sound := fun h => absurd rfl h
  order := fun h => absurd rfl h

/-- Freezing leaves a network current. -/
lemma freeze (h : Current n) (hm : n.freeze = .ok m) : Current m := by
  have hf := freeze_ok hm h.wellFormed fun hs => (h.unjoined hs).1
  obtain ⟨-, hstate, -, hf⟩ := hf
  refine ⟨hf.wellFormed, fun hb => ?_, fun _ => hf.sound, fun _ => ?_⟩
  · rw [hstate] at hb
    cases hb
  · obtain ⟨-, graph, order, calibration, hres, rfl⟩ := freeze_eq hm
    exact ⟨order, rfl, order_resolve hres⟩

/-- Replacing the precision and the attributes of a node does not matter to the order. -/
lemma updateNode (h : Current n) (op : String) {f : Node → Node} (hf : ∀ v, (f v).bare = v.bare) (epoch : Nat) :
    Current { n with graph := n.graph.updateNode op f, epoch } where
  wellFormed := h.wellFormed.updateNode op fun v => Node.name_of_bare (hf v)
  unjoined := h.unjoined
  sound := fun hs => (h.sound hs).updateNode op f
  order := by
    intro hs
    obtain ⟨order, hn, ho⟩ := h.order hs
    refine ⟨order, hn, ?_⟩
    have htop : (n.graph.updateNode op f).dag.topology = n.graph.dag.topology := by
      rw [Digraph.topology, Digraph.topology, Graph.keys_updateNode]
      rfl
    rwa [Graph.order, htop]

/-- Answers to requests leave a network current. -/
lemma answers (h : Current n) (ha : Answers n m) : Current m := by
  cases ha with
  | added hs hg =>
    have hwf := h.wellFormed.insertNode hg
    obtain ⟨dag, hdag, rfl⟩ := Graph.insertNode_ok hg
    refine ⟨hwf, fun hb => ?_, fun hb => absurd hs hb, fun hb => absurd hs hb⟩
    obtain ⟨harcs, hmerges⟩ := h.unjoined hb
    exact ⟨(Digraph.arcs_addVertexAt hdag).trans harcs, hmerges⟩
  | declared build => exact { h with }
  | updated op hf => exact h.updateNode op hf _
  | calibrated calibration build => exact { h with }
  | frozen hm => exact h.freeze hm

/-- However landing a draft ends, it leaves a network current. -/
lemma settles (h : Current n) {r : Network × Outcome} (hs : n.epoch = d.epoch → n.state ≠ .building)
    (hr : Settles n d fusion r) : Current r.1 := by
  cases hr with
  | illegible => exact h
  | stale _ => exact h
  | refused _ _ => exact h
  | done he hc ho =>
    obtain ⟨hwf, hsound⟩ := hc.sound h.wellFormed (h.sound (hs he))
    cases fusion with
    | true =>
      exact ⟨hwf.of_dag rfl, fun hb => (by cases hb),
        fun _ => ⟨hsound.payload, hsound.registered, hsound.ins, hsound.outs,
        hsound.merges, hsound.acyclic⟩, fun _ => ⟨_, rfl, ho⟩⟩
    | false => exact ⟨hwf, fun hb => absurd hb (hs he), fun _ => hsound, fun _ => ⟨_, rfl, ho⟩⟩

/-- Landing a draft in the epoch of a network that is no longer built. -/
lemma land (h : Current n) (hs : n.epoch = d.epoch → n.state ≠ .building) (fusion : Bool) (ord : RenameOrder) :
    Current (n.land d fusion ord).1 :=
  h.settles hs (settles_land h.wellFormed (fun he => h.sound (hs he)) fusion ord)

end Current

/-! ### Epochs -/

/-- A patch was applied to a graph, or the graph is the same but for its mark. -/
inductive Renews (g : Graph) : Graph → Prop where
  | patched {g' : Graph} (h : g.version < g'.version) : Renews g g'
  | marked (optimized : Bool) : Renews g { g with optimized }

namespace Renews

variable {g g' g'' : Graph}

lemma refl (g : Graph) : Renews g g :=
  .marked g.optimized

lemma trans (h : Renews g g') (h' : Renews g' g'') : Renews g g'' := by
  cases h with
  | patched hlt =>
    cases h' with
    | patched hlt' => exact .patched (hlt.trans hlt')
    | marked optimized => exact .patched hlt
  | marked optimized =>
    cases h' with
    | patched hlt => exact .patched hlt
    | marked optimized' => exact .marked optimized'

/-- A commit applies a patch. -/
lemma commit {s t : Sandbox} {changes : Changes} (h : s.commit g = .ok (g', t, changes)) : Renews g g' := by
  rcases (Graph.version_apply (commit_ok h).1).2 with rfl | ⟨-, hlt⟩
  · exact .refl g'
  · exact .patched hlt

end Renews

/-- A later state of a network: its epoch has changed, or it is not built again and its graph changed by patches
only. -/
def Advances (n m : Network) : Prop :=
  n.epoch < m.epoch ∨ n.epoch = m.epoch ∧ (n.state ≠ .building → m.state ≠ .building ∧ Renews n.graph m.graph)

namespace Advances

lemma refl (n : Network) : Advances n n :=
  .inr ⟨rfl, fun h => ⟨h, .refl n.graph⟩⟩

lemma trans {k : Network} (h : Advances n m) (h' : Advances m k) : Advances n k := by
  rcases h with hlt | ⟨he, hs⟩
  · rcases h' with hlt' | ⟨he', -⟩
    · exact .inl (hlt.trans hlt')
    · exact .inl (he' ▸ hlt)
  · rcases h' with hlt' | ⟨he', hs'⟩
    · exact .inl (he ▸ hlt')
    · refine .inr ⟨he.trans he', fun h => ?_⟩
      obtain ⟨hm, hg⟩ := hs h
      exact ⟨(hs' hm).1, hg.trans (hs' hm).2⟩

lemma of_eq (he : m.epoch = n.epoch) (hs : m.state = n.state) (hg : Renews n.graph m.graph) : Advances n m :=
  .inr ⟨he.symm, fun h => ⟨hs ▸ h, hg⟩⟩

lemma succ {m : Network} (h : m.epoch = n.epoch + 1) : Advances n m :=
  .inl (h ▸ Nat.lt_succ_self _)

/-- The answer to a request is no earlier state. -/
lemma answers (ha : Answers n m) : Advances n m := by
  cases ha with
  | added hs hg => exact .inr ⟨rfl, fun hb => absurd hs hb⟩
  | declared build => exact .of_eq rfl rfl (.refl _)
  | updated op hf => exact .succ rfl
  | calibrated calibration build => exact .of_eq rfl rfl (.refl _)
  | frozen hm =>
    obtain ⟨-, graph, order, calibration, -, rfl⟩ := freeze_eq hm
    exact .succ rfl

/-- Settling on a graph leads to a later state. -/
lemma settle {ord : RenameOrder} {renamed : Dict EdgeId} {layouts : Dict Layout} {stats : Stats}
    (h : n.settle g ord renamed layouts stats fusion = .ok m) (hg : Renews n.graph g) : Advances n m := by
  obtain ⟨c, -, h⟩ := bind_eq_ok.1 h
  split at h
  · cases h
  · cases h
    cases fusion with
    | true => exact .inr ⟨rfl, fun _ => ⟨State.noConfusion, hg.trans (.marked true)⟩⟩
    | false => exact .of_eq rfl rfl hg

/-- Landing a draft leads to no earlier state. -/
lemma land (n : Network) (d : Draft) (fusion : Bool) (ord : RenameOrder) : Advances n (n.land d fusion ord).1 := by
  unfold Network.land
  split
  · exact .refl n
  · split
    · exact .refl n
    · split
      · exact .refl n
      · rename_i hcommit
        have hg := Renews.commit hcommit
        split
        · exact .settle ‹_› hg
        · exact .of_eq rfl rfl hg

/-- A network is not built again in the epoch of a draft of it. -/
lemma not_building (h : Advances n m) (hd : n.draft l fusion = .ok d) (he : m.epoch = d.epoch) :
    m.state ≠ .building := by
  obtain ⟨hs, hdrafted⟩ := draft_ok hd
  have hepoch := hdrafted.epoch
  rcases h with hlt | ⟨-, hstate⟩
  · omega
  · exact (hstate hs).1

/-- In the epoch of a draft of it, and as long as no patch was applied, the graph of a network is the same but for its
mark. -/
lemma graph_eq (h : Advances n m) (hd : n.draft l fusion = .ok d) (he : m.epoch = d.epoch)
    (hv : n.graph.version = m.graph.version) : ∃ optimized, m.graph = { n.graph with optimized } := by
  obtain ⟨hs, hdrafted⟩ := draft_ok hd
  have hepoch := hdrafted.epoch
  rcases h with hlt | ⟨-, hstate⟩
  · omega
  · generalize m.graph = g at hv hstate
    cases (hstate hs).2 with
    | patched hlt => omega
    | marked optimized => exact ⟨optimized, rfl⟩

end Advances

/-! ### Optimizations -/

/-- The ways in which an optimization that nobody disturbs can end. -/
inductive Attempts (n : Network) (l : Library) (fusion : Bool) : Network × Outcome → Prop where
  | unfrozen (hs : n.state = .building) : Attempts n l fusion (n, .failed {} ⟨.optimize, .notFrozen⟩)
  | capped {stats : Stats} (hs : n.state ≠ .building) :
      Attempts n l fusion (n, .failed stats ⟨.optimize, .engine (.capReached (n.engine l).passes)⟩)
  | illegible {stats : Stats} {f : Failure} (hs : n.state ≠ .building) :
      Attempts n l fusion (n, .failed stats ⟨.optimize, .layout f⟩)
  | refused {stats : Stats} {cause : Graph.Error} (hs : n.state ≠ .building) :
      Attempts n l fusion (n, .failed stats ⟨.optimize, .sandbox (.rejected cause)⟩)
  | done {d : Draft} {g : Graph} {c : Calibration} {order : List String} (hs : n.state ≠ .building)
      (hd : n.draft l fusion = .ok d) (hc : n.Commits (d.sandbox.normalize d.known).1 g) (ho : g.order = .ok order) :
      Attempts n l fusion (n.settled g c order d.stats fusion, .done d.stats)

/-- The sandbox of a draft knows truly which nodes it has. -/
lemma Drafted.roster (hd : Drafted n l fusion d) (wf : n.graph.WellFormed) (hg : n.graph.Sound) :
    Roster n.graph (Sandbox.copy n.graph none) (d.sandbox.normalize d.known).1 := by
  obtain ⟨trace, hruns, -⟩ := hd.runs
  exact (hruns.roster (Roster.copy wf hg none)).normalize d.known

/-- An optimization that nobody disturbs ends in one of its ways. -/
lemma attempts_optimize (wf : n.graph.WellFormed) (hg : n.state ≠ .building → n.graph.Sound) (l : Library)
    (fusion : Bool) (ord : RenameOrder) : Attempts n l fusion (n.optimize l fusion ord) := by
  unfold optimize
  by_cases hs : n.state = .building
  · rw [draft, if_pos hs]
    exact .unfrozen hs
  · rcases draft_cases hs l fusion with ⟨s, stats, cause, -, hrun, herr⟩ | ⟨d, hok, hd⟩
    · rw [herr]
      have hcause := Engine.capReached_of_run (Roster.copy wf (hg hs) none)
        (show ((n.engine l).run (Sandbox.copy n.graph none)).2 = some cause by rw [hrun])
      rw [hcause]
      exact .capped hs
    · rw [hok]
      dsimp only
      have hl := settles_land wf (d := d) (fun _ => hg hs) fusion ord
      have hroster := hd.roster wf (hg hs)
      generalize n.land d fusion ord = r at hl
      cases hl with
      | illegible => exact .illegible hs
      -- the draft was made of this very network
      | stale he => exact absurd hd.epoch.symm he
      | refused he hc =>
        rw [hroster.commit_eq] at hc
        split at hc
        · cases hc
        · cases hc
          exact .refused hs
      | done he hc ho => exact .done hs hok hc ho

/-- An optimization that nobody disturbs is done or leaves the network as it is. Which of the two, and what it reports,
does not depend on the order in which entries are moved. -/
lemma optimize_done_or_failed (wf : n.graph.WellFormed) (hg : n.state ≠ .building → n.graph.Sound) (l : Library)
    (fusion : Bool) :
    (∃ st, ∀ ord, ∃ m, n.optimize l fusion ord = (m, .done st)) ∨
      ∃ st e, ∀ ord, n.optimize l fusion ord = (n, .failed st e) := by
  unfold optimize
  cases hok : n.draft l fusion with
  | error e => exact .inr ⟨_, _, fun _ => rfl⟩
  | ok d =>
    obtain ⟨hs, hd⟩ := draft_ok hok
    rcases land_cases wf (hg hs) hd.epoch.symm fusion with hdone | ⟨e, hfailed⟩
    · exact .inl ⟨_, hdone⟩
    · exact .inr ⟨_, _, hfailed⟩

end Network

end OpGraph
