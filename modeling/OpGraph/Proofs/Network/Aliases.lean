import Mathlib
import OpGraph.Proofs.Network.Accounting

/-!
# Names of absorbed operators

A fused node gets a name that is free in the sandbox it is made in. There the names of its members stay taken, but the
next sandbox knows only those of the nodes that are left. So an operator that was absorbed shares its name with a node
exactly if the node is a fused one that a later optimization named so, after its pattern. No optimization takes the name
of an operator that it absorbs itself.
-/

namespace OpGraph

open Sandbox

variable {e : Engine} {trace : List (Sandbox × Edit)}

/-- The fused node is called like its pattern, or with a number behind it. -/
def MergeRecord.Titled (r : MergeRecord) : Prop :=
  r.fused = r.pattern ∨ ∃ i, r.fused = numbered r.pattern (i + 1)

namespace Sandbox

variable {g : Graph} {o s t : Sandbox} {e : Engine} {trace : List (Sandbox × Edit)}

/-! ### Records of a sandbox -/

/-- A step of the engine leaves the records as they are, or it replaces those of some nodes by one of a fused node,
whose name was free. -/
lemma merges_step (hs : Roster g o s) {ed : Edit} (h : e.Step s ed t) :
    (t.merges = s.merges ∧ t.taken = s.taken) ∨ ∃ names fused pattern, fused = s.uniqueName pattern ∧
      ¬ s.taken.contains fused ∧ t.taken = s.taken.add fused ∧ ∀ k, t.merges.get? k =
        if k = fused then some (s.provenance names fused pattern) else if k ∈ names then none else s.merges.get? k := by
  cases h with
  | @drop name t hok =>
    obtain ⟨src, -, rfl⟩ := drop_ok_iff.1 hok
    obtain ⟨-, htaken, -, hrecords⟩ := drop_frame hs name src
    exact .inl ⟨(records_eq_iff.1 hrecords).1, htaken⟩
  | @merge head p members t n hp hfind hok =>
    obtain ⟨hm, hn, rfl⟩ := merge_ok_iff.1 hok
    have hname := fusedNode_name hn
    rw [← hname] at hm ⊢
    exact .inr ⟨members, n.name, p.name, hname, hm.free, taken_contract hs hm _, hs.get?_merges_contract hm _⟩

/-- The records of fused nodes say what these are called after. -/
def Titled (s : Sandbox) : Prop :=
  ∀ f r, s.merges.get? f = some r → r.Titled

/-- A step calls a fused node after its pattern. -/
lemma Titled.step (h : Titled s) (hs : Roster g o s) {ed : Edit} (hstep : e.Step s ed t) : Titled t := by
  intro f r hr
  rcases merges_step hs hstep with ⟨hmerges, -⟩ | ⟨names, fused, pattern, rfl, -, -, hget⟩
  · exact h f r (hmerges ▸ hr)
  · rw [hget] at hr
    split at hr
    · cases hr
      exact s.uniqueName_cases pattern
    · split at hr
      · cases hr
      · exact h f r hr

/-- A run calls fused nodes after their patterns. -/
lemma Titled.runs (h : Titled s) (hs : Roster g o s) (hr : e.Runs s trace t) : Titled t := by
  induction hr with
  | nil => exact h
  | snoc hr hstep ih => exact ih.step (hr.roster hs) hstep

/-- A record lists an operator, and the name of the fused node is not free. -/
def Lists (s : Sandbox) (x : String) : Prop :=
  ∃ f r, s.merges.get? f = some r ∧ x ∈ r.members ∧ s.taken.contains f

/-- What a record lists is listed by the record that takes its place. -/
lemma Lists.step {x : String} (h : Lists s x) (hs : Roster g o s) {ed : Edit} (hstep : e.Step s ed t) : Lists t x := by
  obtain ⟨f, r, hr, hx, hf⟩ := h
  rcases merges_step hs hstep with ⟨hmerges, htaken⟩ | ⟨names, fused, pattern, -, hfree, htaken, hget⟩
  · exact ⟨f, r, hmerges ▸ hr, hx, htaken ▸ hf⟩
  · have hne : f ≠ fused := by
      rintro rfl
      exact hfree hf
    by_cases hmem : f ∈ names
    · refine ⟨fused, _, (hget fused).trans (if_pos rfl), ?_, ?_⟩
      · rw [members_provenance, List.mem_flatMap]
        exact ⟨f, hmem, originals_of_some hr ▸ hx⟩
      · rw [htaken, NameSet.contains_add]
        exact .inl rfl
    · refine ⟨f, r, ?_, hx, ?_⟩
      · rw [hget, if_neg hne, if_neg hmem, hr]
      · rw [htaken, NameSet.contains_add]
        exact .inr hf

/-- What a record lists stays listed in a run. -/
lemma Lists.runs {x : String} (h : Lists s x) (hs : Roster g o s) (hr : e.Runs s trace t) : Lists t x := by
  induction hr with
  | nil => exact h
  | snoc hr hstep ih => exact ih.step (hr.roster hs) hstep

end Sandbox

namespace Network

variable {n m k : Network} {g g₀ : Graph} {l : Library} {fusion : Bool} {d : Draft} {x : String} {elided : List String}

/-! ### Absorbed operators -/

/-- An operator is absorbed exactly if a record lists it. -/
lemma isAbsorbed_iff : n.isAbsorbed x ↔ ∃ r ∈ n.graph.merges, x ∈ r.members := by
  simp [isAbsorbed]

/-- An operator that was absorbed has the name of a node. -/
def Aliased (n : Network) (x : String) : Prop :=
  n.isAbsorbed x ∧ n.graph.hasNode x

instance : Decidable (n.Aliased x) :=
  inferInstanceAs (Decidable (_ ∧ _))

/-- An operator that a record lists was there at first, and it is neither a node nor was it dropped. -/
lemma Ledger.of_listed (h : Ledger g₀ elided g) (hg₀ : g₀.names.Nodup) (wf : g.WellFormed) (hg : g.Sound)
    (hx : ∃ r ∈ g.merges, x ∈ r.members) : x ∈ g₀.names ∧ x ∉ unfused g ∧ x ∉ elided := by
  have hperm := h.perm wf hg
  have hlisted : x ∈ g.merges.flatMap (·.members) := List.mem_flatMap.2 hx
  obtain ⟨-, -, hapart⟩ := List.nodup_append.1 (hperm.nodup_iff.1 hg₀)
  refine ⟨hperm.mem_iff.2 (List.mem_append_left _ hlisted), fun hu => ?_, fun he => ?_⟩
  · exact hapart x hlisted x (List.mem_append_left _ hu) rfl
  · exact hapart x hlisted x (List.mem_append_right _ he) rfl

/-! ### Networks with books -/

/-- The books of a network are kept once it is frozen, and its fused nodes are called after their patterns. -/
structure Traced (n : Network) : Prop where
  current : Current n
  kept : n.state ≠ .building → ∃ g₀ elided, g₀.names.Nodup ∧ Kept g₀ elided n
  titled : ∀ r ∈ n.graph.merges, r.Titled

namespace Traced

/-- Answers to requests keep the books and the names. -/
lemma answers (h : Traced n) (ha : Answers n m) : Traced m := by
  have hc := h.current.answers ha
  cases ha with
  | added hs hg =>
    refine ⟨hc, fun hb => absurd hs hb, ?_⟩
    rw [(hc.unjoined hs).2]
    exact List.forall_mem_nil _
  | declared build =>
    refine ⟨hc, fun hs => ?_, h.titled⟩
    obtain ⟨g₀, elided, hg₀, hk⟩ := h.kept hs
    exact ⟨g₀, elided, hg₀, hc, hs, hk.ledger⟩
  | updated op hf =>
    refine ⟨hc, fun hs => ?_, h.titled⟩
    obtain ⟨g₀, elided, hg₀, hk⟩ := h.kept hs
    exact ⟨g₀, elided, hg₀, hc, hs, hk.ledger.updateNode h.current.wellFormed op hf⟩
  | calibrated calibration build =>
    refine ⟨hc, fun hs => ?_, h.titled⟩
    obtain ⟨g₀, elided, hg₀, hk⟩ := h.kept hs
    exact ⟨g₀, elided, hg₀, hc, hs, hk.ledger⟩
  | frozen hm =>
    obtain ⟨hs, -, -, hf⟩ := freeze_ok hm h.current.wellFormed fun hs => (h.current.unjoined hs).1
    refine ⟨hc, fun _ => ⟨m.graph, [], hc.wellFormed.dag.keys_nodup, .freeze h.current hm⟩, ?_⟩
    rw [hf.merges, (h.current.unjoined hs).2]
    exact List.forall_mem_nil _

/-- The fused nodes of a commit are called after their patterns. -/
lemma titled_commit (h : Traced n) (hs : n.state ≠ .building)
    (hr : e.Runs (Sandbox.copy n.graph none) trace d.sandbox) (hc : n.Commits (d.sandbox.normalize d.known).1 g) :
    ∀ r ∈ g.merges, r.Titled := by
  have hg := h.current.sound hs
  have hcopy : Roster n.graph (Sandbox.copy n.graph none) (Sandbox.copy n.graph none) :=
    .copy h.current.wellFormed hg none
  have hedits := ((Edits.copy h.current.wellFormed hg).runs hr).normalize d.known
  have hstart : Sandbox.Titled (Sandbox.copy n.graph none) := by
    intro f r hf
    rw [Recorded.get?_copy] at hf
    exact h.titled r (fused_of_lastRecord? hf).1
  have hend := hstart.runs hcopy hr
  obtain ⟨hredressed, -⟩ := redressed_normalize (hr.roster hcopy) d.known
  intro r hr
  rw [hc.merges_eq hedits, List.mem_append] at hr
  cases hr with
  | inl hold => exact h.titled r (List.mem_of_mem_filter hold)
  | inr hnew =>
    obtain ⟨f, -, hf⟩ := List.mem_filterMap.1 hnew
    exact hend f r (hredressed.merges ▸ hf)

/-- A network after a commit of what a run of the engine made of its graph. -/
lemma commit (h : Traced n) (hs : n.state ≠ .building)     (hr : e.Runs (Sandbox.copy n.graph none) trace d.sandbox)
    (he : n.epoch = d.epoch)
    (hc : n.Commits (d.sandbox.normalize d.known).1 g) {order : List String} (ho : g.order = .ok order)
    (c : Calibration) (fusion : Bool) : Traced (n.settled g c order d.stats fusion) := by
  obtain ⟨g₀, elided, hg₀, hk⟩ := h.kept hs
  have hk' := hk.commit hr he hc ho c fusion
  have htitled := h.titled_commit hs hr hc
  refine ⟨hk'.current, fun _ => ⟨g₀, _, hg₀, hk'⟩, ?_⟩
  cases fusion with
  | true => exact htitled
  | false => exact htitled

/-- A draft lands only on the graph that it was made of. -/
lemma land {ord : RenameOrder} (hk : Traced k) (hd : k.draft l fusion = .ok d) (hn : Traced n) (ha : Advances k n) :
    Traced (n.land d fusion ord).1 := by
  by_cases hbase : (d.sandbox.normalize d.known).1.base = n.graph.version
  · have hbuilt := ha.not_building hd
    have hsettles := settles_land hn.current.wellFormed (fun he => hn.current.sound (hbuilt he)) fusion ord
    generalize n.land d fusion ord = r at hsettles
    cases hsettles with
    | illegible => exact hn
    | stale _ => exact hn
    | refused _ _ => exact hn
    | done he hc ho =>
      obtain ⟨hs, hdrafted⟩ := draft_ok hd
      have hroster := hdrafted.roster hk.current.wellFormed (hk.current.sound hs)
      obtain ⟨optimized, hgraph⟩ := ha.graph_eq hd he (hroster.base.symm.trans hbase)
      obtain ⟨trace, hruns, -⟩ := hdrafted.runs
      have hcopy : Sandbox.copy n.graph none = Sandbox.copy k.graph none := by
        rw [hgraph]
        rfl
      exact hn.commit (hbuilt he) (hcopy ▸ hruns) he hc ho _ fusion
  · rw [land_of_outdated hbase]
    exact hn

/-- An operator that was absorbed has the name of a node exactly if that is a fused one. -/
lemma aliased_iff (h : Traced n) :
    n.Aliased x ↔ n.isAbsorbed x ∧ ∃ r ∈ n.graph.merges, r.fused = x ∧ r.Titled := by
  refine and_congr_right fun habsorbed => ?_
  have hlisted := isAbsorbed_iff.1 habsorbed
  have hs : n.state ≠ .building := by
    intro hb
    obtain ⟨r, hr, -⟩ := hlisted
    rw [(h.current.unjoined hb).2] at hr
    cases hr
  have hsound := h.current.sound hs
  constructor
  · intro hlive
    obtain ⟨g₀, elided, hg₀, hk⟩ := h.kept hs
    obtain ⟨-, hfused, -⟩ := hk.ledger.of_listed hg₀ h.current.wellFormed hsound hlisted
    rw [Ledger.mem_unfused, not_and] at hfused
    have hfused := hfused (Digraph.hasVertex_iff.1 hlive)
    push Not at hfused
    obtain ⟨r, hr, rfl⟩ := hfused
    exact ⟨r, hr, rfl, h.titled r hr⟩
  · intro hfused
    obtain ⟨r, hr, rfl, -⟩ := hfused
    exact hsound.merges r hr

/-- What was absorbed before a commit is absorbed after it. -/
lemma isAbsorbed_commit (h : Traced n) (hs : n.state ≠ .building)
    (hr : e.Runs (Sandbox.copy n.graph none) trace d.sandbox) (hc : n.Commits (d.sandbox.normalize d.known).1 g)
    (hx : n.isAbsorbed x) : ∃ r ∈ g.merges, x ∈ r.members := by
  have wf := h.current.wellFormed
  have hg := h.current.sound hs
  obtain ⟨_, _, -, hk⟩ := h.kept hs
  have hone : n.graph.OneRecord := fun r hr r' hr' he => List.inj_on_of_nodup_map hk.ledger.once hr hr' he
  obtain ⟨r, hmem, hxr⟩ := isAbsorbed_iff.1 hx
  have hlists : Lists (Sandbox.copy n.graph none) x := by
    refine ⟨r.fused, r, (get?_merges_copy hone).2 ⟨hmem, rfl⟩, hxr, ?_⟩
    exact contains_taken_copy.2 (Digraph.hasVertex_iff.1 (hg.merges r hmem))
  have hroster : Roster n.graph (Sandbox.copy n.graph none) (Sandbox.copy n.graph none) := .copy wf hg none
  obtain ⟨f, r', hf, hxr', -⟩ := hlists.runs hroster hr
  obtain ⟨hredressed, -⟩ := redressed_normalize (hr.roster hroster) d.known
  rw [← hredressed.merges, ← hc.lastRecord?_eq (((Edits.copy wf hg).runs hr).normalize d.known)] at hf
  exact ⟨r', (fused_of_lastRecord? hf).1, hxr'⟩

/-- The name of an operator that is absorbed in a commit is not given to a node there. -/
lemma absorbed_of_aliased_commit (h : Traced n) (hs : n.state ≠ .building)
    (hr : e.Runs (Sandbox.copy n.graph none) trace d.sandbox) (he : n.epoch = d.epoch)
    (hc : n.Commits (d.sandbox.normalize d.known).1 g) {order : List String} (ho : g.order = .ok order)
    {c : Calibration} (hx : (n.settled g c order d.stats fusion).Aliased x) : n.isAbsorbed x := by
  have wf := h.current.wellFormed
  have hg := h.current.sound hs
  have hedits := ((Edits.copy wf hg).runs hr).normalize d.known
  have hmerges : (n.settled g c order d.stats fusion).graph.merges = g.merges := by cases fusion <;> rfl
  obtain ⟨g₀, elided, hg₀, hk⟩ := h.kept hs
  have hk' := hk.commit hr he hc ho c fusion
  obtain ⟨hfirst, -, hkept⟩ := hk'.ledger.of_listed hg₀ hk'.current.wellFormed (hk'.current.sound hk'.frozen)
    (isAbsorbed_iff.1 hx.1)
  obtain ⟨-, r, hmem, rfl, -⟩ := ((h.commit hs hr he hc ho c fusion).aliased_iff).1 hx
  -- it was a node before, unless it was absorbed, and a new fused node does not get the name of a node
  cases List.mem_append.1 ((hk.ledger.perm wf hg).mem_iff.1 hfirst) with
  | inl hlisted => exact isAbsorbed_iff.2 (List.mem_flatMap.1 hlisted)
  | inr hrest =>
    exfalso
    cases List.mem_append.1 hrest with
    | inl hunfused =>
      obtain ⟨hlive, hno⟩ := Ledger.mem_unfused.1 hunfused
      rw [hmerges, hc.merges_eq hedits, List.mem_append] at hmem
      cases hmem with
      | inl hold => exact hno r (List.mem_of_mem_filter hold) rfl
      | inr hnew =>
        obtain ⟨f, hf, hget⟩ := List.mem_filterMap.1 hnew
        obtain ⟨r', hr', hfused⟩ := hedits.recorded.new f hf
        obtain rfl : r = r' := Option.some.inj (hget.symm.trans hr')
        exact (hedits.recorded.new_taken f hf).2 (hfused ▸ hlive)
    | inr helided => exact hkept (List.mem_append_left _ helided)

/-- An optimization gives a node the name of an absorbed operator only if that was absorbed before. -/
lemma aliased_optimize_iff (h : Traced n) (l : Library) (fusion : Bool) (ord : RenameOrder) :
    (n.optimize l fusion ord).1.Aliased x ↔ n.isAbsorbed x ∧ (n.optimize l fusion ord).1.graph.hasNode x := by
  have ha := attempts_optimize h.current.wellFormed h.current.sound l fusion ord
  generalize n.optimize l fusion ord = result at ha
  cases ha with
  | unfrozen hs => exact Iff.rfl
  | capped hs => exact Iff.rfl
  | illegible hs => exact Iff.rfl
  | refused hs => exact Iff.rfl
  | @done d g c order hs hd hc ho =>
    obtain ⟨-, hdrafted⟩ := draft_ok hd
    obtain ⟨trace, hruns, -⟩ := hdrafted.runs
    have he := hdrafted.epoch.symm
    constructor
    · intro hx
      exact ⟨h.absorbed_of_aliased_commit hs hruns he hc ho hx, hx.2⟩
    · intro hx
      refine ⟨isAbsorbed_iff.2 ?_, hx.2⟩
      have hlisted := h.isAbsorbed_commit hs hruns hc hx.1
      cases fusion with
      | true => exact hlisted
      | false => exact hlisted

end Traced

end Network

namespace Workspace

open Network (Traced)

lemma durable_traced : Durable Traced where
  new := fun name library => ⟨.new name library, fun hs => absurd rfl hs, List.forall_mem_nil _⟩
  refit := by
    intro n epoch cap elide blocks library h
    refine ⟨{ h.current with }, fun hs => ?_, h.titled⟩
    obtain ⟨g₀, elided, hg₀, hk⟩ := h.kept hs
    exact ⟨g₀, elided, hg₀, { hk.current with }, hs, hk.ledger⟩
  request := fun h hm => h.answers (Network.answers_request hm)
  land := fun hk hd hn ha => hk.land hd hn ha

/-- In a workspace that was reached, an operator that was absorbed has the name of a node exactly if the node is a fused
one that was called so after its pattern. An optimization that nobody disturbs leaves such a name exactly if the
operator was absorbed before it: it gives no fused node the name of an operator that is absorbed in it. -/
theorem aliased_iff_titled {w : Workspace} (h : Becomes {} w) {r : NetworkRef} {n : Network}
    (hn : w.network? r = some n) (x : String) :
    (n.Aliased x ↔ n.isAbsorbed x ∧ ∃ rec ∈ n.graph.merges, rec.fused = x ∧ rec.Titled) ∧
    ∀ fusion ord, ∃ m, (w.optimize r fusion ord quiet).1.network? r = some m ∧
      (m.Aliased x ↔ n.isAbsorbed x ∧ m.graph.hasNode x) := by
  have htraced : Traced n := h.all durable_traced hn
  refine ⟨htraced.aliased_iff, fun fusion ord => ⟨_, ?_, htraced.aliased_optimize_iff (w.library n.library) fusion ord⟩⟩
  rw [optimize_quiet htraced.current hn]
  exact network?_setNetwork hn _

/-- Two pairs of operators that can be fused. -/
def twoPairs : List Node := [
  { name := "c", type := "conv", outputs := ["c0"] },
  { name := "r", type := "relu", inputs := ["c0"], outputs := ["r0"] },
  { name := "s", type := "softmax", inputs := ["r0"], outputs := ["s0"] },
  { name := "z", type := "topk", inputs := ["s0"] }]

/-- The first optimization absorbs an operator, and no node has its name. -/
theorem aliased_iff_titled_twoPairs : ∃ m, Becomes {} (built twoPairs []) ∧
    ((built twoPairs []).optimize 0 true .ascending quiet).1.network? 0 = some m ∧ m.isAbsorbed "c" ∧
    ¬ m.Aliased "c" := by
  have hw : Becomes {} (built twoPairs []) := becomes_built twoPairs []
  have hrun : ((built twoPairs []).network? 0).any fun n => decide (¬ n.isAbsorbed "c") &&
      (((built twoPairs []).optimize 0 true .ascending quiet).1.network? 0).any fun m =>
      m.isAbsorbed "c" := by decide +kernel
  obtain ⟨n, hn, hrun⟩ := (Option.any_eq_true _ _).1 hrun
  obtain ⟨hbefore, hrun⟩ := Bool.and_eq_true_iff.1 hrun
  obtain ⟨m, hm, habsorbed⟩ := (Option.any_eq_true _ _).1 hrun
  obtain ⟨m', hm', halias⟩ := (aliased_iff_titled hw hn "c").2 true .ascending
  obtain rfl := Option.some.inj (hm.symm.trans hm')
  exact ⟨m, hw, hm, habsorbed, fun ha => of_decide_eq_true hbefore (halias.1 ha).1⟩

/-- The operators of `twoPairs` after an optimization and another one with a pattern for the second pair that is called
like the first operator. -/
def retitled : Workspace :=
  let once := ((built twoPairs []).optimize 0 true .ascending quiet).1
  (((once.registerNetworkPattern 0 (.chain "c" ["softmax", "topk"])).toOption.getD once).optimize
    0 true .ascending quiet).1

/-- The name of an operator that was absorbed is given to a fused node of which it is no part. -/
theorem aliased_retitled : ∃ n, Becomes {} retitled ∧ retitled.network? 0 = some n ∧ n.Aliased "c" ∧
    n.graph.merges.map (fun r => (r.fused, r.members)) = [("fused_cr", ["c", "r"]), ("c", ["s", "z"])] := by
  have honce : Becomes {} ((built twoPairs []).optimize 0 true .ascending quiet).1 :=
    (becomes_built twoPairs []).optimize 0 true .ascending fun _ u => .refl u
  have hrun : (retitled.network? 0).any fun n => n.Aliased "c" ∧
      n.graph.merges.map (fun r => (r.fused, r.members)) = [("fused_cr", ["c", "r"]), ("c", ["s", "z"])] := by
    decide +kernel
  have hw : Becomes {} retitled := by
    refine Becomes.optimize ?_ 0 true .ascending fun _ u => .refl u
    cases hp : ((built twoPairs []).optimize 0 true .ascending quiet).1.registerNetworkPattern 0
      (.chain "c" ["softmax", "topk"]) with
    | error _ => exact honce
    | ok v => exact honce.registerNetworkPattern hp
  obtain ⟨n, hn, hp⟩ := (Option.any_eq_true _ _).1 hrun
  obtain ⟨ha, hmerges⟩ := of_decide_eq_true hp
  exact ⟨n, hw, hn, ha, hmerges⟩

end Workspace

end OpGraph
