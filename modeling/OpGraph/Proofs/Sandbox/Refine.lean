import Mathlib
import OpGraph.Proofs.Sandbox.Commit

/-!
# A committed graph is the sandbox

The sandbox is a copy that was changed step by step; the graph is changed by a patch, in another order. After the
commit of a sandbox of the whole graph the two agree: nodes, edges in the order of each producer, registered edges,
boundary and records.
-/

namespace OpGraph.Sandbox

/-- A graph agrees with a sandbox. -/
structure Refines (g : Graph) (s : Sandbox) : Prop where
  nodes : ∀ k, g.dag.vertex? k = s.dag.vertex? k
  edges : ∀ k, g.dag.outArcs k = s.dag.outArcs k
  registered : g.registered = s.registered
  ins : ∀ x, x ∈ g.ins ↔ s.ins.contains x
  outs : ∀ x, x ∈ g.outs ↔ s.outs.contains x
  merges : ∀ r, r ∈ g.merges ↔ ∃ f, s.mergeRecord? f = some r ∧ s.dag.hasVertex f

/-- What a graph has of a patch, whether the patch was empty or not. -/
structure Applied (g : Graph) (s : Sandbox) (g' : Graph) : Prop where
  dag : Landed g s g'.dag
  registered : ∀ id, g'.isRegistered id ↔
    (g.isRegistered id ∧ id ∉ s.removedEdges) ∨ ∃ b, g.isRegistered b ∧ s.renamed.get? b = some id
  ins : ∀ x, x ∈ g'.ins ↔ s.ins.contains x
  outs : ∀ x, x ∈ g'.outs ↔ s.outs.contains x
  merges : ∀ r, r ∈ g'.merges ↔
    (r ∈ g.merges ∧ r.fused ∉ s.supersedes) ∨ ∃ f ∈ s.newMerges, s.merges.get? f = some r

namespace Edited

variable {g g' : Graph} {o s : Sandbox} {dag : Digraph Node Edge}

/-- The landed graph has what the patch asks for. -/
lemma applied_landing (h : Edited g o s) (hl : Landed g s dag) : Applied g s (landing g s dag) :=
  ⟨hl, fun _ => h.isRegistered_landing, fun _ => h.mem_ins_landing, fun _ => h.mem_outs_landing,
    fun _ => mem_merges_landing⟩

/-- Where the patch is empty, the graph has all of it already. -/
lemma applied_of_isEmpty (h : Edited g o s) (he : s.patch.isEmpty) : Applied g s g := by
  have hsound := h.copied.regular.sound
  have htop : Graph.patchTopology g.dag s.patch = .ok g.dag := Graph.patchTopology_of_isEmpty he
  simp only [Patch.isEmpty, patch, Bool.and_eq_true, List.isEmpty_iff, and_assoc] at he
  obtain ⟨hedges, hnodes, -, -, -, hmerges⟩ := he
  have hkeeps : ∀ {x}, g.hasNode x → s.Keeps g x := fun hx => .inr ⟨hx, by simp [hnodes]⟩
  have hrenamed : ∀ {b id}, s.renamed.get? b ≠ some id := by
    intro b id hb
    have hmem := h.settled.renames.renamed_removed hb
    rw [hedges] at hmem
    cases hmem
  have hboundary : ∀ {i}, g.hasNode i → s.boundary.getD i i = i := fun hi =>
    Dict.getD_of_none (Dict.get?_eq_none_iff.2 fun hb => (h.bordered.gone hb).2 (hkeeps hi))
  refine ⟨h.tracks.landed h.copied htop, ?_, ?_, ?_, ?_⟩
  · intro id
    simp [hedges, hrenamed]
  · intro x
    rw [h.bordered.redirected.ins]
    constructor
    · exact fun hx => ⟨x, hx, hboundary (hsound.ins x hx)⟩
    · rintro ⟨i, hi, rfl⟩
      rwa [hboundary (hsound.ins i hi)]
  · intro x
    rw [h.bordered.redirected.outs]
    constructor
    · exact fun hx => ⟨x, hx, hboundary (hsound.outs x hx)⟩
    · rintro ⟨i, hi, rfl⟩
      rwa [hboundary (hsound.outs i hi)]
  · intro r
    constructor
    · intro hr
      refine .inl ⟨hr, fun hs => ?_⟩
      obtain ⟨ho, hk⟩ := h.retired _ hs
      exact hk (h.tracks.present _ ho (by simp [hnodes]))
    · rintro (⟨hr, -⟩ | ⟨f, hf, hr⟩)
      · exact hr
      · have hmem : r ∈ s.newMerges.filterMap s.mergeRecord? := List.mem_filterMap.2 ⟨f, hf, hr⟩
        rw [hmerges] at hmem
        cases hmem

end Edited

/-! ### Sandboxes of the whole graph -/

/-- The nodes of a copy of the whole graph are those of the graph. -/
lemma keys_copy_none (g : Graph) : (copy g none).dag.keys = g.dag.keys := by
  simp [copy, Digraph.keys]

/-- The edges of a copy of the whole graph are those of the graph by their sources. -/
lemma arcs_copy_none (g : Graph) : (copy g none).dag.arcs = g.dag.arcsBySource := by
  simp [copy]

namespace Edited

variable {g g' : Graph} {s : Sandbox}

/-- Every edge of the graph stays or was taken out. -/
lemma removedEdges_iff_of_whole (h : Edited g (Sandbox.copy g none) s) {a : Arc Edge} (ha : a ∈ g.dag.arcs) :
    EdgeId.arc a.src a.dst ∈ s.removedEdges ↔ ¬ s.Stays a := by
  refine h.tracks.removedEdges_iff h.copied ?_
  rwa [arcs_copy_none, h.copied.regular.dag.mem_arcsBySource]

lemma fits (h : Edited g (Sandbox.copy g none) s) : s.Fits g :=
  h.tracks.fits_of_whole h.copied fun a ha => by rwa [arcs_copy_none, h.copied.regular.dag.mem_arcsBySource]

/-- The nodes of the graph after the patch are those of the sandbox, with what they hold. -/
lemma vertex?_applied (h : Edited g (Sandbox.copy g none) s) (ha : Applied g s g') (k : String) :
    g'.dag.vertex? k = s.dag.vertex? k := by
  rw [ha.dag.vertex]
  by_cases hr : k ∈ s.removedNodes
  · rw [if_pos hr, Digraph.vertex?_eq_none_iff.2 (h.tracks.removed k hr).2.2]
  · rw [if_neg hr]
    by_cases hk : k ∈ s.dag.keys
    · obtain ⟨v, hv⟩ := Digraph.hasVertex_iff_exists.1 (Digraph.hasVertex_iff.2 hk)
      rw [hv, Option.some_or]
    · have hg : k ∉ g.dag.keys := by
        rw [← keys_copy_none]
        exact fun ho => hk (h.tracks.present k ho hr)
      rw [Digraph.vertex?_eq_none_iff.2 hk, Digraph.vertex?_eq_none_iff.2 hg, Option.none_or]

/-- The edges of a producer: those of the graph that stay come first, in their order, then the new ones in theirs. -/
lemma outArcs_applied (h : Edited g (Sandbox.copy g none) s) (ha : Applied g s g') (k : String) :
    g'.dag.outArcs k = s.dag.outArcs k := by
  have hwf := h.copied.regular.dag
  obtain ⟨fresh, harcs, hfresh⟩ := h.tracks.arcs
  rw [arcs_copy_none] at harcs
  -- The edges of the graph that stay.
  have hold : (g.dag.arcs.filter fun a => EdgeId.arc a.src a.dst ∉ s.removedEdges).filter (fun a => a.src == k) =
      (g.dag.arcsBySource.filter s.Stays).filter fun a => a.src == k := by
    calc
      _ = (g.dag.outArcs k).filter fun a => EdgeId.arc a.src a.dst ∉ s.removedEdges := by
        rw [hwf.outArcs_eq, Digraph.arcsFrom]
        exact List.filter_comm _ _ _
      _ = (g.dag.outArcs k).filter s.Stays := by
        refine List.filter_congr fun a hmem => ?_
        have hmem := (hwf.mem_outArcs.1 hmem).1
        simp only [h.removedEdges_iff_of_whole hmem, not_not]
      _ = (g.dag.arcsBySource.filter fun a => a.src == k).filter s.Stays := by rw [hwf.filter_arcsBySource]
      _ = _ := List.filter_comm _ _ _
  -- The new ones.
  have hnew : (s.dag.arcsBySource.filter fun a => !g.dag.hasArc a.src a.dst).filter (fun a => a.src == k) =
      fresh.filter fun a => a.src == k := by
    have hstay : (g.dag.arcsBySource.filter s.Stays).filter (fun a => !g.dag.hasArc a.src a.dst) = [] := by
      refine List.filter_eq_nil_iff.2 fun a hmem => ?_
      have hmem := hwf.mem_arcsBySource.1 (List.mem_of_mem_filter hmem)
      simp [Digraph.hasArc_of_mem hmem]
    have hself : fresh.filter (fun a => !g.dag.hasArc a.src a.dst) = fresh :=
      List.filter_eq_self.2 fun a hmem => by simpa using hfresh a hmem
    calc
      _ = (s.dag.arcsBySource.filter fun a => a.src == k).filter fun a => !g.dag.hasArc a.src a.dst :=
        List.filter_comm _ _ _
      _ = (s.dag.arcs.filter fun a => a.src == k).filter fun a => !g.dag.hasArc a.src a.dst := by
        rw [h.tracks.wellFormed.filter_arcsBySource, h.tracks.wellFormed.outArcs_eq, Digraph.arcsFrom]
      _ = (s.dag.arcs.filter fun a => !g.dag.hasArc a.src a.dst).filter fun a => a.src == k := List.filter_comm _ _ _
      _ = _ := by rw [harcs, List.filter_append, hstay, hself, List.nil_append]
  rw [ha.dag.wellFormed.outArcs_eq, Digraph.arcsFrom, ha.dag.arcs, List.filter_append, hold, hnew, ← List.filter_append,
    ← harcs, h.tracks.wellFormed.outArcs_eq, Digraph.arcsFrom]

/-- Where no registered edge was lost, the graph has the registered edges of the sandbox. -/
lemma registered_applied (h : Edited g (Sandbox.copy g none) s) (ha : Applied g s g') (hd : ¬ s.LosesEdge g) :
    g'.registered = s.registered := by
  have hlive : ∀ {b id}, g.isRegistered b → s.renamed.get? b = some id → s.hasEdge id := by
    intro b id hb hid
    by_contra hno
    exact hd ⟨b, Dict.mem_keys.2 hb, id, hid, hno⟩
  refine NameSet.ext fun id => (ha.registered id).trans ?_
  constructor
  · rintro (⟨hid, hr⟩ | ⟨b, hb, hid⟩)
    · exact h.settled.renames.kept id hid hr
    · rcases h.settled.renames.moved b hb (h.settled.renames.renamed_removed hid) with
        ⟨⟨e, he, -⟩, -⟩ | ⟨id', hid', hreg, -⟩
      · cases he
      · rw [hid] at hid'
        cases hid'
        exact hreg (.inl (hlive hb hid))
  · intro hid
    rcases h.settled.renames.registered id hid with ⟨hid, hr | ⟨e, he, -⟩⟩ | ⟨-, b, hb, id', hid', rfl | hno⟩
    · exact .inl ⟨hid, hr⟩
    · cases he
    · exact .inr ⟨b, hb, hid'⟩
    · exact absurd (.inl (hlive hb hid')) hno

/-- Where no fused node was lost, the graph has the records of the sandbox. -/
lemma merges_applied (h : Edited g (Sandbox.copy g none) s) (ha : Applied g s g') (hd : ¬ s.LosesFused g)
    (hone : ∀ r ∈ g.merges, ∀ r' ∈ g.merges, r.fused = r'.fused → r = r') (r : MergeRecord) :
    r ∈ g'.merges ↔ ∃ f, s.mergeRecord? f = some r ∧ s.dag.hasVertex f := by
  have hlive : ∀ {f}, s.mergeRecord? f = some r → s.dag.hasVertex f := by
    intro f hf
    have hk : s.Keeps g f := by
      by_contra hno
      exact hd ⟨f, Dict.mem_keys.2 (Dict.contains_iff.2 ⟨r, hf⟩), hno⟩
    rw [h.tracks.keeps_iff, keys_copy_none] at hk
    exact Digraph.hasVertex_iff.2 (hk.resolve_right fun hk => hk.2 hk.1)
  have hlast : ∀ {r}, r ∈ g.merges → lastRecord? g r.fused = some r := by
    intro r hr
    obtain ⟨r', hr'⟩ := Option.isSome_iff_exists.1 (lastRecord?_isSome.2 ⟨r, hr, rfl⟩)
    obtain ⟨hmem, he⟩ := fused_of_lastRecord? hr'
    rw [hr', hone r' hmem r hr he]
  have hnew : ∀ {r}, r ∈ g.merges → r.fused ∉ s.newMerges := fun hr hn =>
    (h.recorded.new_taken _ hn).2 (Digraph.hasVertex_iff.1 (h.copied.regular.sound.merges _ hr))
  rw [ha.merges]
  constructor
  · rintro (⟨hr, hs⟩ | ⟨f, -, hf⟩)
    · have hf : s.mergeRecord? r.fused = some r := by
        rw [mergeRecord?, h.recorded.old _ (hnew hr), if_neg hs, hlast hr]
      exact ⟨_, hf, hlive hf⟩
    · exact ⟨f, hf, hlive hf⟩
  · rintro ⟨f, hf, -⟩
    by_cases hn : f ∈ s.newMerges
    · exact .inr ⟨f, hn, hf⟩
    · rw [mergeRecord?, h.recorded.old f hn] at hf
      split at hf
      · cases hf
      · rename_i hs
        obtain ⟨hmem, rfl⟩ := fused_of_lastRecord? hf
        exact .inl ⟨hmem, hs⟩

/-- After a commit that changes something or nothing, the graph agrees with the sandbox. -/
lemma refines (h : Edited g (Sandbox.copy g none) s) (ha : Applied g s g') (hd : ¬ s.Dangles g)
    (hone : ∀ r ∈ g.merges, ∀ r' ∈ g.merges, r.fused = r'.fused → r = r') : Refines g' s := by
  rw [Dangles, not_or, not_or] at hd
  exact ⟨h.vertex?_applied ha, h.outArcs_applied ha, h.registered_applied ha hd.1, ha.ins, ha.outs,
    h.merges_applied ha hd.2.2 hone⟩

end Edited

/-- A snapshot that can be taken is the copy of the region. -/
lemma snapshot_ok {g : Graph} {region : Option (List String)} {s : Sandbox} (h : snapshot g region = .ok s) :
    s = Sandbox.copy g region := by
  unfold snapshot at h
  split at h
  · cases h
  · cases h
    rfl

/-- Taking a sandbox of the whole graph always succeeds. -/
lemma snapshot_none {g : Graph} {s : Sandbox} (h : snapshot g none = .ok s) : s = copy g none :=
  snapshot_ok h

/-- A commit makes the graph agree with a sandbox of the whole graph, whatever edits were made, provided no two
records of the graph are of one fused node. -/
theorem commit_refines {g : Graph} (wf : g.WellFormed) (ok : g.verify = .ok ())
    (af : ∀ name ∈ g.names, ArrowFree name)
    (hone : ∀ r ∈ g.merges, ∀ r' ∈ g.merges, r.fused = r'.fused → r = r') {s₀ : Sandbox}
    (hs : snapshot g none = .ok s₀) {es : List Edit} (haf : ∀ e ∈ es, e.ArrowFree) {g' : Graph} {s' : Sandbox}
    {c : Changes} (hcommit : (s₀.performAll es).commit g = .ok (g', s', c)) :
    Refines g' (s₀.performAll es) ∧ g'.name = g.name ∧ g'.frozen = g.frozen ∧ g'.optimized = g.optimized ∧
      g'.version = g.version + (if (s₀.performAll es).patch.isEmpty then 0 else 1) := by
  obtain rfl := snapshot_none hs
  have h := (Edited.copy (.of_verify wf ok af) none).performAll haf
  rcases h.commit_cases with ⟨-, e, -, herr, -⟩ | ⟨-, -, e, -, herr, -⟩ | ⟨-, hd, g₁, hok, hcases⟩
  · rw [herr] at hcommit
    cases hcommit
  · rw [herr] at hcommit
    cases hcommit
  · rw [hok] at hcommit
    cases hcommit
    rcases hcases with ⟨he, rfl⟩ | ⟨he, dag, hl, rfl⟩
    · exact ⟨h.refines (h.applied_of_isEmpty he) hd hone, rfl, rfl, rfl, by simp [he]⟩
    · exact ⟨h.refines (h.applied_landing hl) hd hone, rfl, rfl, rfl, by simp [he, landing]⟩

/-- Four operators in a row; what the third one writes is registered. -/
def fourInRow : Graph where
  name := "row"
  dag := .ofArcs
    [
      ⟨"a", { name := "a", type := "conv", outputs := ["x"] }, 0⟩,
      ⟨"b", { name := "b", type := "relu", inputs := ["x"], outputs := ["y"] }, 1⟩,
      ⟨"c", { name := "c", type := "pool", inputs := ["y"], outputs := ["z"] }, 2⟩,
      ⟨"d", { name := "d", type := "dense", inputs := ["z"], outputs := ["w"] }, 3⟩]
    [
      ⟨"a", "b", { src := "a", dst := "b", var := "x" }⟩,
      ⟨"b", "c", { src := "b", dst := "c", var := "y" }⟩,
      ⟨"c", "d", { src := "c", dst := "d", var := "z" }⟩]
    4
  ins := ["a"]
  outs := ["d"]
  registered := NameSet.ofList ["c->d"]

/-- Two operators are merged, the fused one is merged with a third, and a drop fails. -/
theorem commit_refines_fourInRow : ∃ g' s' c,
    ((copy fourInRow none).performAll
      [.merge ["a", "b"] "f" "cr" "cr", .merge ["f", "c"] "h" "crp" "crp", .drop "d"]).commit fourInRow =
        .ok (g', s', c) ∧
    Refines g' ((copy fourInRow none).performAll
      [.merge ["a", "b"] "f" "cr" "cr", .merge ["f", "c"] "h" "crp" "crp", .drop "d"]) ∧
    g'.registered = NameSet.ofList ["h->d"] ∧ g'.version = 1 :=
  ⟨_, _, _, rfl, (commit_refines
    ⟨Digraph.wellFormed_ofArcs (by decide) (by decide) (by decide) (by decide), by decide⟩ rfl (by decide) (by decide)
    rfl (by decide) rfl).1, rfl, rfl⟩

/-- One operator of which there are two records. -/
def twiceRecorded : Graph where
  name := "twice"
  dag := .ofArcs [⟨"a", { name := "a", type := "conv" }, 0⟩] [] 1
  merges := [⟨"a", "p", ["x"], []⟩, ⟨"a", "q", ["y"], []⟩]

/-- Of two records of one fused node the sandbox knows the last one only, and the graph keeps both. -/
theorem commit_twiceRecorded_not_refines :
    twiceRecorded.WellFormed ∧ twiceRecorded.verify = .ok () ∧ (∀ name ∈ twiceRecorded.names, ArrowFree name) ∧
    ∃ g' s' c, ((copy twiceRecorded none).performAll []).commit twiceRecorded = .ok (g', s', c) ∧
      ¬ Refines g' ((copy twiceRecorded none).performAll []) := by
  refine ⟨⟨Digraph.wellFormed_ofArcs (by decide) (by decide) (by decide) (by decide), by decide⟩, rfl, by decide, _,
    _, _, rfl, ?_⟩
  intro h
  obtain ⟨f, hf, hlive⟩ := (h.merges ⟨"a", "p", ["x"], []⟩).1 (by decide)
  have hkeys : f ∈ ["a"] := Digraph.hasVertex_iff.1 hlive
  obtain rfl := List.mem_singleton.1 hkeys
  exact absurd hf (by decide)

end OpGraph.Sandbox
