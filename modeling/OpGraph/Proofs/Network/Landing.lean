import Mathlib
import OpGraph.Network.Optimize
import OpGraph.Proofs.Calibration
import OpGraph.Proofs.Fusion.Fixpoint
import OpGraph.Proofs.Fusion.Layouts
import OpGraph.Proofs.Sandbox.Refine
import OpGraph.Proofs.Schedule

/-!
# How an optimization ends

A draft lands, or it is stale, or a pin can not be read, or the commit aborts. There is no other way: once the commit is
through, the calibration and the order of the new graph can always be worked out.
-/

namespace OpGraph

variable {g : Graph} {n : Network} {d : Draft} {fusion : Bool} {st : Stats} {l : Library}

/-- No two records of a graph are of one fused node. -/
def Graph.OneRecord (g : Graph) : Prop :=
  ∀ r ∈ g.merges, ∀ r' ∈ g.merges, r.fused = r'.fused → r = r'

namespace Network

open Sandbox

/-! ### Calibration -/

/-- Valid layouts are recorded without fail for the edges that have none. -/
lemma assignLayouts_ok :
    ∀ (es : List (EdgeId × Layout)) (c : Calibration), (∀ e ∈ es, e.2 ≠ .invalid) →
      ∃ layouts, assignLayouts c es = .ok { c with layouts } ∧
        ∀ id, layouts.get? id = (c.layouts.get? id).or (Dict.find id es)
  | [], c, _ => ⟨c.layouts, rfl, fun id => by rw [Dict.find, Option.or_none]⟩
  | (key, l) :: es, c, hes => by
    rw [List.forall_mem_cons] at hes
    unfold assignLayouts
    by_cases hc : c.layouts.contains key
    · rw [if_pos hc]
      obtain ⟨layouts, hok, hget⟩ := assignLayouts_ok es c hes.2
      refine ⟨layouts, hok, fun id => ?_⟩
      rw [hget, Dict.find]
      split
      · rename_i he
        obtain ⟨v, hv⟩ := Dict.contains_iff.1 (he ▸ hc)
        rw [hv, Option.some_or, Option.some_or]
      · rfl
    · rw [if_neg hc, Calibration.setLayout, if_neg hes.1]
      obtain ⟨layouts, hok, hget⟩ := assignLayouts_ok es { c with layouts := c.layouts.insert key l } hes.2
      refine ⟨layouts, hok, fun id => ?_⟩
      rw [hget, Dict.get?_insert, Dict.find]
      by_cases he : id = key
      · subst he
        rw [if_pos rfl, if_pos rfl, Dict.get?_eq_none_iff.2 hc, Option.some_or, Option.none_or]
      · rw [if_neg he, if_neg he]

/-- An identifier stays in the calibration of a graph. -/
def Stays (g : Graph) (id : EdgeId) : Prop :=
  id.isSynthetic ∨ (g.edgeById? id).isSome

instance (g : Graph) (id : EdgeId) : Decidable (Stays g id) :=
  inferInstanceAs (Decidable (_ ∨ _))

/-- What is recorded for an edge stays. -/
lemma stays_of_hasArc (h : g.Regular) {x y : String} (hxy : g.dag.hasArc x y) : Stays g (EdgeId.arc x y) :=
  .inr ((Graph.edgeById?_arc_isSome (h.arrowFree_of_hasArc hxy)).2 hxy)

/-- What a calibration becomes when edges were moved and valid layouts are assigned. -/
structure Recalibrated (c : Calibration) (g : Graph) (ord : RenameOrder) (renamed : Dict EdgeId) (layouts : Dict Layout)
    (c' : Calibration) : Prop where
  scales : ∀ id, c'.scales.get? id = if Stays g id then (c.rename ord renamed).scales.get? id else none
  layouts : ∀ id, c'.layouts.get? id =
    if Stays g id then ((c.rename ord renamed).layouts.get? id).or (layouts.get? id) else none

section Recalibrated

variable {c c' : Calibration} {g : Graph} {ord : RenameOrder} {renamed : Dict EdgeId} {layouts : Dict Layout}
    {id : EdgeId}

/-- The scales under an identifier that stays and that nothing is moved from or to are those from before. -/
lemma Recalibrated.scales_unmoved (h : Recalibrated c g ord renamed layouts c') (hid : Stays g id)
    (hmoved : ∀ {b b'}, renamed.get? b = some b' → b ≠ id ∧ b' ≠ id) : c'.scales.get? id = c.scales.get? id := by
  rw [h.scales, if_pos hid, Calibration.rename, Calibration.scales_renameAll, Calibration.get?_moveAll_unmoved hmoved]

/-- The layout under such an identifier is the one from before, if there was one. -/
lemma Recalibrated.layouts_unmoved (h : Recalibrated c g ord renamed layouts c') (hid : Stays g id)
    (hmoved : ∀ {b b'}, renamed.get? b = some b' → b ≠ id ∧ b' ≠ id) :
    c'.layouts.get? id = (c.layouts.get? id).or (layouts.get? id) := by
  rw [h.layouts, if_pos hid, Calibration.rename, Calibration.layouts_renameAll, Calibration.get?_moveAll_unmoved hmoved]

/-- Scales are left only under identifiers that stay. -/
lemma Recalibrated.stays_scales (h : Recalibrated c g ord renamed layouts c') (hid : c'.scales.contains id) :
    Stays g id := by
  by_contra hno
  have hget := h.scales id
  rw [if_neg hno] at hget
  exact Dict.get?_eq_none_iff.1 hget hid

/-- Layouts are left only under identifiers that stay. -/
lemma Recalibrated.stays_layouts (h : Recalibrated c g ord renamed layouts c') (hid : c'.layouts.contains id) :
    Stays g id := by
  by_contra hno
  have hget := h.layouts id
  rw [if_neg hno] at hget
  exact Dict.get?_eq_none_iff.1 hget hid

end Recalibrated

/-- What is retained is what is recorded for the edges that stay. -/
lemma get?_filter_stays {α : Type} (d : Dict α) (g : Graph) (id : EdgeId) :
    (d.filter fun id _ => EdgeId.isSynthetic id || (g.edgeById? id).isSome).get? id =
      if Stays g id then d.get? id else none := by
  have hiff : (id.isSynthetic || (g.edgeById? id).isSome) = true ↔ Stays g id := Bool.or_eq_true_iff
  rw [Dict.get?_filter]
  cases d.get? id with
  | none => simp
  | some v => simp only [Option.filter_some, hiff]

/-- A calibration is worked out without fail if the layouts are valid. -/
lemma recalibrate_ok (layouts : Dict Layout) (h : ∀ {id l}, layouts.get? id = some l → l ≠ .invalid) (c : Calibration)
    (g : Graph) (ord : RenameOrder) (renamed : Dict EdgeId) :
    ∃ c', recalibrate c g ord renamed layouts = .ok c' ∧ Recalibrated c g ord renamed layouts c' := by
  obtain ⟨assigned, hok, hget⟩ := assignLayouts_ok layouts.entries (c.rename ord renamed)
    fun e he => h ((Dict.get?_eq_some_iff layouts e.1 e.2).2 he)
  refine ⟨_, by rw [recalibrate, hok]; rfl, ?_, ?_⟩
  · exact get?_filter_stays _ g
  · intro id
    rw [Calibration.retain, get?_filter_stays]
    split
    · exact hget id
    · rfl

/-! ### Pins -/

section Respells

variable {g : Graph} {s t : Sandbox} {names : List String}

/-- A node that is kept of a sandbox of the whole graph is there. -/
lemma keeps_iff_live (h : Edited g (Sandbox.copy g none) s) {k : String} : s.Keeps g k ↔ k ∈ s.dag.keys := by
  rw [h.tracks.keeps_iff, keys_copy_none]
  exact or_iff_left fun hk => hk.2 hk.1

/-- Respelling layouts loses no registered edge. -/
lemma losesEdge_respells (h : Respells s names t) : t.LosesEdge g ↔ s.LosesEdge g := by
  have hhas : ∀ id, t.hasEdge id = s.hasEdge id := by
    intro id
    unfold Sandbox.hasEdge Digraph.hasArc Digraph.arc?
    rw [h.arcs]
  rw [LosesEdge, LosesEdge, (moves_eq_iff.1 h.moves).2.2]
  simp only [hhas]

/-- Respelling pins does not matter to what a sandbox refers to. -/
lemma dangles_respells (hs : Edited g (Sandbox.copy g none) s) (ht : Edited g (Sandbox.copy g none) t)
    (h : Respells s names t) : t.Dangles g ↔ s.Dangles g := by
  have hkeeps : ∀ k, t.Keeps g k ↔ s.Keeps g k := by
    intro k
    rw [keeps_iff_live hs, keeps_iff_live ht, h.keys]
  rw [Dangles, Dangles, losesEdge_respells h, LosesInput, LosesInput, LosesFused, LosesFused,
    (border_eq_iff.1 h.border).1,
    (records_eq_iff.1 h.records).1]
  simp only [hkeeps]

end Respells

/-! ### Landing -/

/-- The patch of a copy changes nothing. -/
lemma isEmpty_patch_copy (hg : g.Regular) : (Sandbox.copy g none).patch.isEmpty := by
  have hedges : (Sandbox.copy g none).patch.addEdges = [] := by
    refine List.map_eq_nil_iff.1 (((Tracks.copy hg none).addEdges_eq (copied_copy hg none)).trans ?_)
    refine List.filter_eq_nil_iff.2 fun a ha => ?_
    have ha := (copied_copy hg none).wellFormed.mem_arcsBySource.1 ha
    simp [Digraph.hasArc_of_mem ((copied_copy hg none).arcs a ha)]
  have hnodes : (Sandbox.copy g none).patch.replaceNodes = [] :=
    List.map_eq_nil_iff.2 (List.filter_eq_nil_iff.2 fun v _ => Bool.false_ne_true)
  rw [Patch.isEmpty, hedges, hnodes]
  rfl

/-- What landing a draft makes of the graph of a network. -/
structure Landing (n : Network) (d : Draft) (t : Sandbox) (layouts : Dict Layout) (g : Graph) : Prop where
  normalized : Normalized n.graph d.sandbox d.known t layouts
  whole : ¬ t.Dangles n.graph
  patched : (t.patch.isEmpty ∧ g = n.graph) ∨ ¬ t.patch.isEmpty ∧ ∃ dag, Landed n.graph t dag ∧
    g = landing n.graph t dag

namespace Landing

variable {n : Network} {d : Draft} {t : Sandbox} {layouts : Dict Layout} {g : Graph}

lemma edited (h : Landing n d t layouts g) : Edited n.graph (Sandbox.copy n.graph none) t :=
  h.normalized.edited

lemma applied (h : Landing n d t layouts g) : Applied n.graph t g := by
  rcases h.patched with ⟨he, rfl⟩ | ⟨-, dag, hl, rfl⟩
  · exact h.edited.applied_of_isEmpty he
  · exact h.edited.applied_landing hl

/-- The graph agrees with the sandbox that is landed. -/
lemma refines (h : Landing n d t layouts g) (hone : n.graph.OneRecord) : Refines g t :=
  h.edited.refines h.applied h.whole hone

/-- The names of the new graph are those of the sandbox. -/
lemma names_iff (h : Landing n d t layouts g) {k : String} : k ∈ g.names ↔ k ∈ t.dag.keys := by
  have hv := h.edited.vertex?_applied h.applied k
  rw [Graph.names, ← not_iff_not, ← Digraph.vertex?_eq_none_iff, ← Digraph.vertex?_eq_none_iff, hv]

/-- The edges of the new graph are those of the sandbox. -/
lemma mem_arcs (h : Landing n d t layouts g) {a : Arc Edge} : a ∈ g.dag.arcs ↔ a ∈ t.dag.arcs := by
  have hout : a ∈ g.dag.outArcs a.src ↔ a ∈ t.dag.outArcs a.src := by
    rw [h.edited.outArcs_applied h.applied]
  rwa [h.applied.dag.wellFormed.mem_outArcs, h.edited.tracks.wellFormed.mem_outArcs, and_iff_left rfl,
    and_iff_left rfl] at hout

/-- The graph has the edges of the sandbox that is landed. -/
lemma hasArc_iff (h : Landing n d t layouts g) {x y : String} : g.dag.hasArc x y ↔ t.dag.hasArc x y := by
  simp only [Digraph.hasArc_iff, h.mem_arcs]

/-- The new graph keeps the rules. -/
lemma regular (h : Landing n d t layouts g) : g.Regular := by
  have hg := h.edited.copied.regular
  rcases h.patched with ⟨-, rfl⟩ | ⟨-, dag, hl, rfl⟩
  · exact hg
  · exact ⟨h.edited.wellFormed_landing hl, (h.edited.sound_landing_iff hl).2 h.whole,
      fun k hk => h.edited.tracks.arrowFree_live (h.names_iff.1 hk)⟩

end Landing

/-- The fused node of a record is the one it is filed under. -/
lemma fused_of_mergeRecord? {o s : Sandbox} (h : Edited g o s) {f : String} {r : MergeRecord}
    (hr : s.merges.get? f = some r) : r.fused = f := by
  by_cases hn : f ∈ s.newMerges
  · obtain ⟨r', hr', hf⟩ := h.recorded.new f hn
    rw [hr] at hr'
    cases hr'
    exact hf
  · rw [h.recorded.old f hn] at hr
    split at hr
    · cases hr
    · exact (fused_of_lastRecord? hr).2

/-- Each fused node has one record after landing. -/
lemma Landing.oneRecord {t : Sandbox} {layouts : Dict Layout}
    (h : Landing n d t layouts g) (hone : n.graph.OneRecord) : g.OneRecord := by
  intro r hr r' hr' he
  obtain ⟨f, hf, -⟩ := ((h.refines hone).merges r).1 hr
  obtain ⟨f', hf', -⟩ := ((h.refines hone).merges r').1 hr'
  obtain rfl : f = f' := by
    rw [← fused_of_mergeRecord? h.edited hf, he, fused_of_mergeRecord? h.edited hf']
  exact Option.some.inj (hf.symm.trans hf')

/-- The network with a new graph, its calibration and its order. -/
def settled (n : Network) (g : Graph) (calibration : Calibration) (order : List String) (stats : Stats)
    (fusion : Bool) :
    Network :=
  { n with
    graph := if fusion then { g with optimized := true } else g
    calibration
    order := some order
    state := if fusion then .optimized else n.state
    stats }

/-- A draft that can be committed lands, whatever is recorded of the network. -/
lemma land_done {t u : Sandbox} {layouts : Dict Layout} {order : List String}
    (hnorm : d.sandbox.normalize d.known = (t, .ok layouts))
    (hvalid : ∀ {id l}, layouts.get? id = some l → l ≠ .invalid)
    (he : n.epoch = d.epoch) (hok : t.commit n.graph = .ok (g, u, .ofPatch t.patch)) (ho : g.order = .ok order)
    (fusion : Bool) (ord : RenameOrder) (c : Calibration) :
    ∃ c', recalibrate c g ord t.renamed layouts = .ok c' ∧ Recalibrated c g ord t.renamed layouts c' ∧
      { n with calibration := c }.land d fusion ord = (n.settled g c' order d.stats fusion, .done d.stats) := by
  obtain ⟨c', hc, hrec⟩ := recalibrate_ok layouts hvalid c g ord t.renamed
  have hsettle : { n with calibration := c }.settle g ord t.renamed layouts d.stats fusion =
      .ok (n.settled g c' order d.stats fusion) := by
    rw [settle, hc, ho]
    rfl
  refine ⟨c', hc, hrec, ?_⟩
  rw [land, hnorm]
  dsimp only
  rw [if_neg (not_not.2 he), hok]
  dsimp only [Changes.ofPatch, patch]
  rw [hsettle]

/-- The ways in which landing a draft can end. -/
inductive Lands (n : Network) (d : Draft) (fusion : Bool) (ord : RenameOrder) : Network × Outcome → Prop where
  | illegible {f : Failure} (h : ¬ ∀ v ∈ d.sandbox.nodes, Legible v) :
      Lands n d fusion ord (n, .failed d.stats ⟨.optimize, .layout f⟩)
  | stale (h : ∀ v ∈ d.sandbox.nodes, Legible v) (he : n.epoch ≠ d.epoch) : Lands n d fusion ord (n, .stale d.stats)
  | aborted {t : Sandbox} {layouts : Dict Layout} {e : Error} {message : String} (he : n.epoch = d.epoch)
      (hn : Normalized n.graph d.sandbox d.known t layouts) (hd : t.Dangles n.graph) (hf : e.toFault = .abort message) :
      Lands n d fusion ord (n, .failed d.stats e)
  | done {t : Sandbox} {layouts : Dict Layout} {g : Graph} {c : Calibration} {order : List String}
      (he : n.epoch = d.epoch) (hl : Landing n d t layouts g)
      (hc : recalibrate n.calibration g ord t.renamed layouts = .ok c)
      (hr : Recalibrated n.calibration g ord t.renamed layouts c) (ho : g.order = .ok order) :
      Lands n d fusion ord (n.settled g c order d.stats fusion, .done d.stats)

/-- A draft made from a copy of the graph lands in one of these ways. -/
lemma lands_land (h : Edited n.graph (Sandbox.copy n.graph none) d.sandbox) (fusion : Bool)
    (ord : RenameOrder) : Lands n d fusion ord (n.land d fusion ord) := by
  by_cases hleg : ∀ v ∈ d.sandbox.nodes, Legible v
  · obtain ⟨t, layouts, hnorm⟩ := (exists_normalize_iff h d.known).2 hleg
    have hn := normalize_ok h hnorm
    by_cases he : n.epoch = d.epoch
    · rcases hn.edited.commit_cases with ⟨hfit, -⟩ | ⟨-, hd, err, message, herr, hf⟩ | ⟨-, hd, g, hok, hpatch⟩
      · exact absurd hn.edited.fits hfit
      · rw [land, hnorm]
        dsimp only
        rw [if_neg (not_not.2 he), herr]
        exact .aborted he hn hd (by rw [Error.toFault, Cause.toFault, hf])
      · have hl : Landing n d t layouts g := ⟨hn, hd, hpatch⟩
        obtain ⟨order, ho, -⟩ := hl.regular.dag.exists_order hl.regular.sound.acyclic
        obtain ⟨c, hc, hrec, hland⟩ := land_done hnorm hn.valid he hok ho fusion ord n.calibration
        rw [hland]
        exact .done he hl hc hrec ho
    · rw [land, hnorm]
      dsimp only
      rw [if_pos he]
      exact .stale hleg he
  · rw [land]
    cases hnorm : d.sandbox.normalize d.known with
    | mk t r =>
      cases r with
      | error f => exact .illegible hleg
      | ok layouts => exact absurd ((exists_normalize_iff h d.known).1 ⟨t, layouts, hnorm⟩) hleg

/-- A draft that lands does so whatever is recorded of the network, and in whatever order it is moved. -/
lemma land_of_done {m : Network} {ord : RenameOrder}
    (h : Edited n.graph (Sandbox.copy n.graph none) d.sandbox) (hland : n.land d fusion ord = (m, .done st)) :
    ∃ t layouts g c order, Landing n d t layouts g ∧ Recalibrated n.calibration g ord t.renamed layouts c ∧
      m = n.settled g c order st fusion ∧ ∀ c₁ ord', ∃ c', Recalibrated c₁ g ord' t.renamed layouts c' ∧
        { n with calibration := c₁ }.land d fusion ord' = (n.settled g c' order st fusion, .done st) := by
  have hlands := lands_land h fusion ord
  rw [hland] at hlands
  cases hlands with
  | done he hl _ _ _ =>
    obtain ⟨t, layouts, hnorm⟩ := (exists_normalize_iff h d.known).2 hl.normalized.legible
    have hn := normalize_ok h hnorm
    rcases hn.edited.commit_cases with ⟨hfit, -⟩ | ⟨-, -, err, _, herr, -⟩ | ⟨-, hd, g, hok, hpatch⟩
    · exact absurd hn.edited.fits hfit
    · rw [land, hnorm] at hland
      dsimp only at hland
      rw [if_neg (not_not.2 he), herr] at hland
      cases congrArg Prod.snd hland
    · have hl : Landing n d t layouts g := ⟨hn, hd, hpatch⟩
      obtain ⟨order, ho, -⟩ := hl.regular.dag.exists_order hl.regular.sound.acyclic
      have hdone := land_done hnorm hn.valid he hok ho fusion
      obtain ⟨c, -, hrec, hown⟩ := hdone ord n.calibration
      refine ⟨t, layouts, g, c, order, hl, hrec, congrArg Prod.fst (hland.symm.trans hown), fun c₁ ord' => ?_⟩
      obtain ⟨c', -, hrec', hland'⟩ := hdone ord' c₁
      exact ⟨c', hrec', hland'⟩

/-! ### Drafts -/

/-- The engine that optimizes a network with the patterns of a library. -/
def engine (n : Network) (l : Library) : Engine :=
  { patterns := l.byPriority, cap := n.cap, elide := n.elide }

/-- The names of the patterns of an engine have no arrows if those of the library have none. -/
lemma arrowFree_engine (hl : l.ArrowFree) (n : Network) : ∀ p ∈ (n.engine l).patterns, ArrowFree p.name :=
  fun p hp => hl p (Library.mem_byPriority.1 hp)

/-- What a draft holds. -/
structure Drafted (n : Network) (l : Library) (fusion : Bool) (d : Draft) : Prop where
  known : d.known = n.calibration.layouts
  epoch : d.epoch = n.epoch
  run : if fusion then (n.engine l).run (Sandbox.copy n.graph none) = ((d.sandbox, d.stats), none)
    else d.sandbox = Sandbox.copy n.graph none ∧ d.stats = {}

/-- A draft is made unless the engine does not end well. -/
lemma draft_cases (hs : n.state ≠ .building) (l : Library) (fusion : Bool) :
    (∃ s stats cause, fusion = true ∧ (n.engine l).run (Sandbox.copy n.graph none) = ((s, stats), some cause) ∧
      n.draft l fusion = .error (stats, ⟨.optimize, .engine cause⟩)) ∨
    ∃ d, n.draft l fusion = .ok d ∧ Drafted n l fusion d := by
  have hsnap : snapshot n.graph none = .ok (Sandbox.copy n.graph none) := rfl
  rw [draft, if_neg hs, hsnap]
  cases fusion with
  | false => exact .inr ⟨_, rfl, rfl, rfl, rfl, rfl⟩
  | true =>
    cases hrun : (n.engine l).run (Sandbox.copy n.graph none) with
    | mk after err =>
      have hrun' : Engine.run { patterns := l.byPriority, cap := n.cap, elide := n.elide } (Sandbox.copy n.graph none) =
        (after, err) := hrun
      have hfusion : ¬ (!true) = true := by decide
      dsimp only
      rw [if_neg hfusion, hrun']
      cases err with
      | some cause => exact .inl ⟨after.1, after.2, cause, rfl, rfl, rfl⟩
      | none => exact .inr ⟨_, rfl, rfl, rfl, hrun⟩

/-- A draft is made of a network that is not being built. -/
lemma draft_ok (h : n.draft l fusion = .ok d) : n.state ≠ .building ∧ Drafted n l fusion d := by
  by_cases hs : n.state = .building
  · rw [draft, if_pos hs] at h
    cases h
  · refine ⟨hs, ?_⟩
    rcases draft_cases hs l fusion with ⟨_, _, _, -, -, herr⟩ | ⟨d', hok, hd⟩
    · rw [herr] at h
      cases h
    · rw [hok] at h
      cases h
      exact hd

namespace Drafted

variable {n : Network} {l : Library} {fusion : Bool} {d : Draft}

/-- The sandbox of a draft was made by steps of the engine, and the nodes that they drop are counted. -/
lemma runs (h : Drafted n l fusion d) :
    ∃ trace, (n.engine l).Runs (Sandbox.copy n.graph none) trace d.sandbox ∧
      d.stats.dropped = (Engine.elisions trace).length := by
  have hrun := h.run
  cases fusion with
  | true =>
    rw [if_pos rfl] at hrun
    have hruns := (n.engine l).runs_run (Sandbox.copy n.graph none)
    rwa [hrun] at hruns
  | false =>
    rw [if_neg Bool.false_ne_true] at hrun
    rw [hrun.1, hrun.2]
    exact ⟨[], .nil, rfl⟩

lemma edited (h : Drafted n l fusion d) (hg : n.graph.Regular) (hl : l.ArrowFree) :
    Edited n.graph (Sandbox.copy n.graph none) d.sandbox := by
  obtain ⟨trace, hruns, -⟩ := h.runs
  exact (hruns.induct_effect (P := fun _ => True) (Edited.copy hg none) (arrowFree_engine hl n) trivial
    fun _ _ _ _ _ _ => trivial).1

/-- A draft holds what the engine ends with. -/
lemma eq_of_run_eq (h : Drafted n l true d) {s : Sandbox}
    (hrun : (n.engine l).run (Sandbox.copy n.graph none) = ((s, st), none)) : s = d.sandbox ∧ st = d.stats := by
  have hrun' := h.run
  rw [if_pos rfl, hrun] at hrun'
  exact ⟨congrArg (·.1.1) hrun', congrArg (·.1.2) hrun'⟩

end Drafted

/-! ### Optimizations -/

/-- The ways in which an optimization can end. -/
inductive Optimizes (n : Network) (l : Library) (fusion : Bool) (ord : RenameOrder) : Network × Outcome → Prop where
  | unfrozen (h : n.state = .building) : Optimizes n l fusion ord (n, .failed {} ⟨.optimize, .notFrozen⟩)
  | diverges {s : Sandbox} {stats : Stats} {cause : Engine.Error} (hs : n.state ≠ .building) (hf : fusion = true)
      (h : (n.engine l).run (Sandbox.copy n.graph none) = ((s, stats), some cause)) :
      Optimizes n l fusion ord (n, .failed stats ⟨.optimize, .engine cause⟩)
  | lands {d : Draft} {r : Network × Outcome} (hs : n.state ≠ .building) (hd : Drafted n l fusion d)
      (h : Lands n d fusion ord r) : Optimizes n l fusion ord r

/-- An optimization ends in one of these ways. -/
lemma optimizes_optimize (hg : n.state ≠ .building → n.graph.Regular) (hl : l.ArrowFree)
    (fusion : Bool) (ord : RenameOrder) : Optimizes n l fusion ord (n.optimize l fusion ord) := by
  unfold optimize
  by_cases hs : n.state = .building
  · rw [draft, if_pos hs]
    exact .unfrozen hs
  · rcases draft_cases hs l fusion with ⟨s, stats, cause, hf, hrun, herr⟩ | ⟨d, hok, hd⟩
    · rw [herr]
      exact .diverges hs hf hrun
    · rw [hok]
      exact .lands hs hd (lands_land (hd.edited (hg hs) hl) fusion ord)

/-- A draft is made of the graph and of the layouts that are known. -/
lemma draft_congr (n : Network) {c : Calibration} (hc : c.layouts = n.calibration.layouts) (l : Library)
    (fusion : Bool) :
    { n with calibration := c }.draft l fusion = n.draft l fusion := by
  unfold draft
  rw [hc]

/-- An optimization that is done is done whatever scales are recorded and in whatever order entries are moved, and leads
to the same graph. -/
lemma optimize_of_done {m : Network} {ord : RenameOrder}
    (hg : n.state ≠ .building → n.graph.Regular) (hl : l.ArrowFree) (h : n.optimize l fusion ord = (m, .done st)) :
    n.state ≠ .building ∧ ∃ d t layouts g c order, Drafted n l fusion d ∧ Landing n d t layouts g ∧
      Recalibrated n.calibration g ord t.renamed layouts c ∧ m = n.settled g c order st fusion ∧
      ∀ (c₁ : Calibration) (ord' : RenameOrder), c₁.layouts = n.calibration.layouts →
        ∃ c', Recalibrated c₁ g ord' t.renamed layouts c' ∧
          { n with calibration := c₁ }.optimize l fusion ord' = (n.settled g c' order st fusion, .done st) := by
  cases hd : n.draft l fusion with
  | error e =>
    rw [optimize, hd] at h
    cases h
  | ok d =>
    obtain ⟨hs, hdrafted⟩ := draft_ok hd
    rw [optimize, hd] at h
    obtain ⟨t, layouts, g, c, order, hland, hrec, hm, hall⟩ := land_of_done (hdrafted.edited (hg hs) hl) h
    refine ⟨hs, d, t, layouts, g, c, order, hdrafted, hland, hrec, hm, fun c₁ ord' hc₁ => ?_⟩
    rw [optimize, draft_congr n hc₁, hd]
    exact hall c₁ ord'

/-- An outcome that is an abort. -/
def Outcome.Aborts : Outcome → Prop
  | failed _ e => ∃ message, e.toFault = .abort message
  | done _ => False
  | stale _ => False

instance : DecidablePred Outcome.Aborts
  | .failed _ e =>
    match h : e.toFault with
    | .abort message => isTrue ⟨message, h⟩
    | .failure _ => isFalse fun ⟨_, h'⟩ => Fault.noConfusion (h.symm.trans h')
  | .done _ => isFalse id
  | .stale _ => isFalse id

/-- The statistics of an optimization that is done. -/
def Outcome.done? : Outcome → Option Stats
  | done st => some st
  | stale _ => none
  | failed _ _ => none

/-- An outcome with statistics is done. -/
lemma Outcome.eq_done {o : Outcome} (h : o.done? = some st) : o = .done st := by
  cases o with
  | done st' =>
    cases h
    rfl
  | stale _ => cases h
  | failed _ _ => cases h

/-- An optimization whose outcome has statistics is done with these. -/
lemma optimize_eq_of_done? {ord : RenameOrder} (h : (n.optimize l fusion ord).2.done? = some st) :
    n.optimize l fusion ord = ((n.optimize l fusion ord).1, .done st) :=
  Prod.ext rfl (Outcome.eq_done h)

end Network

end OpGraph
