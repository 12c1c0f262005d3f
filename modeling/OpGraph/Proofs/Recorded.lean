import Mathlib
import OpGraph.Proofs.Network.Layouts
import OpGraph.Proofs.WeightScales

/-!
# What is recorded for edges

Layouts are recorded for edges, and scales for edges and for weights. What is recorded for an edge that is gone stays
until the next optimization, which leaves layouts of exactly the edges that are there. It touches neither the scales nor
the layout of an edge that is there before and after: edges are only moved to new ones.
-/

namespace OpGraph

open Sandbox

namespace Network

variable {n m : Network} {id : EdgeId}

/-! ### Identifiers of edges and of weights -/

/-- What is recorded under an identifier that is not that of an edge is the scales of weights. -/
structure Keyed (n : Network) : Prop where
  layouts : ∀ id : EdgeId, id.isSynthetic → n.calibration.layouts.get? id = none
  scales : ∀ id : EdgeId, id.isSynthetic → (∀ op bias, id ≠ EdgeId.weights op bias) →
    n.calibration.scales.get? id = none

/-- No request records a layout under an identifier that is not that of an edge. -/
lemma layouts_request (hid : id.isSynthetic) {q : Request} (h : n.request q = .ok m) :
    m.calibration.layouts.get? id = n.calibration.layouts.get? id := by
  rcases calibration_request h with hsame | ⟨setting, rfl, hset⟩ | ⟨g, order, hres⟩
  · rw [hsame]
  · rcases layouts_set hset with hsame | ⟨src, dst, layout, -, hinsert⟩
    · rw [hsame]
    · have hne : id ≠ EdgeId.arc src dst := fun he => EdgeId.not_isSynthetic_arc src dst (he ▸ hid)
      rw [hinsert, Dict.get?_insert, if_neg hne]
  · rw [layouts_resolve hres]

/-- Landing a draft records layouts for edges only. -/
lemma layouts_land (hid : id.isSynthetic) {k : Network} {l : Library} {fusion : Bool} {ord : RenameOrder} {d : Draft}
    (hd : Drafted k l fusion d) (wf : k.graph.WellFormed) (hg : k.graph.Sound) :
    (n.land d fusion ord).1.calibration.layouts.get? id = n.calibration.layouts.get? id := by
  rcases n.calibration_land d fusion ord with hsame | ⟨t, layouts, g, hnorm, hrec⟩
  · rw [hsame]
  · have hgiven : layouts.get? id = none := by
      rw [Dict.get?_eq_none_iff, contains_normalize hnorm]
      rintro ⟨-, e, -, rfl⟩
      exact EdgeId.not_isSynthetic_arc e.src e.dst hid
    rw [hrec.layouts_unmoved (.inl hid) fun hb => hd.unmoved wf hg hid (by rwa [hnorm]), hgiven, Option.or_none]

namespace Keyed

/-- Requests record nothing but the scales of weights under identifiers that are not those of edges. -/
lemma request (h : Keyed n) {q : Request} (hq : n.request q = .ok m) : Keyed m where
  layouts := fun id hid => (layouts_request hid hq).trans (h.layouts id hid)
  scales := fun id hid hne => (scales_request hid hq fun op _ bias _ => hne op bias).trans (h.scales id hid hne)

/-- Landing a draft records nothing new under identifiers that are not those of edges. -/
lemma land (h : Keyed n) {k : Network} {l : Library} {fusion : Bool} {ord : RenameOrder} {d : Draft}
    (hd : Drafted k l fusion d) (wf : k.graph.WellFormed) (hg : k.graph.Sound) : Keyed (n.land d fusion ord).1 where
  layouts := fun id hid => (layouts_land hid hd wf hg).trans (h.layouts id hid)
  scales := fun id hid hne => (scales_land hid hd wf hg).trans (h.scales id hid hne)

end Keyed

/-! ### Optimizations -/

section Landing

variable {d : Draft} {ord : RenameOrder} {t : Sandbox} {layouts : Dict Layout} {g : Graph} {c : Calibration}

/-- Landing a draft leaves scales of edges and of weights. -/
lemma Landing.exists_edge_or_weights (h : Landing n d t layouts g)
    (hc : Recalibrated n.calibration g ord t.renamed layouts c)
    (hsyn : ∀ id : EdgeId, id.isSynthetic → (∀ op bias, id ≠ EdgeId.weights op bias) → c.scales.get? id = none)
    (hid : c.scales.contains id) : (∃ e ∈ g.edges, e.id = id) ∨ ∃ op bias, id = EdgeId.weights op bias := by
  by_cases hs : id.isSynthetic
  · right
    by_contra hno
    exact Dict.get?_eq_none_iff.1 (hsyn id hs fun op bias he => hno ⟨op, bias, he⟩) hid
  · exact .inl (h.exists_edge (hc.stays_scales hid) hs)

/-- Landing a draft touches neither the scales nor the layout of an edge that is there before and after. -/
lemma Landing.recorded_unmoved (h : Landing n d t layouts g) (hc : Recalibrated n.calibration g ord t.renamed layouts c)
    {x y : String} (hxy : n.graph.dag.hasArc x y) (hxy' : g.dag.hasArc x y) :
    c.scales.get? (EdgeId.arc x y) = n.calibration.scales.get? (EdgeId.arc x y) ∧
      ∀ layout, n.calibration.layouts.get? (EdgeId.arc x y) = some layout →
        c.layouts.get? (EdgeId.arc x y) = some layout := by
  have hstays := stays_of_hasArc h.regular hxy'
  have hmoved : ∀ {b b'}, t.renamed.get? b = some b' → b ≠ EdgeId.arc x y ∧ b' ≠ EdgeId.arc x y := h.unmoved hxy hxy'
  refine ⟨hc.scales_unmoved hstays hmoved, fun layout hlayout => ?_⟩
  rw [hc.layouts_unmoved hstays hmoved, hlayout, Option.some_or]

end Landing

end Network

namespace Workspace

open Network (Current Keyed)

lemma durable_keyed : Durable fun n => Current n ∧ Keyed n where
  new := fun name library => ⟨.new name library, ⟨fun _ _ => rfl, fun _ _ _ => rfl⟩⟩
  refit := fun _ _ _ _ _ h => ⟨{ h.1 with }, { h.2 with }⟩
  request := fun h hm => ⟨h.1.answers (Network.answers_request hm), h.2.request hm⟩
  land := by
    intro k n l fusion ord d hk hdraft h ha
    obtain ⟨hbuilt, hd⟩ := Network.draft_ok hdraft
    exact ⟨h.1.land (ha.not_building hdraft) fusion ord, h.2.land hd hk.1.wellFormed (hk.1.sound hbuilt)⟩

/-- An optimization that is done and that nobody disturbs leaves layouts of exactly the edges and scales of edges and
weights. An edge that was there before keeps its scales, and its layout if it had one. No name may hold an arrow. -/
theorem optimize_layouts_total {w : Workspace} (h : Becomes {} w) {r : NetworkRef} {n : Network}
    (hn : w.network? r = some n)
    (hnames : ∀ name ∈ n.graph.names, ArrowFree name) (hlib : (w.library n.library).ArrowFree) {fusion : Bool}
    {ord : RenameOrder} {st : Stats} (hdone : (w.optimize r fusion ord quiet).2.1 = .done st) :
    ∃ m, (w.optimize r fusion ord quiet).1.network? r = some m ∧
      (∀ id, m.calibration.layouts.contains id ↔ ∃ e ∈ m.graph.edges, e.id = id) ∧
      (∀ id, m.calibration.scales.contains id →
        (∃ e ∈ m.graph.edges, e.id = id) ∨ ∃ op bias, id = EdgeId.weights op bias) ∧
      ∀ src dst, (n.graph.edge? src dst).isSome → (m.graph.edge? src dst).isSome →
        m.calibration.scales.get? (EdgeId.arc src dst) = n.calibration.scales.get? (EdgeId.arc src dst) ∧
        ∀ layout, n.calibration.layouts.get? (EdgeId.arc src dst) = some layout →
          m.calibration.layouts.get? (EdgeId.arc src dst) = some layout := by
  have hc := h.current hn
  have hquiet := optimize_quiet hc hn fusion ord
  rw [hquiet] at hdone
  generalize hrun : n.optimize (w.library n.library) fusion ord = result at hquiet hdone
  obtain ⟨m, outcome⟩ := result
  obtain rfl : outcome = .done st := hdone
  have hm : (w.optimize r fusion ord quiet).1.network? r = some m := by
    rw [hquiet]
    exact network?_setNetwork hn m
  have hbecomes : Becomes {} (w.optimize r fusion ord quiet).1 := h.optimize r fusion ord fun _ u => .refl u
  have hkeyed := (hbecomes.all durable_keyed hm).2
  have hregular : n.state ≠ .building → n.graph.Regular := fun hs => ⟨hc.wellFormed, hc.sound hs, hnames⟩
  obtain ⟨-, d, t, layouts, g, c, order, hd, hl, hrec, rfl, -⟩ := Network.optimize_of_done hregular hlib hrun
  have hedges : (n.settled g c order st fusion).graph.edges = g.edges := by cases fusion <;> rfl
  have hdag : (n.settled g c order st fusion).graph.dag = g.dag := by cases fusion <;> rfl
  refine ⟨_, hm, ?_⟩
  rw [hedges]
  refine ⟨fun id => ?_, fun id hid => ?_, fun src dst hbefore hafter => ?_⟩
  · exact hl.contains_layouts_iff hd.known hrec fun id hsyn => Dict.get?_eq_none_iff.1 (hkeyed.layouts id hsyn)
  · exact hl.exists_edge_or_weights hrec hkeyed.scales hid
  · rw [Graph.edge?, Option.isSome_map] at hbefore hafter
    exact hl.recorded_unmoved hrec hbefore (hdag ▸ hafter)

/-- A chain of which an operator is dropped and two are fused, with two more operators behind it. Scales are set inside
the chain and behind it, and there a layout as well. -/
def calibrated : Workspace :=
  ((newNetwork {} "net" none).1).asked 0 [
    .addOp "c" "conv" [] ["x"], .addOp "d" "Dropout" ["x"] ["y"], .addOp "r" "relu" ["y"] ["z"],
    .addOp "s" "softmax" ["z"] ["u"], .addOp "t" "dense" ["u"] [], .freeze, .set (.varScale "x" 1),
    .set (.varScale "u" 2),
    .set (.layout "s" "t" "NHWC"), .set (.weightsScale "c" [1, 2] true)]

/-- The edge behind the chain keeps what was recorded for it, the one out of the fused operator gets a layout, and the
scale of the edge inside the chain is gone. -/
theorem optimize_layouts_total_calibrated : ∃ n m, calibrated.network? 0 = some n ∧
    n.calibration.scales.keys = ["c#bias", "c->d", "s->t"] ∧ n.calibration.layouts.keys = ["s->t"] ∧
    (calibrated.optimize 0 true .ascending quiet).1.network? 0 = some m ∧
    m.graph.edges.map Edge.id = ["fused_cr->s", "s->t"] ∧
    m.calibration.layouts.contains "fused_cr->s" ∧ ¬ m.calibration.scales.contains "c->d" ∧
    m.calibration.scales.get? "s->t" = n.calibration.scales.get? "s->t" ∧
    m.calibration.layouts.get? "s->t" = some .nhwc := by
  have hw : Becomes {} calibrated := ((Becomes.refl {}).newNetwork "net" none).asked 0 _
  have hrun : (calibrated.network? 0).any fun n => decide (∀ name ∈ n.graph.names, ArrowFree name) &&
      decide (calibrated.library n.library).ArrowFree && decide (n.calibration.scales.keys =
        ["c#bias", "c->d", "s->t"]) &&
      decide (n.calibration.layouts.keys = ["s->t"]) && decide (n.calibration.layouts.get? "s->t" = some .nhwc) &&
      (n.graph.edge? "s" "t").isSome && (calibrated.optimize 0 true .ascending quiet).2.1.done?.isSome := by
    decide +kernel
  have hedges : ((calibrated.optimize 0 true .ascending quiet).1.network? 0).any fun m =>
      decide (m.graph.edges.map Edge.id = ["fused_cr->s", "s->t"]) && (m.graph.edge? "s" "t").isSome := by
    decide +kernel
  obtain ⟨n, hn, hrun⟩ := (Option.any_eq_true _ _).1 hrun
  simp only [Bool.and_eq_true, decide_eq_true_eq] at hrun
  obtain ⟨⟨⟨⟨⟨⟨hnames, hlib⟩, hscales⟩, hlayouts⟩, hnhwc⟩, hbefore⟩, hdone⟩ := hrun
  obtain ⟨st, hst⟩ := Option.isSome_iff_exists.1 hdone
  obtain ⟨m, hm, hl, hs, hkept⟩ := optimize_layouts_total hw hn hnames hlib (Network.Outcome.eq_done hst)
  rw [hm, Option.any_some, Bool.and_eq_true, decide_eq_true_eq] at hedges
  obtain ⟨hedges, hafter⟩ := hedges
  obtain ⟨hscale, hlayout⟩ := hkept "s" "t" hbefore hafter
  have hids : ∀ id, (∃ e ∈ m.graph.edges, e.id = id) ↔ id = "fused_cr->s" ∨ id = "s->t" := by
    intro id
    rw [← List.mem_map, hedges]
    simp
  refine ⟨n, m, hn, hscales, hlayouts, hm, hedges, (hl _).2 ((hids _).2 (.inl rfl)), fun hcd => ?_, hscale,
    hlayout _ hnhwc⟩
  rcases hs _ hcd with hedge | ⟨op, bias, he⟩
  · exact absurd ((hids _).1 hedge) (by decide)
  · -- the identifier of weights ends otherwise
    have hlast := congrArg (fun id : String => id.toList.reverse) he
    cases bias <;> simp [EdgeId.weights, String.toList_append] at hlast

end Workspace

end OpGraph
