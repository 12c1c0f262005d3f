import Mathlib
import OpGraph.Proofs.Network.Descent
import OpGraph.Proofs.Network.Freeze

/-!
# Scales of variables

The scale of a variable is recorded for the edges that carry it. An optimization moves what is recorded with the edges,
so that a scale can be set before or after it. Only past a dropped node there is a difference: the edge that leads there
now carries the variable that the node has read, and what is recorded for it was recorded for the variable that the node
wrote.
-/

namespace OpGraph.Network

open Sandbox

/-- A scale is set for a variable exactly if it can be recorded for its edges. -/
lemma setVarScale_ok_iff {n m : Network} (hs : n.state ≠ .building) {var : String} {scale : Float32} :
    n.setVarScale var scale = .ok m ↔
      ∃ c, scaleVar n.graph n.calibration var scale = .ok c ∧ m = { n with calibration := c } := by
  rw [setVarScale, if_neg hs]
  cases hc : scaleVar n.graph n.calibration var scale with
  | error cause =>
    constructor
    · intro h
      cases h
    · rintro ⟨c, hc, -⟩
      cases hc
  | ok c =>
    constructor
    · intro h
      cases h
      exact ⟨c, rfl, rfl⟩
    · rintro ⟨c', hc', rfl⟩
      cases hc'
      rfl

section Edges

variable {g g' : Graph} {c c' : Calibration} {var : String} {scale : Float32}

/-- What is recorded for an edge after the scale of a variable was set. -/
lemma get?_scaleVar (hg : g.Regular) (h : scaleVar g c var scale = .ok c') {e : Edge} (he : e ∈ g.edges) :
    c'.scales.get? e.id = if e.var = var then some ⟨[scale], false⟩ else c.scales.get? e.id := by
  rcases scales_scaleVar h e.id with ⟨f, hf, hvar, hid, hget⟩ | ⟨hno, hget⟩
  · obtain rfl := hg.eq_of_id hf he hid
    rw [if_pos hvar, hget]
  · rw [if_neg fun hvar => hno e he hvar rfl, hget]

variable {ord : RenameOrder} {renamed : Dict EdgeId}

/-- A scale that is set before edges are moved is found at an edge that carries the variable, if the edges that stand
for it carry the variable too, or have their producers and no other scale. -/
lemma Descent.get?_scaled (hd : Descent g g' renamed) (hg : g.Regular) (h : scaleVar g c var scale = .ok c') {e : Edge}
    (he : e ∈ g'.edges) (hvar : e.var = var)
    (hall : ∀ f ∈ g.edges, StandsFor g.dag.Adj (g.Moved g') f.src f.dst e.src e.dst →
      f.var = var ∨ ¬ Gone (g.Moved g') f.src ∧
      (c.scales.get? f.id = none ∨ c.scales.get? f.id = some ⟨[scale], false⟩)) :
    (Calibration.moveAll c'.scales (ord.arrange renamed.entries)).get? e.id = some ⟨[scale], false⟩ := by
  -- What the edge is called after carries the variable.
  obtain ⟨f, hf, hfe, hlabel⟩ := hd.origin e he
  have hfvar : f.var = var := by
    rcases hlabel with hlabel | hgone
    · exact hlabel.trans hvar
    · exact (hall f hf (hd.stands f hf e he hfe)).resolve_right fun hkept => hkept.1 hgone
  have hfscale : c'.scales.get? f.id = some ⟨[scale], false⟩ := by
    rw [get?_scaleVar hg h hf, if_pos hfvar]
  rcases Calibration.get?_moveAll_arrange (d := c'.scales) hd.once (hd.unmoved e he) with
    ⟨b, hb, hcontains, hget⟩ | ⟨hnone, hget⟩
  · -- The entry was moved here from an edge that stands for this one.
    obtain ⟨k, hk, rfl⟩ := hd.edge hb
    have hscale := get?_scaleVar hg h hk
    rw [hget]
    rcases hall k hk (hd.stands k hk e he (.inr hb)) with hkvar | ⟨-, hno | hsame⟩
    · rw [hscale, if_pos hkvar]
    · rw [Dict.contains, hscale, hno] at hcontains
      rw [hscale]
      split
      · rfl
      · rename_i hkvar
        rw [if_neg hkvar] at hcontains
        cases hcontains
    · rw [hscale, hsame, ite_self]
  · rcases hfe with hid | hren
    · rw [hget, ← hid, hfscale]
    · exact absurd (Dict.contains_iff.2 ⟨_, hfscale⟩) (hnone f.id hren)

/-- A scale that is set before edges are moved does not matter to an edge that no edge with the variable stands for. -/
lemma Descent.get?_unscaled (hd : Descent g g' renamed) (hg : g.Regular)
    (h : scaleVar g c var scale = .ok c') {e : Edge} (he : e ∈ g'.edges)
    (hall : ∀ f ∈ g.edges, StandsFor g.dag.Adj (g.Moved g') f.src f.dst e.src e.dst → f.var ≠ var) :
    (Calibration.moveAll c'.scales (ord.arrange renamed.entries)).get? e.id =
      (Calibration.moveAll c.scales (ord.arrange renamed.entries)).get? e.id := by
  refine Calibration.get?_moveAll_arrange_congr hd.once (hd.unmoved e he) (fun b hb => ?_) ?_
  · obtain ⟨f, hf, rfl⟩ := hd.edge hb
    rw [get?_scaleVar hg h hf, if_neg (hall f hf (hd.stands f hf e he (.inr hb)))]
  · rcases scales_scaleVar h e.id with ⟨f, hf, hvar, hid, -⟩ | ⟨-, hget⟩
    · exact absurd hvar (hall f hf (hd.stands f hf e he (.inl hid)))
    · exact hget

end Edges

variable {l : Library} {n m m' : Network}

/-- A scale that can be set after an optimization can be set before it. The optimization then ends with the same graph,
in whatever orders entries are moved, and an edge that carries the variable has the scale either way, unless one of the
edges that stand for it carried another variable and has lost its producer or had another scale. Where no edge that
stands for it carried the variable, the edge has what it would have had in the same order without the scale. -/
theorem setVarScale_optimize (h : Reached (fun _ => True) l n) {ord : RenameOrder} {st : Stats}
    (ho : n.optimize l true ord = (m, .done st)) {var : String} {scale : Float32}
    (hset : m.setVarScale var scale = .ok m') :
    ∃ n₁, n.setVarScale var scale = .ok n₁ ∧ ∀ ord₁, ∃ m₁, n₁.optimize l true ord₁ = (m₁, .done st) ∧
      m₁.graph = m'.graph ∧
      ∀ e ∈ m'.graph.edges, e.var = var → m'.calibration.scales.get? e.id = some ⟨[scale], false⟩ ∧
        ((∀ f ∈ n.graph.edges, StandsFor n.graph.dag.Adj (n.graph.Moved m.graph) f.src f.dst e.src e.dst →
            f.var = var ∨ ¬ Gone (n.graph.Moved m.graph) f.src ∧
              (n.calibration.scales.get? f.id = none ∨ n.calibration.scales.get? f.id = some ⟨[scale], false⟩)) →
          m₁.calibration.scales.get? e.id = m'.calibration.scales.get? e.id) ∧
        ((∀ f ∈ n.graph.edges, StandsFor n.graph.dag.Adj (n.graph.Moved m.graph) f.src f.dst e.src e.dst →
        f.var ≠ var) →
          m₁.calibration.scales.get? e.id = (n.optimize l true ord₁).1.calibration.scales.get? e.id) := by
  have hc := h.coherent
  obtain ⟨hs, d, t, layouts, g, c, order, hd, hl, hrec, rfl, hagain⟩ := optimize_of_done hc.regular hc.library ho
  have hg := hc.regular hs
  have hdesc := descent_landing h hs hd hl
  obtain ⟨after, hafter, rfl⟩ := (setVarScale_ok_iff (by simp [settled])).1 hset
  -- An edge with the variable comes from one with the variable.
  obtain ⟨e, he, hev⟩ := scaleVar_ok_iff.1 ⟨after, hafter⟩
  obtain ⟨f, hf, hfv⟩ := hdesc.carried e he
  obtain ⟨before, hbefore⟩ := scaleVar_ok_iff.2 ⟨f, hf, hfv.trans hev⟩
  refine ⟨_, (setVarScale_ok_iff hs).2 ⟨before, hbefore, rfl⟩, fun ord₁ => ?_⟩
  obtain ⟨c₁, hrec₁, ho₁⟩ := hagain before ord₁ (layouts_scaleVar hbefore)
  obtain ⟨c₀, hrec₀, ho₀⟩ := hagain n.calibration ord₁ rfl
  refine ⟨_, ho₁, rfl, fun e he hev => ?_⟩
  have hscaled : after.scales.get? e.id = some ⟨[scale], false⟩ := by
    rcases scales_scaleVar hafter e.id with ⟨_, _, _, _, hget⟩ | ⟨hno, -⟩
    · exact hget
    · exact absurd rfl (hno e he hev)
  have hstays := stays_of_mem_edges hl.regular he
  refine ⟨hscaled, fun hall => ?_, fun hall => ?_⟩
  · rw [hscaled]
    refine (hrec₁.scales e.id).trans ?_
    rw [if_pos hstays, Calibration.rename, Calibration.scales_renameAll]
    exact hdesc.get?_scaled hg hbefore he hev hall
  · have hown : n.optimize l true ord₁ = (n.settled g c₀ order st true, .done st) := ho₀
    rw [hown]
    refine (hrec₁.scales e.id).trans (Eq.trans ?_ (hrec₀.scales e.id).symm)
    rw [if_pos hstays, if_pos hstays, Calibration.rename, Calibration.rename, Calibration.scales_renameAll,
      Calibration.scales_renameAll]
    exact hdesc.get?_unscaled hg hbefore he hall

/-- A chain that is read directly and past an operator that is dropped. -/
def forked : List Node := [
  { name := "c", type := "conv", outputs := ["c0"] },
  { name := "r", type := "relu", inputs := ["c0"], outputs := ["r0"] },
  { name := "y", type := "softmax", inputs := ["r0"] },
  { name := "d", type := "Dropout", inputs := ["r0"], outputs := ["d0"] },
  { name := "z", type := "softmax", inputs := ["d0"] }]

lemma reached_forked : Reached (fun _ => True) .standard (assemble forked []) :=
  reached_assemble (by decide) (by decide) []

/-- The edge from the fused chain to `y` has the scale of `r0` either way, whatever the order. What is set before the
optimization does not matter to the edge to `z`. -/
theorem setVarScale_optimize_forked : ∃ m m' n₁ st,
    (assemble forked []).optimize .standard true .ascending = (m, .done st) ∧ m.setVarScale "r0" 0.5 = .ok m' ∧
    (assemble forked []).setVarScale "r0" 0.5 = .ok n₁ ∧
    ∀ ord, ∃ m₁, n₁.optimize .standard true ord = (m₁, .done st) ∧
      (∃ e ∈ m₁.graph.edges, e.var = "r0" ∧ e.dst = "y" ∧ m'.calibration.scales.get? e.id = some ⟨[0.5], false⟩ ∧
        m₁.calibration.scales.get? e.id = some ⟨[0.5], false⟩) ∧
      ∃ e ∈ m₁.graph.edges, e.var = "r0" ∧ e.dst = "z" ∧
        m₁.calibration.scales.get? e.id =
          ((assemble forked []).optimize .standard true ord).1.calibration.scales.get? e.id := by
  have hdone : (assemble forked []).optimize .standard true .ascending =
      (((assemble forked []).optimize .standard true .ascending).1,
      .done { iterations := 2, fused := 1, dropped := 1 }) :=
    optimize_eq_of_done? (by decide +kernel)
  generalize hm : ((assemble forked []).optimize .standard true .ascending).1 = m at hdone
  have hy : ∃ e ∈ m.graph.edges, e.var = "r0" ∧ e.dst = "y" := by
    rw [← hm]
    decide +kernel
  have hz : ∃ e ∈ m.graph.edges, e.var = "r0" ∧ e.dst = "z" := by
    rw [← hm]
    decide +kernel
  have hstate : m.state ≠ .building := by
    rw [← hm]
    decide +kernel
  have hread : ∀ f ∈ (assemble forked []).graph.edges,
      ((assemble forked []).graph.Moved m.graph f.dst "y" → f.var = "r0") ∧
        ((assemble forked []).graph.Moved m.graph f.dst "z" → f.var ≠ "r0") := by
    rw [← hm]
    decide +kernel
  obtain ⟨e, he, hev, hey⟩ := hy
  obtain ⟨e', he', hev', hez⟩ := hz
  have hscaled : ∃ c, scaleVar m.graph m.calibration "r0" 0.5 = .ok c := scaleVar_ok_iff.2 ⟨e, he, hev⟩
  obtain ⟨c, hc⟩ := hscaled
  have hset := (setVarScale_ok_iff hstate).2 ⟨c, hc, rfl⟩
  obtain ⟨n₁, hset₁, hends⟩ := setVarScale_optimize reached_forked hdone hset
  refine ⟨m, _, n₁, _, hdone, hset, hset₁, fun ord => ?_⟩
  obtain ⟨m₁, hdone₁, hgraph, hall⟩ := hends ord
  obtain ⟨hscale, hsame, -⟩ := hall e he hev
  obtain ⟨-, -, hold⟩ := hall e' he' hev'
  refine ⟨m₁, hdone₁, ⟨e, hgraph ▸ he, hev, hey, hscale, ?_⟩, e', hgraph ▸ he', hev', hez, ?_⟩
  · exact (hsame fun f hf hst => .inl ((hread f hf).1 (hey ▸ hst.dst))).trans hscale
  · exact hold fun f hf hst => (hread f hf).2 (hez ▸ hst.dst)

/-- The edge to `z` carries `r0` after the optimization, but it has the scale only if that is set afterwards. -/
theorem setVarScale_optimize_past_dropped : ∃ m m' n₁ m₁ st,
    Reached (fun _ => True) .standard (assemble forked []) ∧
    (assemble forked []).optimize .standard true .ascending = (m, .done st) ∧ m.setVarScale "r0" 0.5 = .ok m' ∧
    (assemble forked []).setVarScale "r0" 0.5 = .ok n₁ ∧ n₁.optimize .standard true .ascending = (m₁, .done st) ∧
    ∃ e ∈ m₁.graph.edges, e.var = "r0" ∧ m'.calibration.scales.contains e.id ∧
    ¬ m₁.calibration.scales.contains e.id := by
  have hset : ∀ {n : Network}, (n.setVarScale "r0" 0.5).toOption.isSome →
      n.setVarScale "r0" 0.5 = .ok (n.adjust [.varScale "r0" 0.5]) := by
    intro n hn
    cases hok : n.setVarScale "r0" 0.5 with
    | error e =>
      rw [hok] at hn
      cases hn
    | ok m => rw [adjust, List.foldl_cons, List.foldl_nil, set, hok]; rfl
  exact ⟨_, _, _, _, { iterations := 2, fused := 1, dropped := 1 }, reached_forked,
    optimize_eq_of_done? (by decide +kernel),
    hset (by decide +kernel), hset (by decide +kernel), optimize_eq_of_done? (by decide +kernel), by decide +kernel⟩

end OpGraph.Network
