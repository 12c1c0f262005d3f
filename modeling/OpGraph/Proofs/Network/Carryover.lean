import Mathlib
import OpGraph.Proofs.Network.Idempotence
import OpGraph.Proofs.Network.Precedence

/-!
# What is recorded follows the edges

Scales and layouts are recorded under the identifiers of edges. When an optimization moves edges, what is recorded for
them follows them. Where several edges become one, this one has what was recorded for one of them. What was recorded for
another than the first of them is lost if the edge they became is moved again.
-/

namespace OpGraph

open Sandbox

/-- The operators that a node stands for. -/
def Graph.originals (g : Graph) (c : String) : List String :=
  match g.mergeRecord? c with
  | none => [c]
  | some r => r.members

/-- A node of a graph became part of a node of another graph: they stand for the same operator. -/
def Graph.Moved (g g' : Graph) (u a : String) : Prop :=
  u ∈ g.names ∧ a ∈ g'.names ∧ ∃ x ∈ g.originals u, x ∈ g'.originals a

instance (g g' : Graph) (u a : String) : Decidable (g.Moved g' u a) :=
  inferInstanceAs (Decidable (u ∈ g.names ∧ a ∈ g'.names ∧ ∃ x ∈ g.originals u, x ∈ g'.originals a))

/-- A copy has the record of a node that the graph has. -/
lemma mergeRecord?_copy {g : Graph} (hone : g.OneRecord) (c : String) :
    (copy g none).merges.get? c = g.mergeRecord? c := by
  rw [Graph.mergeRecord?]
  cases hfind : g.merges.find? (·.fused == c) with
  | none =>
    by_contra hne
    obtain ⟨r, hr⟩ := Option.ne_none_iff_exists'.1 hne
    obtain ⟨hmem, hc⟩ := (get?_merges_copy hone).1 hr
    exact List.find?_eq_none.1 hfind r hmem (beq_iff_eq.2 hc)
  | some r =>
    have hc := List.find?_some hfind
    exact (get?_merges_copy hone).2 ⟨List.mem_of_find?_eq_some hfind, beq_iff_eq.1 hc⟩

/-- A node of a copy stands for the operators that it stands for in the graph. -/
lemma originals_copy {g : Graph} (hone : g.OneRecord) (c : String) :
    (copy g none).originals c = g.originals c := by
  have hrecord := mergeRecord?_copy hone c
  cases hr : g.mergeRecord? c with
  | none => simp only [Sandbox.originals, Graph.originals, hrecord, hr]
  | some r => simp only [Sandbox.originals, Graph.originals, hrecord, hr]

/-- A node became part of another in the copies exactly if it did in the graphs. -/
lemma moved_copy {g g' : Graph} (hone : g.OneRecord) (hone' : g'.OneRecord) {u a : String} :
    Sandbox.Moved (copy g none) (copy g' none) u a ↔ g.Moved g' u a := by
  simp only [Sandbox.Moved, Owns, originals_copy hone, originals_copy hone', keys_copy_none]
  constructor
  · rintro ⟨x, ⟨hu, hx⟩, ha, hx'⟩
    exact ⟨hu, ha, x, hx, hx'⟩
  · rintro ⟨hu, ha, x, hx, hx'⟩
    exact ⟨x, ⟨hu, hx⟩, ha, hx'⟩

/-- A copy has the edges of the graph. -/
lemma adj_copy {g : Graph} (wf : g.dag.WellFormed) : (copy g none).dag.Adj = g.dag.Adj := by
  funext x y
  exact propext (Network.hasArc_copy wf)

namespace Network

/-! ### Runs -/

lemma persistent_populated : Persistent fun _ => Populated where
  mono := fun _ h => h
  redressed := fun hr h c hc => (h c (hr.mem_keys.1 hc)).imp fun _ hx => hr.owns.2 hx
  effect := by
    intro l e g s t _ hs _ heff h c hc
    cases heff with
    | dropped _ hd =>
      obtain ⟨hc, hne⟩ := hd.mem_keys.1 hc
      exact (h c hc).imp fun _ hx => (owns_dropped hd).2 ⟨hx, hne⟩
    | @fused p members n _ hf =>
      rcases hf.mem_keys.1 hc with rfl | ⟨hc, hmem⟩
      · obtain ⟨last, hlast⟩ := hf.chain.exists_last
        have hmem := List.mem_of_getLast? hlast
        obtain ⟨x, hx⟩ := h last (hf.chain.live hmem)
        exact ⟨x, (owns_fuses hs.tracks hf).2 ⟨last, hx, Engine.Fuses.place_of_mem hmem⟩⟩
      · obtain ⟨x, hx⟩ := h c hc
        exact ⟨x, (owns_fuses hs.tracks hf).2 ⟨c, hx, Engine.Fuses.place_of_not_mem hmem⟩⟩

variable {ok : Node → Prop} {l : Library} {n m : Network}

/-- In a frozen network every node stands for itself. -/
lemma populated_freeze (hc : Coherent ok l n) (he : n.freeze = .ok m) : Populated (copy m.graph none) := by
  intro c hmem
  rw [keys_copy_none] at hmem
  exact ⟨c, (owns_freeze hc he).2 ⟨hmem, rfl⟩⟩

/-- The nodes and edges of a network can be traced through a run, and what the effects of steps preserve is
preserved. -/
lemma induct_traced (h : Reached ok l n) (hs : n.state ≠ .building) {fusion : Bool} {d : Draft}
    (hd : Drafted n l fusion d) {P : Sandbox → Prop} (base : P (copy n.graph none))
    (step : ∀ s t, Edited n.graph (copy n.graph none) s → Edited n.graph (copy n.graph none) t →
      Populated (copy n.graph none) → Traced (copy n.graph none) s → P s → (n.engine l).Effect s t → P t) :
    Traced (copy n.graph none) d.sandbox ∧ P d.sandbox := by
  have hc := h.coherent
  have hg := hc.regular hs
  have hp := persistent_populated.reached populated_freeze h hs
  have hex : Exclusive (copy n.graph none) := persistent_exclusive.reached exclusive_freeze h hs
  obtain ⟨trace, hrun, -⟩ := hd.runs
  have htraced : Traced (copy n.graph none) (copy n.graph none) :=
    .refl hp hex (copied_copy hg none).wellFormed fun b => rfl
  refine (hrun.induct_effect (P := fun s => Traced (copy n.graph none) s ∧ P s) (.copy hg none)
    (arrowFree_engine hc.library n) ⟨htraced, base⟩ ?_).2
  rintro s t hs ht ⟨htr, hP⟩ heff
  refine ⟨?_, step s t hs ht hp htr hP heff⟩
  cases heff with
  | dropped hdrop hd => exact htr.dropped hs ht hp hdrop hd
  | fused _ hf => exact htr.fuses hs ht hp hf

/-- The nodes and edges of a network can be traced through a run. -/
lemma traced_drafted (h : Reached ok l n) (hs : n.state ≠ .building) {fusion : Bool} {d : Draft}
    (hd : Drafted n l fusion d) : Traced (copy n.graph none) d.sandbox :=
  (induct_traced h hs hd (P := fun _ => True) trivial fun _ _ _ _ _ _ _ _ => trivial).1

/-! ### Calibrations -/

section Moving

variable {g : Graph} {s : Sandbox} {trace : List (Sandbox × Edit)} {α : Type} {d : Dict α}

/-- An edge is called after the one from `x` to `y`, or that one is noted to have become part of it. -/
def Bears (s : Sandbox) (a b x y : String) : Prop :=
  s.baseId { src := a, dst := b } = EdgeId.arc x y ∨ s.renamed.get? (EdgeId.arc x y) = some (EdgeId.arc a b)

/-- An edge that was outranked only where it is now is known there. -/
lemma bears_of_survives (hs : Edited g (copy g none) s) {u v a b : String}
    (h : Ranked (copy g none) trace s u v) (hab : s.dag.hasArc a b)
    (hsurv : Survives (copy g none) trace u v a b) (hu : Sandbox.Moved (copy g none) s u a)
    (hv : Sandbox.Moved (copy g none) s v b) : Bears s a b u v := by
  by_cases hout : ∃ p f, Outranked (copy g none) trace u v p f
  · obtain ⟨p, f, hout⟩ := hout
    exact .inr (h.kept hout hsurv hab hu hv)
  · push Not at hout
    obtain ⟨c, hc, rfl, rfl⟩ := Digraph.hasArc_iff.1 hab
    refine .inl (Eq.trans ?_ (h.called (fun {p f} => hout p f) c hc hu hv))
    rw [baseId, baseId, hs.tracks.id_of_mem hc]
    rfl

variable {ord : RenameOrder} (hs : Edited g (copy g none) s) (h : Traced (copy g none) s) (hp : Populated (copy g none))
  (hranked : ∀ {x y}, (copy g none).dag.hasArc x y → Ranked (copy g none) trace s x y)

include hs h hp hranked

/-- If something is recorded for an edge that is known at another, then what is recorded for an edge that stands for
this one and was outranked nowhere else is found there. -/
lemma exists_get?_moveAll {a b : String} (hab : s.dag.hasArc a b) {u v : String} (huv : (copy g none).dag.hasArc u v)
    (hb : Bears s a b u v) (hd : d.contains (EdgeId.arc u v)) :
    ∃ x y, Stands (copy g none) s x y a b ∧ Survives (copy g none) trace x y a b ∧
      d.contains (EdgeId.arc x y) ∧
      (Calibration.moveAll d (ord.arrange s.renamed.entries)).get? (EdgeId.arc a b) = d.get? (EdgeId.arc x y) := by
  have wf := hs.tracks.wellFormed
  have hka := Digraph.hasVertex_iff.1 (wf.hasVertex_src hab)
  have hkb := Digraph.hasVertex_iff.1 (wf.hasVertex_dst hab)
  rcases Calibration.get?_moveAll_arrange (d := d) (fun hb => hs.renamed_once hb) (hs.renamed_of_hasArc hab) with
    ⟨id, hren, hrec, hget⟩ | ⟨hnone, hget⟩
  · obtain ⟨c, hc, -, rfl⟩ := (hs.tracks.removedEdges _).1 (hs.settled.renames.renamed_removed hren)
    have hxy := Digraph.hasArc_of_mem hc
    exact ⟨c.src, c.dst, h.noted hxy hren hka hkb, (hranked hxy).settled hren hka hkb, hrec, hget⟩
  · -- Nothing was moved here, so the edge is called what it was called before.
    rcases hb with hbase | hren
    · refine ⟨u, v, h.stands_of_baseId hs hp hab huv hbase, fun hout => ?_, hd, ?_⟩
      · exact absurd hout ((hranked huv).first_of_hasArc hs.tracks hab hbase)
      · cases horigin : s.origin.get? (EdgeId.arc a b) with
        | none => rw [hget, ← hbase, baseId, Edge.id, Dict.getD_of_none horigin]
        | some id =>
          rw [baseId, Edge.id, Dict.getD_of_some horigin] at hbase
          exact absurd (hbase ▸ hd) (hnone _ (hs.settled.renames.origin horigin))
    · exact absurd hd (hnone _ hren)

/-- If something is recorded for an edge that was outranked only where it is now, or for all edges that stand for
another, then what is recorded for one of those that stand for it is found there. -/
lemma exists_get?_moveAll_of_kept {u v a b : String} (huv : (copy g none).dag.hasArc u v)
    (hu : Sandbox.Moved (copy g none) s u a) (hv : Sandbox.Moved (copy g none) s v b) (hab : s.dag.hasArc a b)
    (hkept : d.contains (EdgeId.arc u v) ∧ Survives (copy g none) trace u v a b ∨
      ∀ x y, Stands (copy g none) s x y a b → d.contains (EdgeId.arc x y)) :
    ∃ x y, Stands (copy g none) s x y a b ∧ Survives (copy g none) trace x y a b ∧
      d.contains (EdgeId.arc x y) ∧
      (Calibration.moveAll d (ord.arrange s.renamed.entries)).get? (EdgeId.arc a b) = d.get? (EdgeId.arc x y) := by
  rcases hkept with ⟨hd, hsurv⟩ | hall
  · exact exists_get?_moveAll hs h hp hranked hab huv (bears_of_survives hs (hranked huv) hab hsurv hu hv) hd
  · obtain ⟨x, y, hbase, hst⟩ := h.exists_baseId (e := { src := a, dst := b }) hs hp hab
    exact exists_get?_moveAll hs h hp hranked hab hst.arc (.inl hbase) (hall x y hst)

end Moving

/-- The edits that the engine makes of a network. -/
def Rewrites (n : Network) (l : Library) (trace : List (Sandbox × Edit)) : Prop :=
  (n.engine l).Runs (Sandbox.copy n.graph none) trace ((n.engine l).run (Sandbox.copy n.graph none)).1.1

/-- What is recorded for the edge from `a` to `b` was recorded for an edge that stands for it, and that was outranked in
no merge but the one that made the edge. -/
def Inherits (n m : Network) (trace : List (Sandbox × Edit)) {α : Type} (before after : Dict α) (a b : String) : Prop :=
  ∃ x y, StandsFor n.graph.dag.Adj (n.graph.Moved m.graph) x y a b ∧
    Survives (Sandbox.copy n.graph none) trace x y a b ∧
    before.contains (EdgeId.arc x y) ∧ after.get? (EdgeId.arc a b) = before.get? (EdgeId.arc x y)

/-- An edge whose ends became parts of different nodes has an edge between these after an optimization. If a scale was
recorded for it and it was outranked by another edge in no merge but the one that made this edge, or if a scale was
recorded for all edges that stand for this one, then this one has the scale of an edge that stands for it. So it is with
layouts. -/
theorem recorded_of_optimize (h : Reached (fun _ => True) l n) {ord : RenameOrder} {st : Stats}
    (ho : n.optimize l true ord = (m, .done st)) :
    (∃ trace, n.Rewrites l trace) ∧ ∀ {trace}, n.Rewrites l trace → ∀ {u v a b}, n.graph.dag.hasArc u v →
      n.graph.Moved m.graph u a → n.graph.Moved m.graph v b → a ≠ b →
      m.graph.dag.hasArc a b ∧
      (n.calibration.scales.contains (EdgeId.arc u v) ∧ Survives (Sandbox.copy n.graph none) trace u v a b ∨
          (∀ x y, StandsFor n.graph.dag.Adj (n.graph.Moved m.graph) x y a b →
            n.calibration.scales.contains (EdgeId.arc x y)) →
        n.Inherits m trace n.calibration.scales m.calibration.scales a b) ∧
      (n.calibration.layouts.contains (EdgeId.arc u v) ∧ Survives (Sandbox.copy n.graph none) trace u v a b ∨
          (∀ x y, StandsFor n.graph.dag.Adj (n.graph.Moved m.graph) x y a b →
            n.calibration.layouts.contains (EdgeId.arc x y)) →
        n.Inherits m trace n.calibration.layouts m.calibration.layouts a b) := by
  have hc := h.coherent
  have hone := hc.oneRecord
  obtain ⟨trace, hr, -⟩ := (n.engine l).runs_run (copy n.graph none)
  refine ⟨⟨trace, hr⟩, fun {trace} hr {u v a b} huv hu hv hab => ?_⟩
  have hopt := optimizes_optimize hc.regular hc.library true ord
  rw [ho] at hopt
  cases hopt with
  | @lands d _ hs hd hlands =>
    cases hlands with
    | @done t layouts g c order _ hl _ hrec _ =>
      have hg := hc.regular hs
      have hp := persistent_populated.reached populated_freeze h hs
      have hrun := hd.run
      rw [if_pos rfl] at hrun
      rw [Rewrites, hrun] at hr
      obtain ⟨htr, hranked⟩ := ranked_of_runs (arrowFree_engine hc.library n) hg hp
        (persistent_exclusive.reached exclusive_freeze h hs) hr
      have hed := hd.edited hg hc.library
      have hred := hl.redressed hone
      have hmoved : Sandbox.Moved (copy n.graph none) d.sandbox = n.graph.Moved g := by
        funext u a
        refine propext (Iff.trans ?_ (moved_copy hone (hl.oneRecord hone)))
        exact exists_congr fun x => and_congr_right fun _ => hred.owns.symm
      have hstands : Stands (copy n.graph none) d.sandbox = StandsFor n.graph.dag.Adj (n.graph.Moved g) := by
        rw [Stands, adj_copy hg.dag, hmoved]
      have huv : (copy n.graph none).dag.hasArc u v := (hasArc_copy hg.dag).2 huv
      have hu' : Sandbox.Moved (copy n.graph none) d.sandbox u a := hmoved ▸ hu
      have hv' : Sandbox.Moved (copy n.graph none) d.sandbox v b := hmoved ▸ hv
      have hjoined : d.sandbox.dag.hasArc a b := htr.joined (.arc huv) hu' hv' hab
      have harc : g.dag.hasArc a b := (hasArc_copy hl.regular.dag).1 (hred.hasArc.2 hjoined)
      have hstays : Stays g (EdgeId.arc a b) :=
        .inr ((Graph.edgeById?_arc_isSome (hl.regular.arrowFree a hu.2.1)).2 harc)
      have hfound := fun {α : Type} {dict : Dict α} =>
        @exists_get?_moveAll_of_kept _ _ trace α dict ord hed htr hp hranked _ _ _ _ huv hu' hv' hjoined
      rw [hstands, ← (moves_eq_iff.1 hl.normalized.respells.moves).2.2] at hfound
      refine ⟨harc, fun hkept => ?_, fun hkept => ?_⟩
      · obtain ⟨x, y, hst, hsurv, hdict, hget⟩ := hfound hkept
        refine ⟨x, y, hst, hsurv, hdict, (hrec.scales _).trans ?_⟩
        rwa [if_pos hstays, Calibration.rename, Calibration.scales_renameAll]
      · obtain ⟨x, y, hst, hsurv, hdict, hget⟩ := hfound hkept
        refine ⟨x, y, hst, hsurv, hdict, (hrec.layouts _).trans ?_⟩
        rw [if_pos hstays, Calibration.rename, Calibration.layouts_renameAll, hget]
        obtain ⟨layout, hlayout⟩ := Dict.contains_iff.1 hdict
        rw [hlayout]
        rfl

/-- The network of `sideInput`, with a scale and a layout of the later one of the two edges into its chain only. -/
def recordedAside : Network :=
  (assemble sideInput []).adjust [.varScale "u1" 0.5, .layout "u" "b" "NHWC"]

/-- The two edges become one, which is not moved again, and has the scale and the layout of the one that had them. -/
theorem recorded_of_optimize_recordedAside : ∃ m st, recordedAside.optimize .standard true .ascending = (m, .done st) ∧
    recordedAside.graph.dag.hasArc "u" "a" ∧ ¬ recordedAside.calibration.scales.contains (EdgeId.arc "u" "a") ∧
    m.graph.dag.hasArc "u" "fused_cbr" ∧
    m.calibration.scales.get? (EdgeId.arc "u" "fused_cbr") =
    recordedAside.calibration.scales.get? (EdgeId.arc "u" "b") ∧
    m.calibration.layouts.get? (EdgeId.arc "u" "fused_cbr") =
    recordedAside.calibration.layouts.get? (EdgeId.arc "u" "b") := by
  have hreach : Reached (fun _ => True) .standard recordedAside :=
    (reached_assemble (by decide) (by decide) []).adjust _
  have hdone : recordedAside.optimize .standard true .ascending =
      ((recordedAside.optimize .standard true .ascending).1, .done { iterations := 2, fused := 1 }) :=
    optimize_eq_of_done? (by decide +kernel)
  obtain ⟨⟨trace, hr⟩, hall⟩ := recorded_of_optimize hreach hdone
  have hc := hreach.coherent
  have hs : recordedAside.state ≠ .building := by decide +kernel
  have hg := hc.regular hs
  have harc : recordedAside.graph.dag.hasArc "u" "b" := by decide +kernel
  obtain ⟨-, hranked⟩ := ranked_of_runs (arrowFree_engine hc.library recordedAside) hg
    (persistent_populated.reached populated_freeze hreach hs)
    (persistent_exclusive.reached exclusive_freeze hreach hs) hr
  have hsurv : Survives (copy recordedAside.graph none) trace "u" "b" "u" "fused_cbr" :=
    (hranked ((hasArc_copy hg.dag).2 harc)).settled (by decide +kernel) (by decide +kernel) (by decide +kernel)
  obtain ⟨hjoined, hscales, hlayouts⟩ :=
    hall hr harc (a := "u") (b := "fused_cbr") (by decide +kernel) (by decide +kernel)
    (by decide)
  -- Nothing else is recorded, so what is inherited was recorded for this edge.
  have hsole : ∀ {α : Type} {dict : Dict α} {id : EdgeId}, (∀ p ∈ dict.entries, p.1 = EdgeId.arc "u" "b") →
    dict.contains id →
      id = EdgeId.arc "u" "b" := by
    intro α dict id hall hid
    obtain ⟨v, hv⟩ := Dict.contains_iff.1 hid
    exact hall _ ((Dict.get?_eq_some_iff dict id v).1 hv)
  obtain ⟨x, y, -, -, hx, hscale⟩ := hscales (.inl ⟨by decide +kernel, hsurv⟩)
  obtain ⟨x', y', -, -, hx', hlayout⟩ := hlayouts (.inl ⟨by decide +kernel, hsurv⟩)
  rw [hsole (by decide +kernel) hx] at hscale
  rw [hsole (by decide +kernel) hx'] at hlayout
  exact ⟨_, _, hdone, by decide +kernel, by decide +kernel, hjoined, hscale, hlayout⟩

/-- The network of `shortcut`, with a scale and a layout of the shortcut only. -/
def recordedOnce : Network :=
  (assemble shortcut []).adjust [.varScale "u1" 0.5, .layout "u" "b" "NHWC"]

/-- What is recorded for the shortcut is lost when both chains are fused. -/
theorem recordedOnce_lost : Reached (fun _ => True) .standard recordedOnce ∧ ∃ m st,
    recordedOnce.optimize .standard true .ascending = (m, .done st) ∧ recordedOnce.graph.dag.hasArc "u" "b" ∧
    recordedOnce.graph.Moved m.graph "u" "fused_cr" ∧ recordedOnce.graph.Moved m.graph "b" "fused_cbr" ∧
    recordedOnce.calibration.scales.contains (EdgeId.arc "u" "b") ∧
    recordedOnce.calibration.layouts.entries = [("u->b", .nhwc)] ∧
    m.calibration.scales.isEmpty ∧ m.calibration.layouts.get? (EdgeId.arc "fused_cr" "fused_cbr") = some .nchw :=
  ⟨(reached_shortcut []).adjust _, _, { iterations := 2, fused := 2 }, optimize_eq_of_done? (by decide +kernel),
    by decide +kernel, by decide +kernel, by decide +kernel, by decide +kernel, by decide +kernel, by decide +kernel,
    by decide +kernel⟩

end Network

end OpGraph
