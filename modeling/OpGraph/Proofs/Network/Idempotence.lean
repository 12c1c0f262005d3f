import Mathlib
import OpGraph.Proofs.Calibration
import OpGraph.Proofs.Fusion.Attributes
import OpGraph.Proofs.Network.Reached

/-!
# Optimizing twice

The engine stops at a sandbox that a pass leaves as it is. The commit makes a graph that looks like the sandbox, with
the pins respelled, so a second optimization finds nothing to do: it takes one pass and changes nothing but the
statistics.
-/

namespace OpGraph

/-- The number of arcs into a vertex depends on which arcs there are only. -/
lemma Digraph.WellFormed.inDegree_congr {α β : Type} {g g' : Digraph α β} (wf : g.WellFormed) (wf' : g'.WellFormed)
    (h : ∀ a, a ∈ g'.arcs ↔ a ∈ g.arcs) (k : String) : g'.inDegree k = g.inDegree k := by
  refine ((List.perm_ext_iff_of_nodup (wf'.preds_nodup k) (wf.preds_nodup k)).2 fun j => ?_).length_eq
  rw [wf'.mem_preds, wf.mem_preds, Digraph.hasArc_iff, Digraph.hasArc_iff]
  exact exists_congr fun a => and_congr_left fun _ => h a

namespace Sandbox

/-- Respelling the pin of a node leaves the names of its attributes and their validity as they are. -/
lemma shape_respelled (n : Node) : (respelled n).attrs.shape = n.attrs.shape := by
  rcases respelled_cases n with h | ⟨old, l, hold, -, h⟩
  · rw [h]
  · rw [h]
    obtain ⟨v, hv, hstring⟩ := pin?_eq_some_iff.1 hold
    have hvalid : v.isValid = true := by
      cases v with
      | string _ => rfl
      | _ => cases hstring
    show Attribute.Store.shape (n.attrs.insert layoutAttr (.string l.text)) = _
    refine Dict.ext_get? fun k => ?_
    rw [Attribute.Store.shape_insert, Dict.get?_insert]
    split
    · rename_i hk
      rw [Attribute.Store.get?_shape, hk, hv, Option.map_some, hvalid]
      rfl
    · rfl

end Sandbox

/-! ### Stability -/

namespace Engine

open Sandbox

/-- A sandbox looks like another one with its pins respelled. -/
structure Mirrors (s t : Sandbox) : Prop where
  redressed : Redressed s t
  node : ∀ k, t.node? k = (s.node? k).map respelled

section Mirrors

variable {g g' : Graph} {e : Engine} {s t : Sandbox}

/-- What can be passed by in a sandbox can be passed by in one that it mirrors. -/
lemma Mirrors.passable (h : Mirrors s t) {d x : String} (hp : t.Passable d x) : s.Passable d x where
  live := h.redressed.mem_keys.1 hp.live
  notOutput := h.redressed.outs ▸ hp.notOutput
  source := fun z => h.redressed.hasArc.symm.trans (hp.source z)
  unregistered := h.redressed.registered ▸ hp.unregistered
  consumers := by
    intro y hy
    obtain ⟨hr, hx⟩ := hp.consumers y (h.redressed.hasArc.2 hy)
    exact ⟨h.redressed.registered ▸ hr, fun hxy => hx (h.redressed.hasArc.2 hxy)⟩

lemma Mirrors.fits (h : Mirrors s t) (hs : Edited g (Sandbox.copy g none) s) (ht : Edited g' (Sandbox.copy g' none) t)
    (c : Constraint) (name : String) : fits t c name = fits s c name := by
  have hdegree := hs.tracks.wellFormed.inDegree_congr ht.tracks.wellFormed (fun a => h.redressed.mem_arcs) name
  unfold Engine.fits
  rw [h.node]
  cases s.node? name with
  | none => rfl
  | some n =>
    have htype : (respelled n).bare.type = n.bare.type := congrArg Node.type (bare_respelled n)
    have htype : (respelled n).type = n.type := htype
    simp only [Option.map_some, htype, hdegree]

/-- A chain is one in the sandbox that is mirrored too. -/
lemma Mirrors.chain (h : Mirrors s t) (hs : Edited g (Sandbox.copy g none) s) (ht : Edited g' (Sandbox.copy g' none) t)
    {cs : List Constraint} {members : List String} (hc : Chain t cs members) : Chain s cs members := by
  induction hc with
  | last hf _ => exact .last (h.fits hs ht _ _ ▸ hf) (hs.not_anchor _)
  | link hf _ hsucc ho hr _ ih =>
    refine .link (h.fits hs ht _ _ ▸ hf) (hs.not_anchor _) ?_ (h.redressed.outs ▸ ho) (h.redressed.registered ▸ hr) ih
    rwa [← ht.tracks.wellFormed.map_dst_outArcs, ht.tracks.wellFormed.outArcs_eq, h.redressed.arcsFrom,
      ← hs.tracks.wellFormed.outArcs_eq, hs.tracks.wellFormed.map_dst_outArcs] at hsucc

/-- The attributes of members clash exactly if they clash in the sandbox that is mirrored. -/
lemma Mirrors.fusedAttrs (h : Mirrors s t) {members : List String} :
    (∃ attrs, t.fusedAttrs members = .ok attrs) ↔ ∃ attrs, s.fusedAttrs members = .ok attrs :=
  exists_ok_of_map (fusedAttrs_shape respelled_name shape_respelled (fun m _ => h.node m)
    fun n _ => by rw [h.redressed.merges])

/-- What a pass leaves as it is, it leaves so with its pins respelled. -/
lemma Stable.mirrors (hst : e.Stable s) (h : Mirrors s t) (hs : Edited g (Sandbox.copy g none) s)
    (ht : Edited g' (Sandbox.copy g' none) t) : e.Stable t := by
  constructor
  · intro n hn hty u hok
    obtain ⟨v, hv, rfl⟩ := (mem_nodes_iff ht).1 hn
    have hnode : t.node? v.val.name = some v.val := Option.map_eq_some_iff.2 ⟨v, hv, rfl⟩
    obtain ⟨m, hm, he⟩ := h.redressed.exists_node hnode
    have hname : v.val.bare.name = m.bare.name := congrArg Node.name he
    have htype : v.val.bare.type = m.bare.type := congrArg Node.type he
    obtain ⟨w, hw, rfl⟩ := Option.map_eq_some_iff.1 hm
    obtain ⟨src, hd, -⟩ := dropped_of_drop ht hok
    have hpass := h.passable (ht.passable_of_droppable hd)
    have hmem := (mem_nodes_iff hs).2 ⟨w, hname ▸ hw, rfl⟩
    exact not_passable_of_drop hs (hst.drops w.val hmem (htype ▸ hty)) _ (hname ▸ hpass)
  · intro head hhead p hp hm
    obtain ⟨members, hfirst, hlen, hc, hattrs⟩ := (merges_iff ht).1 hm
    exact hst.merges head (h.redressed.mem_keys.1 hhead) p hp
      ((merges_iff hs).2 ⟨members, hfirst, hlen, h.chain hs ht hc, h.fusedAttrs.1 hattrs⟩)

end Mirrors

end Engine

namespace Network

open Sandbox

variable {ok : Node → Prop} {l : Library} {n m : Network}

/-- The graph of a landed draft looks like the sandbox with its pins respelled. -/
lemma Landing.mirrors {d : Draft} {t : Sandbox} {layouts : Dict Layout} {g : Graph} (h : Landing n d t layouts g)
    (hone : n.graph.OneRecord) : Engine.Mirrors d.sandbox (Sandbox.copy g none) := by
  refine ⟨h.redressed hone, fun k => ?_⟩
  rw [node?_copy, Graph.node?, Digraph.val?, (h.refines hone).nodes, h.normalized.respells.vertex, Sandbox.node?,
    Digraph.val?, Option.map_map, Option.map_map]
  cases hv : d.sandbox.dag.vertex? k with
  | none => rfl
  | some v =>
    have hk : k ∈ d.sandbox.dag.keys := Digraph.hasVertex_iff.1 (Digraph.hasVertex_iff_exists.2 ⟨v, hv⟩)
    simp only [Option.map_some, Function.comp_apply, if_pos hk]

/-! ### Layouts -/

/-- After an optimization every edge has a layout. -/
lemma Landing.contains_layouts {d : Draft} {t : Sandbox} {layouts : Dict Layout} {g : Graph} {c : Calibration}
    {ord : RenameOrder} (h : Landing n d t layouts g)
    (hknown : ∀ id, d.known.contains id → n.calibration.layouts.contains id)
    (hc : Recalibrated n.calibration g ord t.renamed layouts c) {x y : String} (hxy : g.dag.hasArc x y) :
    c.layouts.contains (EdgeId.arc x y) := by
  have hxy' := h.hasArc_iff.1 hxy
  have hget := hc.layouts (EdgeId.arc x y)
  rw [if_pos (stays_of_hasArc h.regular hxy)] at hget
  rw [Dict.contains, hget, Option.isSome_or, Bool.or_eq_true]
  by_cases hk : d.known.contains (EdgeId.arc x y)
  · left
    have hmoved := Calibration.contains_moveAll ord (h.edited.renamed_of_hasArc hxy')
      (hknown _ hk)
    rw [Calibration.rename, Calibration.layouts_renameAll]
    exact hmoved
  · right
    obtain ⟨a, ha, rfl, rfl⟩ := Digraph.hasArc_iff.1 hxy'
    refine h.normalized.assigned.2 ⟨hk, a.val, ?_, h.edited.tracks.id_of_mem ha⟩
    exact List.mem_map_of_mem (h.edited.tracks.wellFormed.mem_arcsBySource.2 ha)

/-! ### The second time -/

/-- A network that an optimization finds nothing to do at. -/
structure AtRest (l : Library) (m : Network) : Prop where
  state : m.state = .optimized
  optimized : m.graph.optimized = true
  stable : (m.engine l).Stable (Sandbox.copy m.graph none)
  spelled : ∀ {k v}, m.graph.node? k = some v → respelled v = v ∧ Legible v
  edges : ∀ {x y}, m.graph.dag.hasArc x y → m.calibration.layouts.contains (EdgeId.arc x y)
  scales : ∀ {id}, m.calibration.scales.contains id → Stays m.graph id
  layouts : ∀ {id}, m.calibration.layouts.contains id → Stays m.graph id
  order : ∃ order, m.graph.order = .ok order ∧ m.order = some order

/-- An optimization that is done leaves the network at rest. -/
lemma atRest_of_done (hc : Coherent ok l n) {ord : RenameOrder} {st : Stats}
    (h : n.optimize l true ord = (m, .done st)) :
    AtRest l m := by
  have ho := optimizes_optimize hc.regular hc.library true ord
  rw [h] at ho
  cases ho with
  | lands hs hd hl =>
    cases hl with
    | @done t layouts g c order he hl hcal hrec hord =>
      have hg := hc.regular hs
      have hone := hc.oneRecord
      have hedited := hd.edited hg hc.library
      have hrun := hd.run
      rw [if_pos rfl] at hrun
      have hstable := Engine.stable_of_loop (Edited.copy hg none).tracks.toRoster hrun
      refine ⟨rfl, rfl, hstable.mirrors (hl.mirrors hone) hedited (Edited.copy hl.regular none), fun {k v} hv => ?_,
        fun {x y} hxy => hl.contains_layouts (fun id hid => hd.known ▸ hid) hrec hxy, hrec.stays_scales,
        hrec.stays_layouts, order, hord, rfl⟩
      have hnode := (hl.mirrors hone).node k
      rw [node?_copy] at hnode
      obtain ⟨w, hw, rfl⟩ := Option.map_eq_some_iff.1 (hnode.symm.trans hv)
      obtain ⟨u, hu, rfl⟩ := Option.map_eq_some_iff.1 hw
      exact ⟨respelled_respelled u.val,
        legible_respelled (hl.normalized.legible u.val (List.mem_map_of_mem (Digraph.mem_of_vertex? hu)))⟩

/-- A sandbox with all pins in the usual spelling and all layouts known is left as it is. -/
lemma normalize_of_spelled {s : Sandbox} {known : Dict Layout} (hpins : ∀ v ∈ s.nodes, respelled v = v ∧ Legible v)
    (hknown : ∀ e ∈ s.edges, known.contains e.id) : s.normalize known = (s, .ok {}) := by
  obtain ⟨t, pinned, hread⟩ := exists_readPins s {} fun v hv => (hpins v hv).2
  obtain rfl := readPins_of_respelled (fun v hv => (hpins v hv).1) hread
  have hnone : (t.edges.filter fun e => !known.contains e.id) = [] := by
    refine List.filter_eq_nil_iff.2 fun e he => ?_
    simp [hknown e he]
  unfold Sandbox.normalize
  rw [hread]
  simp only [hnone, List.foldl_nil]

/-- Committing a copy leaves the graph as it is. -/
lemma commit_copy {g : Graph} (hg : g.Regular) :
    (Sandbox.copy g none).commit g =
      .ok (g, { Sandbox.copy g none with committed := true }, .ofPatch (Sandbox.copy g none).patch) := by
  have h := Edited.copy hg none
  have he := isEmpty_patch_copy hg
  rcases h.commit_cases with ⟨hfit, -⟩ | ⟨-, hd, -⟩ | ⟨-, -, g', hok, ⟨-, rfl⟩ | ⟨hno, -⟩⟩
  · exact absurd h.fits hfit
  · exact absurd hd (h.not_dangles_of_isEmpty he)
  · exact hok
  · exact absurd he hno

/-- Nothing changes when a network at rest is settled with its own graph. -/
lemma AtRest.settle (h : AtRest l m) (ord : RenameOrder) (stats : Stats) :
    m.settle m.graph ord {} {} stats true = .ok { m with stats } := by
  obtain ⟨order, hord, horder⟩ := h.order
  obtain ⟨c, hc, hrec⟩ := recalibrate_ok {} (fun h => by cases h) m.calibration m.graph ord {}
  have hkept : ∀ {α : Type} {d d' : Dict α}, (∀ {id}, d.contains id → Stays m.graph id) →
      (∀ id, d'.get? id = if Stays m.graph id then d.get? id else none) → d' = d := by
    intro α d d' hstays hget
    refine Dict.ext_get? fun id => (hget id).trans ?_
    split
    · rfl
    · rename_i hno
      exact (Dict.get?_eq_none_iff.2 (mt hstays hno)).symm
  have hunmoved : m.calibration.rename ord {} = m.calibration :=
    congrArg m.calibration.renameAll (Calibration.arrange_nil ord)
  have hsame : c = m.calibration := by
    have hscales : c.scales = m.calibration.scales := hkept h.scales fun id => by
      rw [hrec.scales id, hunmoved]
    have hlayouts : c.layouts = m.calibration.layouts := hkept h.layouts fun id => by
      have hempty : ({} : Dict Layout).get? id = none := rfl
      rw [hrec.layouts id, hunmoved, hempty, Option.or_none]
    exact congrArg₂ Calibration.mk hscales hlayouts
  have hgraph : ({ m.graph with optimized := true } : Graph) = m.graph := by
    rw [← h.optimized]
  have hsettled : m.settled m.graph m.calibration order stats true = { m with stats } := by
    unfold settled
    rw [if_pos rfl, if_pos rfl, hgraph, ← horder, ← h.state]
  rw [Network.settle, hc, hord, hsame, ← hsettled]
  rfl

/-- An optimization of a network at rest takes one pass and changes nothing but the statistics. -/
lemma AtRest.optimize (h : AtRest l m) (hc : Coherent ok l m) :
    ∃ rejected, ∀ ord, m.optimize l true ord =
      ({ m with stats := { iterations := 1, rejected } }, .done { iterations := 1, rejected }) := by
  have hs : m.state ≠ .building := by
    rw [h.state]
    decide
  have hg := hc.regular hs
  -- the engine takes one pass over the copy
  obtain ⟨k, hk⟩ := Nat.exists_eq_add_of_le' (Engine.one_le_passes (m.engine l))
  obtain ⟨rejected, hloop⟩ := Engine.loop_of_stable (Edited.copy hg none).tracks.toRoster h.stable k {}
  have hrun : (m.engine l).run (Sandbox.copy m.graph none) =
      ((Sandbox.copy m.graph none, { iterations := 1, rejected }), none) := by
    rw [Engine.run, hk]
    exact hloop
  refine ⟨rejected, fun ord => ?_⟩
  rcases draft_cases hs l true with ⟨s, stats, cause, -, hrun', -⟩ | ⟨d, hok, hd⟩
  · rw [hrun] at hrun'
    cases hrun'
  · have hrun' := hd.run
    rw [if_pos rfl, hrun] at hrun'
    have hsandbox : d.sandbox = Sandbox.copy m.graph none := (congrArg (·.1.1) hrun').symm
    have hstats : d.stats = { iterations := 1, rejected } := (congrArg (·.1.2) hrun').symm
    -- no pin is respelled and no layout assigned
    have hnorm : (Sandbox.copy m.graph none).normalize m.calibration.layouts = (Sandbox.copy m.graph none, .ok {}) := by
      refine normalize_of_spelled (fun v hv => ?_) fun e he => ?_
      · obtain ⟨w, hw, rfl⟩ := (Engine.mem_nodes_iff (Edited.copy hg none)).1 hv
        exact h.spelled ((node?_copy _ _).symm.trans (Option.map_eq_some_iff.2 ⟨w, hw, rfl⟩))
      · obtain ⟨a, ha, rfl⟩ := List.mem_map.1 he
        have ha := (copied_copy hg none).wellFormed.mem_arcsBySource.1 ha
        rw [(Tracks.copy hg none).id_of_mem ha]
        exact h.edges (Digraph.hasArc_of_mem ((copied_copy hg none).arcs a ha))
    have hepoch : ¬ m.epoch ≠ d.epoch := not_not.2 hd.epoch.symm
    rw [Network.optimize, hok]
    dsimp only [land]
    rw [hsandbox, hd.known, hnorm]
    dsimp only
    rw [if_neg hepoch, commit_copy hg]
    have hsettle : m.settle m.graph ord (Changes.ofPatch (Sandbox.copy m.graph none).patch).renamed {} d.stats true =
        .ok { m with stats := d.stats } := h.settle ord d.stats
    dsimp only
    rw [hsettle, hstats]

/-- An optimization right after one that was done takes one pass, fuses and drops nothing, and leaves the network as it
is but for the statistics. -/
theorem optimize_again (h : Reached (fun _ => True) l n) {ord : RenameOrder} {st : Stats}
    (hn : n.optimize l true ord = (m, .done st)) :
    ∃ rejected, ∀ ord', m.optimize l true ord' =
      ({ m with stats := { iterations := 1, fused := 0, dropped := 0, rejected } },
        .done { iterations := 1, fused := 0, dropped := 0, rejected }) := by
  have hc := h.coherent.optimize true ord
  rw [hn] at hc
  exact (atRest_of_done h.coherent hn).optimize hc

/-- The first optimization fuses both chains of `shortcut`, the second one nothing. -/
theorem optimize_again_shortcut : ∃ m rejected,
    (assemble shortcut []).optimize .standard true .ascending = (m, .done { iterations := 2, fused := 2 }) ∧
    m.optimize .standard true .ascending =
      ({ m with stats := { iterations := 1, rejected } }, .done { iterations := 1, rejected }) := by
  have hdone : (assemble shortcut []).optimize .standard true .ascending = (_, .done { iterations := 2, fused := 2 }) :=
    optimize_eq_of_done? (by decide +kernel)
  obtain ⟨rejected, hagain⟩ := optimize_again (reached_shortcut []) hdone
  exact ⟨_, rejected, hdone, hagain .ascending⟩

/-- A chain whose fused operator is read by the next one of a longer chain and by another operator. The edge to the
latter has the same identifier as an edge from `f->x` to `y`. -/
def arrowed : List Node := [
  { name := "p", type := "A", outputs := ["v"] },
  { name := "q", type := "B", inputs := ["v"], outputs := ["u"] },
  { name := "w", type := "W", inputs := ["u"] },
  { name := "x->y", type := "C", inputs := ["u"] },
  { name := "f->x", type := "D", outputs := ["d"] },
  { name := "y", type := "E", inputs := ["d"] }]

/-- Names with arrows can make an edge vanish, so that an optimization fuses what the one before did not. -/
theorem arrowed_optimize_again : ∃ l m m' st st',
    Library.ofList [.chain "f" ["A", "B"], .chain "h" ["f", "W"]] = .ok l ∧ (assemble arrowed []).state = .frozen ∧
    (assemble arrowed []).optimize l true .ascending = (m, .done st) ∧ m.optimize l true .ascending = (m', .done st') ∧
    st.fused = 1 ∧ st'.fused = 1 :=
  ⟨⟨[.chain "f" ["A", "B"], .chain "h" ["f", "W"]]⟩, _, _, { iterations := 2, fused := 1, rejected := 1 },
    { iterations := 2, fused := 1 }, by decide +kernel, by decide +kernel, optimize_eq_of_done? (by decide +kernel),
    optimize_eq_of_done? (by decide +kernel), rfl, rfl⟩

end Network

end OpGraph
