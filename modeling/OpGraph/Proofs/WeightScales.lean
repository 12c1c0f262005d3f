import Mathlib
import OpGraph.Proofs.Sandbox.Frame
import OpGraph.Proofs.Workspace

/-!
# Scales of weights

The scales of weight tensors are recorded beside those of edges, under identifiers of their own. As long as the name of
an operator holds no arrow, the identifiers of its weights are told from those of edges: no edge is ever moved from or
to them, and they are kept whether the operator is still there or not. So the scales stay as they were set until they
are set again. With an arrow in the name they are taken for those of an edge, and the next optimization drops them.
-/

namespace OpGraph

open Sandbox

namespace Network

variable {n m : Network} {id : EdgeId}

/-! ### Settings -/

/-- Setting the scale of a variable does not touch those of weights. -/
lemma weights_scaleVar (hid : id.isSynthetic) {g : Graph} {c c' : Calibration} {var : String} {scale : Float32}
    (h : scaleVar g c var scale = .ok c') : c'.scales.get? id = c.scales.get? id := by
  rcases scales_scaleVar h id with ⟨e, -, -, rfl, -⟩ | ⟨-, hget⟩
  · exact absurd hid (EdgeId.not_isSynthetic_arc e.src e.dst)
  · exact hget

/-- Setting a scale records it under its key. -/
lemma scales_setScale {c c' : Calibration} {key : EdgeId} {scales : List Float32} {bias : Bool}
    (h : c.setScale key scales bias = .ok c') : c'.scales = c.scales.insert key ⟨scales, bias⟩ := by
  rw [Calibration.setScale_ok h]

/-- No setting but that of the same weights touches the scales of weights. -/
lemma scales_set (hid : id.isSynthetic) {c : Setting} (h : n.set c = .ok m)
    (hc : ∀ op scales bias, c = .weightsScale op scales bias → id ≠ .weights op bias) :
    m.calibration.scales.get? id = n.calibration.scales.get? id := by
  cases sets_set h with
  | attr => rfl
  | precision => rfl
  | layout _ hs => rw [Calibration.setLayout_ok hs]
  | pending => rfl
  | varScale hs => exact weights_scaleVar hid hs
  | weightsScale _ hs =>
    rw [scales_setScale hs, Dict.get?_insert, if_neg (hc _ _ _ rfl)]

/-- The scales of variables that wait until a network is frozen are those of edges. -/
lemma scales_resolve (hid : id.isSynthetic) {g : Graph} {order : List String} {c : Calibration}
    (h : n.resolve = .ok (g, order, c)) : c.scales.get? id = n.calibration.scales.get? id := by
  obtain ⟨added, joined, listed, h⟩ := resolve_ok_iff.1 h
  apply foldlM_ok_induct (P := fun c => c.scales.get? id = n.calibration.scales.get? id) _ rfl h.scales
  intro c x c' _ hc hx
  exact (weights_scaleVar hid hx).trans hc

/-- Only a setting changes what is recorded, or a network that is frozen: then the scales of variables are recorded. -/
lemma calibration_request {q : Request} (h : n.request q = .ok m) :
    m.calibration = n.calibration ∨ (∃ setting, q = .set setting ∧ n.set setting = .ok m) ∨
      ∃ g order, n.resolve = .ok (g, order, m.calibration) := by
  cases q with
  | addOp name type inputs outputs =>
    obtain ⟨-, graph, -, rfl⟩ := addOp_ok h
    exact .inl rfl
  | declareVar var =>
    obtain ⟨-, -, rfl⟩ := declareVar_ok h
    exact .inl rfl
  | declareOut src dst =>
    have h := failing_ok h
    split_ifs at h
    · cases h
    · cases h
      exact .inl rfl
  | declareAllOuts =>
    have h := failing_ok h
    split_ifs at h
    · cases h
    · cases h
      exact .inl rfl
  | set setting => exact .inr (.inl ⟨setting, rfl, h⟩)
  | freeze =>
    obtain ⟨-, graph, order, calibration, hres, rfl⟩ := freeze_eq h
    exact .inr (.inr ⟨graph, order, hres⟩)

/-- No request but one that sets them changes the scales of weights. -/
lemma scales_request (hid : id.isSynthetic) {q : Request} (h : n.request q = .ok m)
    (hq : ∀ op scales bias, q = .set (.weightsScale op scales bias) → id ≠ .weights op bias) :
    m.calibration.scales.get? id = n.calibration.scales.get? id := by
  rcases calibration_request h with hsame | ⟨setting, rfl, hset⟩ | ⟨g, order, hres⟩
  · rw [hsame]
  · exact scales_set hid hset fun op scales bias hc => hq op scales bias (congrArg Request.set hc)
  · exact scales_resolve hid hres

/-! ### Optimizations -/

/-- A draft moves edges to edges. -/
lemma Drafted.unmoved {l : Library} {fusion : Bool} {d : Draft} (hd : Drafted n l fusion d) (wf : n.graph.WellFormed)
    (hg : n.graph.Sound) (hid : id.isSynthetic) {b b' : EdgeId}
    (hb : (d.sandbox.normalize d.known).1.renamed.get? b = some b') : b ≠ id ∧ b' ≠ id := by
  let inside : String → Prop := fun _ => False
  have hk : Fenced n.graph (Sandbox.copy n.graph none) inside := fun k hout => hout.elim
  obtain ⟨trace, hruns, -⟩ := hd.runs
  have hrun : Roster n.graph (Sandbox.copy n.graph none) d.sandbox ∧ Confined inside d.sandbox := by
    apply hruns.induct (P := fun s => Roster n.graph (Sandbox.copy n.graph none) s ∧ Confined inside s)
    · exact ⟨.copy wf hg none, .copy wf hg hk⟩
    · intro s ed t hs hstep
      exact ⟨hs.1.edit hstep.edit_ok, hs.2.edit hs.1 hk hstep.edit_ok⟩
  have hnorm : Roster n.graph (Sandbox.copy n.graph none) (d.sandbox.normalize d.known).1 ∧
      Confined inside (d.sandbox.normalize d.known).1 := by
    apply normalize_induct (P := fun s => Roster n.graph (Sandbox.copy n.graph none) s ∧ Confined inside s) _ hrun
    intro s v _ old text t _ hs ht
    exact ⟨hs.1.updateNode ht, hs.2.updateNode hs.1 hk ht⟩
  obtain ⟨⟨x, y, rfl, -⟩, ⟨x', y', rfl, -⟩⟩ := hnorm.2.renamed hb
  exact ⟨fun he => EdgeId.not_isSynthetic_arc x y (he ▸ hid), fun he => EdgeId.not_isSynthetic_arc x' y' (he ▸ hid)⟩

/-- Landing a draft leaves what is recorded as it is, or it is worked out anew for the edges that the draft moved. -/
lemma calibration_land (n : Network) (d : Draft) (fusion : Bool) (ord : RenameOrder) :
    (n.land d fusion ord).1.calibration = n.calibration ∨
      ∃ t layouts g, d.sandbox.normalize d.known = (t, .ok layouts) ∧
        Recalibrated n.calibration g ord t.renamed layouts (n.land d fusion ord).1.calibration := by
  unfold land
  split
  · exact .inl rfl
  · rename_i t layouts hnorm
    split
    · exact .inl rfl
    · split
      · exact .inl rfl
      · rename_i g t' changes hcommit
        split
        · rename_i m hsettle
          obtain ⟨c, hrec, hsettle⟩ := bind_eq_ok.1 hsettle
          obtain ⟨c', hok, hc⟩ := recalibrate_ok layouts (valid_normalize hnorm) n.calibration g ord changes.renamed
          obtain rfl : c' = c := Except.ok.inj (hok.symm.trans hrec)
          have hchanges : changes.renamed = t.renamed := by
            rw [(commit_ok hcommit).2]
            rfl
          refine .inr ⟨t, layouts, g, hnorm, ?_⟩
          rw [hchanges] at hc
          split at hsettle
          · cases hsettle
          · cases hsettle
            exact hc
        · exact .inl rfl

/-- Landing a draft does not touch the scales of weights, whatever was done since it was made. -/
lemma scales_land (hid : id.isSynthetic) {k : Network} {l : Library} {fusion : Bool} {ord : RenameOrder} {d : Draft}
    (hd : Drafted k l fusion d) (wf : k.graph.WellFormed) (hg : k.graph.Sound) :
    (n.land d fusion ord).1.calibration.scales.get? id = n.calibration.scales.get? id := by
  rcases n.calibration_land d fusion ord with hsame | ⟨t, layouts, g, hnorm, hrec⟩
  · rw [hsame]
  · exact hrec.scales_unmoved (.inl hid) fun hb => hd.unmoved wf hg hid (by rwa [hnorm])

end Network

namespace Workspace

open Network (Current Advances)

variable {r : NetworkRef}

/-- What calls in between and landing a draft preserve is preserved by attempts to optimize. -/
lemma optimizeWith_induct {P : Network → Prop} {fusion : Bool} {ord : RenameOrder} {α : Type}
    {interlude : Nat → Workspace → Workspace × List α}
    (hi : ∀ i u n, u.network? r = some n → P n → ∃ m, (interlude i u).1.network? r = some m ∧ P m ∧ Advances n m)
    (hland : ∀ n m l d, P n → P m → Advances n m → n.draft l fusion = .ok d → P (m.land d fusion ord).1) (left i : Nat)
    {w : Workspace} {n : Network} (hn : w.network? r = some n) (hp : P n) :
    ∃ m, (optimizeWith r fusion ord interlude left i w).1.network? r = some m ∧ P m ∧ Advances n m := by
  induction left generalizing i w n with
  | zero => exact ⟨n, hn, hp, .refl n⟩
  | succ left ih =>
    unfold optimizeWith
    rw [hn]
    dsimp only
    split
    · exact ⟨n, hn, hp, .refl n⟩
    · rename_i d hdraft
      obtain ⟨m, hm, hpm, ha⟩ := hi i w n hn hp
      generalize interlude i w = u at hm
      obtain ⟨u, reports⟩ := u
      dsimp only at hm ⊢
      rw [hm]
      have hset := network?_setNetwork hm (m.land d fusion ord).1
      have hpl := hland n m _ d hp hpm ha hdraft
      have hal := ha.trans (Advances.land m d fusion ord)
      dsimp only
      split
      · rename_i k st hk
        rw [hk] at hset hpl hal
        split
        · exact ⟨k, hset, hpl, hal⟩
        · obtain ⟨k', hk', hpk, hak⟩ := ih (i + 1) hset hpl
          exact ⟨k', hk', hpk, hal.trans hak⟩
      · rename_i k outcome _ hk
        rw [hk] at hset hpl hal
        exact ⟨k, hset, hpl, hal⟩

/-- Calls lead from a workspace to another one, none of which cleans the network at `r`, copies another one over it or
sets the scales of the given weights. Calls on other networks, libraries and blocks may do anything. -/
inductive Spares (r : NetworkRef) (op : String) (bias : Bool) : Workspace → Workspace → Prop where
  | refl (w : Workspace) : Spares r op bias w w
  | request {w v v' : Workspace} (h : Spares r op bias w v) {q : Network.Request}
      (hq : ∀ scales, q ≠ .set (.weightsScale op scales bias)) (he : v.onNetwork r (·.request q) = .ok v') :
      Spares r op bias w v'
  | aside {w v v' : Workspace} (h : Spares r op bias w v) {n : Network} {blocks : List BlockRef} {cap : Int}
      {elide : Option (List String)} (hn : v.network? r = some n)
      (hn' : v'.network? r = some { n with blocks, cap, elide }) : Spares r op bias w v'
  | optimize {w v : Workspace} (h : Spares r op bias w v) (fusion : Bool) (ord : RenameOrder) {α : Type}
      {interlude : Nat → Workspace → Workspace × List α} (hi : ∀ i u, Spares r op bias u (interlude i u).1) :
      Spares r op bias w (v.optimize r fusion ord interlude).1

/-- The network is current and has a scale recorded. -/
def Records (id : EdgeId) (scale : Scale) (n : Network) : Prop :=
  Current n ∧ n.calibration.scales.get? id = some scale

/-- A draft lands only on a network that is not being built, and it does not touch the scales of weights. -/
lemma Records.land {id : EdgeId} (hid : id.isSynthetic) {scale : Scale} {n m : Network} {l : Library}
    {d : Network.Draft}
    {fusion : Bool} {ord : RenameOrder} (hn : Records id scale n) (hm : Records id scale m) (ha : Advances n m)
    (hdraft : n.draft l fusion = .ok d) : Records id scale (m.land d fusion ord).1 := by
  obtain ⟨hs, hd⟩ := Network.draft_ok hdraft
  refine ⟨hm.1.land (ha.not_building hdraft) fusion ord, ?_⟩
  rw [Network.scales_land hid hd hn.1.wellFormed (hn.1.sound hs)]
  exact hm.2

/-- Calls that spare the scales of weights leave them recorded. -/
lemma Spares.records {op : String} {bias : Bool} {w w' : Workspace} (h : Spares r op bias w w') (haf : ArrowFree op)
    {scale : Scale} {n : Network} (hn : w.network? r = some n) (hp : Records (.weights op bias) scale n) :
    ∃ m, w'.network? r = some m ∧ Records (.weights op bias) scale m ∧ Advances n m := by
  have hid := (EdgeId.isSynthetic_weights_iff bias).2 haf
  induction h generalizing n with
  | refl w => exact ⟨n, hn, hp, .refl n⟩
  | request _ hq he ih =>
    obtain ⟨m, hm, ⟨hc, hscale⟩, ha⟩ := ih hn hp
    obtain ⟨k, hk, rfl⟩ := onNetwork_ok hm he
    have hanswers := Network.answers_request hk
    refine ⟨k, network?_setNetwork hm k, ⟨hc.answers hanswers, ?_⟩, ha.trans (.answers hanswers)⟩
    rw [← hscale]
    apply Network.scales_request hid hk
    intro op' scales bias' hqe he
    obtain ⟨rfl, rfl⟩ := EdgeId.weights_inj.1 he
    exact hq scales hqe
  | aside _ hv hv' ih =>
    obtain ⟨m, hm, ⟨hc, hscale⟩, ha⟩ := ih hn hp
    obtain rfl := Option.some.inj (hm.symm.trans hv)
    exact ⟨_, hv', ⟨{ hc with }, hscale⟩, ha.trans (.of_eq rfl rfl (.refl _))⟩
  | optimize _ _ _ _ ih ihi =>
    obtain ⟨m, hm, hpm, ha⟩ := ih hn hp
    obtain ⟨k, hk, hpk, hak⟩ := optimizeWith_induct (fun i u _ hn hp => ihi i u hn hp)
      (fun _ _ _ _ => Records.land hid) attempts 0 hm hpm
    exact ⟨k, hk, hpk, ha.trans hak⟩

/-- The scales of weights stay as they were set, whatever is called next, until the network is cleaned, another one is
copied over it or they are set again, provided the name of the operator holds no arrow. -/
theorem weightsScale_persists {w : Workspace} (h : Becomes {} w) {n : Network} (hn : w.network? r = some n)
    {op : String} (haf : ArrowFree op) {scales : List Float32} {bias : Bool} {w₁ : Workspace}
    (hset : w.onNetwork r (·.setWeightsScale op scales bias) = .ok w₁) {w₂ : Workspace}
    (hspares : Spares r op bias w₁ w₂) :
    ∃ m, w₂.network? r = some m ∧ m.calibration.scales.get? (EdgeId.weights op bias) = some ⟨scales, bias⟩ := by
  obtain ⟨m, hm, rfl⟩ := onNetwork_ok hn hset
  have hrequest : n.request (.set (.weightsScale op scales bias)) = .ok m := hm
  have hsets : n.Sets (.weightsScale op scales bias) m := Network.sets_set hm
  have hc : Current m := (h.current hn).answers (Network.answers_request hrequest)
  have hscale : m.calibration.scales.get? (EdgeId.weights op bias) = some ⟨scales, bias⟩ := by
    cases hsets with
    | weightsScale _ hs => rw [Network.scales_setScale hs, Dict.get?_insert, if_pos rfl]
  obtain ⟨k, hk, hrec, -⟩ := hspares.records haf (network?_setNetwork hn m) ⟨hc, hscale⟩
  exact ⟨k, hk, hrec.2⟩

/-! ### Two operators -/

/-- Requests that do not set the scales of weights spare them. -/
lemma Spares.asked {op : String} {bias : Bool} {w v : Workspace} (h : Spares r op bias w v) {qs : List Network.Request}
    (hqs : ∀ q ∈ qs, ∀ scales, q ≠ .set (.weightsScale op scales bias)) : Spares r op bias w (v.asked r qs) := by
  induction qs generalizing v with
  | nil => exact h
  | cons q qs ih =>
    rw [List.forall_mem_cons] at hqs
    apply ih _ hqs.2
    dsimp only
    cases he : v.onNetwork r (·.request q) with
    | error e => exact h
    | ok v' => exact h.request hqs.1 he

/-- A network of a convolution of a given name and an operator that reads what it writes. -/
def paired (op reader : String) : Workspace :=
  ((newNetwork {} "net" none).1).asked 0 [.addOp op "conv" [] ["x"], .addOp "r" reader ["x"] ["y"]]

lemma becomes_paired (op reader : String) : Becomes {} (paired op reader) :=
  ((Becomes.refl {}).newNetwork "net" none).asked 0 _

/-- Freezes and optimizes a network. -/
def finished (w : Workspace) (fusion : Bool) : Workspace :=
  ((w.asked 0 [.freeze]).optimize 0 fusion .ascending quiet).1

lemma spares_finished (op : String) (bias : Bool) (w : Workspace) (fusion : Bool) :
    Spares 0 op bias w (w.finished fusion) := by
  apply Spares.optimize _ fusion .ascending fun _ u => .refl u
  apply (Spares.refl w).asked
  intro q hq scales he
  rw [List.mem_singleton.1 hq] at he
  cases he

/-- The convolution is fused with the operator behind it, and the scales of its bias are still there. -/
theorem weightsScale_persists_fused : ∃ w₁ m,
    (paired "c" "relu").onNetwork 0 (·.setWeightsScale "c" [1, 2] true) = .ok w₁ ∧
    (w₁.finished true).network? 0 = some m ∧ m.calibration.scales.get? (EdgeId.weights "c" true) = some ⟨[1, 2], true⟩ ∧
    m.graph.names = ["fused_cr"] := by
  obtain ⟨n, hn⟩ : ∃ n, (paired "c" "relu").network? 0 = some n := ⟨_, rfl⟩
  have hrun : ((paired "c" "relu").onNetwork 0 (·.setWeightsScale "c" [1, 2] true)).toOption.any fun w =>
      ((w.finished true).network? 0).any fun m => m.graph.names = ["fused_cr"] := by decide +kernel
  obtain ⟨w₁, hset, hrun⟩ := (Option.any_eq_true _ _).1 hrun
  obtain ⟨m, hm, hnames⟩ := (Option.any_eq_true _ _).1 hrun
  have hset := eq_ok_of_toOption hset
  obtain ⟨m', hm', hscale⟩ :=
    weightsScale_persists (becomes_paired "c" "relu") hn (by decide) hset (spares_finished "c" true w₁ true)
  obtain rfl : m' = m := Option.some.inj (hm'.symm.trans hm)
  exact ⟨w₁, m', hset, hm', hscale, of_decide_eq_true hnames⟩

/-- The scales of the weights of an operator with an arrow in its name are gone after the next optimization. -/
theorem arrowed_weightsScale_lost : ∃ w₁ m, Becomes {} (paired "a->b" "softmax") ∧
    (paired "a->b" "softmax").onNetwork 0 (·.setWeightsScale "a->b" [1] false) = .ok w₁ ∧
    Spares 0 "a->b" false w₁ (w₁.finished false) ∧ (w₁.finished false).network? 0 = some m ∧ m.graph.hasNode "a->b" ∧
    m.calibration.scales.get? (EdgeId.weights "a->b" false) = none := by
  have hrun : ((paired "a->b" "softmax").onNetwork 0 (·.setWeightsScale "a->b" [1] false)).toOption.any fun w =>
      ((w.finished false).network? 0).any fun m => m.graph.hasNode "a->b" ∧
        (m.calibration.scales.get? (EdgeId.weights "a->b" false)).isNone := by decide +kernel
  obtain ⟨w₁, hset, hrun⟩ := (Option.any_eq_true _ _).1 hrun
  obtain ⟨m, hm, hlost⟩ := (Option.any_eq_true _ _).1 hrun
  obtain ⟨hnode, hnone⟩ := of_decide_eq_true hlost
  exact ⟨w₁, m, becomes_paired "a->b" "softmax", eq_ok_of_toOption hset,
    spares_finished "a->b" false w₁ false, hm, hnode,
    Option.isNone_iff_eq_none.1 hnone⟩

end Workspace

end OpGraph
