import Mathlib
import OpGraph.Proofs.Network.Interludes
import OpGraph.Proofs.Network.Settling

/-!
# Workspaces that can be reached

`Becomes w w'` says that calls lead from the workspace `w` to `w'`: calls on any of its networks, one after the other or
in the middle of an optimization. However a workspace was reached, the order of a network that is no longer built is an
order of its graph as it is now, and an optimization that fails leaves the workspace as it was.
-/

namespace OpGraph.Workspace

open Network (Current Advances)

/-! ### Calls -/

/-- Calls lead from a workspace to another one. A call that fails leads nowhere, unless what it did before stays. -/
inductive Becomes : Workspace → Workspace → Prop where
  | refl (w : Workspace) : Becomes w w
  | addLibrary {w v : Workspace} (h : Becomes w v) (l : Library) : Becomes w (v.addLibrary l).1
  | registerPattern {w v v' : Workspace} (h : Becomes w v) {l : LibraryRef} {p : Pattern}
      (he : v.registerPattern l p = .ok v') : Becomes w v'
  | registerNetworkPattern {w v v' : Workspace} (h : Becomes w v) {r : NetworkRef} {p : Pattern}
      (he : v.registerNetworkPattern r p = .ok v') : Becomes w v'
  | stock {w v : Workspace} (h : Becomes w v) (depot : Depot) : Becomes w { v with depot }
  | newNetwork {w v : Workspace} (h : Becomes w v) (name : String) (library : Option LibraryRef) :
      Becomes w (v.newNetwork name library).1
  | tune {w v : Workspace} (h : Becomes w v) {r : NetworkRef} {n : Network} (hn : v.network? r = some n) (cap : Int)
      (elide : Option (List String)) : Becomes w (v.setNetwork r { n with cap, elide })
  | request {w v v' : Workspace} (h : Becomes w v) {r : NetworkRef} {q : Network.Request}
      (he : v.onNetwork r (·.request q) = .ok v') : Becomes w v'
  | registerBlock {w v v' : Workspace} (h : Becomes w v) {r : NetworkRef} {block : Option BlockRef}
      (he : v.registerBlock r block = .ok v') : Becomes w v'
  | copyFrom {w v : Workspace} (h : Becomes w v) (r : NetworkRef) (source : Option NetworkRef) :
      Becomes w (v.copyFrom r source).1
  | clean {w v : Workspace} (h : Becomes w v) (r : NetworkRef) : Becomes w (v.clean r).1
  | optimize {w v : Workspace} (h : Becomes w v) (r : NetworkRef) (fusion : Bool) (ord : RenameOrder) {α : Type}
      {interlude : Nat → Workspace → Workspace × List α} (hi : ∀ i u, Becomes u (interlude i u).1) :
      Becomes w (v.optimize r fusion ord interlude).1

/-! ### What calls maintain -/

/-- Registering a pattern with a library leaves the networks as they are. -/
lemma networks_registerPattern {w w' : Workspace} {l : LibraryRef} {p : Pattern} (h : w.registerPattern l p = .ok w') :
    w'.networks = w.networks := by
  obtain ⟨l', -, h⟩ := bind_eq_ok.1 h
  cases h
  rfl

/-- Registering a pattern with the library of a network leaves the networks as they are. -/
lemma networks_registerNetworkPattern {w w' : Workspace} {r : NetworkRef} {p : Pattern}
    (h : w.registerNetworkPattern r p = .ok w') : w'.networks = w.networks := by
  unfold registerNetworkPattern at h
  split at h
  · cases h
    rfl
  · split at h
    · rename_i hp
      cases h
      exact networks_registerPattern hp
    · cases h

/-- A property of networks that no call takes away. -/
structure Durable (P : Network → Prop) : Prop where
  new : ∀ name library, P (Network.new name library)
  /-- Settings, weights and the library do not matter, nor does the epoch. -/
  refit : ∀ {n : Network} (epoch : Nat) (cap : Int) (elide : Option (List String)) (blocks : List BlockRef)
    (library : LibraryRef), P n → P { n with epoch, cap, elide, blocks, library }
  request : ∀ {n m : Network} {q : Network.Request}, P n → n.request q = .ok m → P m
  /-- A draft is made of a network with the property, and lands on a later state of it that has it. -/
  land : ∀ {k n : Network} {l : Library} {fusion : Bool} {ord : RenameOrder} {d : Network.Draft}, P k →
    k.draft l fusion = .ok d → P n → Advances k n → P (n.land d fusion ord).1

/-- All networks have a property. -/
def All (P : Network → Prop) (w : Workspace) : Prop :=
  ∀ {r n}, w.network? r = some n → P n

/-- What calls maintain: networks have a property, and each of them advances. -/
structure Maintains (P : Network → Prop) (w w' : Workspace) : Prop where
  all : w'.All P
  advances : ∀ {r n}, w.network? r = some n → ∃ m, w'.network? r = some m ∧ Advances n m

namespace Maintains

variable {P : Network → Prop} {w w' w'' : Workspace} {r : NetworkRef} {n m : Network}

lemma refl (hw : w.All P) : Maintains P w w :=
  ⟨hw, fun hn => ⟨_, hn, .refl _⟩⟩

lemma trans (h : Maintains P w w') (h' : w'.All P → Maintains P w' w'') : Maintains P w w'' where
  all := (h' h.all).all
  advances := by
    intro r n hn
    obtain ⟨m, hm, ha⟩ := h.advances hn
    obtain ⟨k, hk, ha'⟩ := (h' h.all).advances hm
    exact ⟨k, hk, ha.trans ha'⟩

/-- Libraries and weights do not matter. -/
lemma of_networks (h : w'.networks = w.networks) (hw : w.All P) : Maintains P w w' := by
  have hsame : ∀ r, w'.network? r = w.network? r := fun r => by rw [network?, network?, h]
  refine ⟨fun {r n} hn => hw (hsame r ▸ hn), fun {r n} hn => ⟨n, ?_, .refl n⟩⟩
  rw [hsame, hn]

/-- A network is added. -/
lemma append (h : w'.networks = w.networks ++ [m]) (hm : P m) (hw : w.All P) : Maintains P w w' := by
  constructor
  · intro r n hn
    rw [network?, h, List.getElem?_append] at hn
    split at hn
    · exact hw hn
    · rw [List.getElem?_singleton, Option.ite_none_right_eq_some] at hn
      obtain rfl : m = n := Option.some.inj hn.2
      exact hm
  · intro r n hn
    refine ⟨n, ?_, .refl n⟩
    rw [network?, h, List.getElem?_append_left (List.getElem?_eq_some_iff.1 hn).1]
    exact hn

/-- A network is replaced. -/
lemma set (hn : w.network? r = some n) (h : w'.networks = w.networks.set r m) (hm : P m) (ha : Advances n m)
    (hw : w.All P) : Maintains P w w' := by
  have hget : ∀ q, w'.network? q = if r = q then some m else w.network? q := by
    intro q
    have hr : r < w.networks.length := (List.getElem?_eq_some_iff.1 hn).1
    rw [network?, h, List.getElem?_set, if_pos hr]
    rfl
  constructor
  · intro q k hk
    rw [hget] at hk
    split at hk
    · cases hk
      exact hm
    · exact hw hk
  · intro q k hk
    rw [hget]
    by_cases hq : r = q
    · subst hq
      obtain rfl : n = k := Option.some.inj (hn.symm.trans hk)
      exact ⟨m, if_pos rfl, ha⟩
    · exact ⟨k, (if_neg hq).trans hk, .refl k⟩

/-- A request maintains a durable property. -/
lemma request (hP : Durable P) {q : Network.Request} (he : w.onNetwork r (·.request q) = .ok w') (hw : w.All P) :
    Maintains P w w' := by
  unfold onNetwork at he
  split at he
  · cases he
    exact .refl hw
  · rename_i n hn
    obtain ⟨m, hm, he⟩ := bind_eq_ok.1 he
    cases he
    exact .set hn rfl (hP.request (hw hn) hm) (.answers (Network.answers_request hm)) hw

/-- Registering a block maintains a durable property. -/
lemma registerBlock (hP : Durable P) {block : Option BlockRef} (he : w.registerBlock r block = .ok w') (hw : w.All P) :
    Maintains P w w' := by
  rcases registerBlock_ok he with ⟨-, rfl⟩ | ⟨n, c, b, -, hn, -, -, rfl⟩
  · exact .refl hw
  · exact .set hn rfl (hP.refit n.epoch n.cap n.elide _ n.library (hw hn)) (.of_eq rfl rfl (.refl _)) hw

/-- A new network maintains a durable property. -/
lemma newNetwork (hP : Durable P) (name : String) (library : Option LibraryRef) (hw : w.All P) :
    Maintains P w (w.newNetwork name library).1 := by
  cases library with
  | some l => exact .append rfl (hP.new name l) hw
  | none => exact .append rfl (hP.new name _) hw

/-- A copy has what the network has that it was made from. -/
lemma copyFrom (hP : Durable P) (r : NetworkRef) (source : Option NetworkRef) (hw : w.All P) :
    Maintains P w (w.copyFrom r source).1 := by
  unfold Workspace.copyFrom
  split
  · exact .refl hw
  · split
    · exact .refl hw
    · split
      · rename_i n other hn hother
        dsimp only
        split
        · exact .of_networks rfl hw
        · exact .set hn rfl (hP.refit _ other.cap other.elide other.blocks _ (hw hother)) (.succ rfl) hw
      · exact .refl hw

/-- Cleaning a network maintains a durable property. -/
lemma clean (hP : Durable P) (r : NetworkRef) (hw : w.All P) : Maintains P w (w.clean r).1 := by
  unfold Workspace.clean
  split
  · exact .refl hw
  · rename_i n hn
    split
    · exact .of_networks rfl hw
    · exact .set hn rfl (hP.refit _ n.cap n.elide [] n.library (hP.new n.graph.name n.library)) (.succ rfl) hw

/-- Whatever is called in between, a draft lands on a later state of the network it was made of. -/
lemma optimizeWith (hP : Durable P) {α : Type} {interlude : Nat → Workspace → Workspace × List α} (fusion : Bool)
    (ord : RenameOrder) (hi : ∀ i u, u.All P → Maintains P u (interlude i u).1) (left i : Nat) (hw : w.All P) :
    Maintains P w (Workspace.optimizeWith r fusion ord interlude left i w).1 := by
  induction left generalizing i w with
  | zero => exact .refl hw
  | succ left ih =>
    unfold Workspace.optimizeWith
    split
    · exact .refl hw
    · rename_i n hn
      split
      · exact .refl hw
      · rename_i d hdraft
        have hmid := hi i w hw
        obtain ⟨m, hm, ha⟩ := hmid.advances hn
        generalize interlude i w = p at hm hmid
        obtain ⟨u, reports⟩ := p
        have hset : u.All P → Maintains P u (u.setNetwork r (m.land d fusion ord).1) :=
          fun hu => .set hm rfl (hP.land (hw hn) hdraft (hu hm) ha) (.land m d fusion ord) hu
        apply hmid.trans
        dsimp only at hm ⊢
        rw [hm]
        dsimp only
        split
        · rename_i k st hk
          rw [hk] at hset
          split
          · exact hset
          · exact fun hu => (hset hu).trans (ih (i + 1))
        · rename_i k outcome _ hk
          rw [hk] at hset
          exact hset

end Maintains

/-- All calls maintain what there is. -/
lemma Becomes.maintains {P : Network → Prop} (hP : Durable P) {w w' : Workspace} (h : Becomes w w') (hw : w.All P) :
    Maintains P w w' := by
  induction h with
  | refl w => exact .refl hw
  | addLibrary _ l ih => exact (ih hw).trans (.of_networks rfl)
  | registerPattern _ he ih => exact (ih hw).trans (.of_networks (networks_registerPattern he))
  | registerNetworkPattern _ he ih => exact (ih hw).trans (.of_networks (networks_registerNetworkPattern he))
  | stock _ depot ih => exact (ih hw).trans (.of_networks rfl)
  | newNetwork _ name library ih => exact (ih hw).trans (.newNetwork hP name library)
  | @tune w v _ r n hn cap elide ih =>
    exact (ih hw).trans fun hv =>
      .set hn rfl (hP.refit n.epoch cap elide n.blocks n.library (hv hn)) (.of_eq rfl rfl (.refl _)) hv
  | request _ he ih => exact (ih hw).trans (.request hP he)
  | registerBlock _ he ih => exact (ih hw).trans (.registerBlock hP he)
  | copyFrom _ r source ih => exact (ih hw).trans (.copyFrom hP r source)
  | clean _ r ih => exact (ih hw).trans (.clean hP r)
  | optimize _ r fusion ord _ ih ihi =>
    exact (ih hw).trans (.optimizeWith hP fusion ord (fun i u hu => ihi i u hu) attempts 0)

/-- What no call takes away, the networks of a workspace that was reached have. -/
lemma Becomes.all {P : Network → Prop} (hP : Durable P) {w : Workspace} (h : Becomes {} w) : w.All P :=
  (h.maintains hP fun hn => by cases hn).all

lemma durable_current : Durable Current where
  new := .new
  refit := fun _ _ _ _ _ h => { h with }
  request := fun h hm => h.answers (Network.answers_request hm)
  land := fun {_ _ _ fusion ord _} _ hd h ha => h.land (ha.not_building hd) fusion ord

/-- The networks of a workspace that was reached are current. -/
lemma Becomes.current {w : Workspace} (h : Becomes {} w) {r : NetworkRef} {n : Network} (hn : w.network? r = some n) :
    Current n :=
  h.all durable_current hn

/-! ### The order of a network -/

/-- In a workspace that was reached, the nodes of a network that is no longer built are listed once each, in the order
of its graph as it is now: the producer of an edge comes before its consumer. The graph keeps the rules. -/
theorem nodesInOrder_valid {w : Workspace} (h : Becomes {} w) {r : NetworkRef} {n : Network}
    (hn : w.network? r = some n) (hs : n.state ≠ .building) :
    n.nodesInOrder.Nodup ∧ (∀ name, name ∈ n.nodesInOrder ↔ n.graph.hasNode name) ∧
      (∀ src dst, n.graph.dag.hasArc src dst → n.nodesInOrder.idxOf src < n.nodesInOrder.idxOf dst) ∧
      n.graph.order = .ok n.nodesInOrder ∧ n.graph.verify = .ok () := by
  have hc := h.current hn
  have wf := hc.wellFormed
  have hsound := hc.sound hs
  obtain ⟨order, hsome, horder⟩ := hc.order hs
  have hlist : n.nodesInOrder = order := by rw [Network.nodesInOrder, hsome, Option.getD_some]
  rw [hlist]
  obtain ⟨order', ho, hperm⟩ := wf.dag.exists_order hsound.acyclic
  obtain rfl : order = order' := Except.ok.inj (horder.symm.trans ho)
  refine ⟨hperm.nodup_iff.2 wf.dag.keys_nodup, fun name => ?_, fun src dst harc => ?_, horder,
    wf.verify_ok_iff.2 hsound⟩
  · rw [hperm.mem_iff, Graph.hasNode, Digraph.hasVertex_iff]
  · exact wf.dag.idxOf_lt_of_order horder harc

/-- The workspace after requests to a network; those that fail are left out. -/
def asked (w : Workspace) (r : NetworkRef) (qs : List Network.Request) : Workspace :=
  qs.foldl (fun w q => (w.onNetwork r (·.request q)).toOption.getD w) w

/-- Requests on a network, whether they succeed or not, are calls. -/
lemma Becomes.asked {w v : Workspace} (h : Becomes w v) (r : NetworkRef) (qs : List Network.Request) :
    Becomes w (v.asked r qs) := by
  induction qs generalizing v with
  | nil => exact h
  | cons q qs ih =>
    apply ih
    dsimp only
    cases he : v.onNetwork r (·.request q) with
    | error e => exact h
    | ok v' => exact h.request he

/-- The workspace of a network of given operators and outputs, frozen if it can be. -/
def built (ops : List Node) (outs : List (String × String)) : Workspace :=
  ((newNetwork {} "net" none).1).asked 0
    (ops.map (fun v => .addOp v.name v.type v.inputs v.outputs) ++
      outs.map (fun out => .declareOut out.1 out.2) ++ [.freeze])

lemma becomes_built (ops : List Node) (outs : List (String × String)) : Becomes {} (built ops outs) :=
  ((Becomes.refl {}).newNetwork "net" none).asked 0 _

/-- The network of `shortcut` is optimized and then copied over another one. -/
def copied : Workspace :=
  (((((built Network.shortcut []).newNetwork "copy" none).1.optimize 0 true .ascending quiet).1).copyFrom 1 (some 0)).1

/-- The copy is optimized, and its order is that of its graph. -/
theorem nodesInOrder_valid_copied : ∃ n, Becomes {} copied ∧ copied.network? 1 = some n ∧ n.state = .optimized ∧
    n.nodesInOrder.length = 3 ∧ n.graph.order = .ok n.nodesInOrder ∧ n.graph.verify = .ok () := by
  have hw : Becomes {} copied :=
    (((becomes_built Network.shortcut []).newNetwork "copy" none).optimize 0 true .ascending fun _ u => .refl
    u).copyFrom 1 (some 0)
  have hrun : (copied.network? 1).any fun n => n.state = .optimized ∧ n.nodesInOrder.length = 3 := by decide +kernel
  obtain ⟨n, hn, hp⟩ := (Option.any_eq_true _ _).1 hrun
  obtain ⟨hs, hlen⟩ := of_decide_eq_true hp
  have hvalid := nodesInOrder_valid hw hn (by rw [hs]; decide)
  exact ⟨n, hw, hn, hs, hlen, hvalid.2.2.2⟩

/-! ### Optimizations that fail -/

/-- An optimization that nobody disturbs is one of the network alone. -/
lemma optimize_quiet {w : Workspace} {r : NetworkRef} {n : Network} (h : Current n) (hn : w.network? r = some n)
    (fusion : Bool) (ord : RenameOrder) :
    w.optimize r fusion ord quiet =
      (w.setNetwork r (n.optimize (w.library n.library) fusion ord).1,
      (n.optimize (w.library n.library) fusion ord).2, []) := by
  refine optimizeWith_quiet hn ?_ 2 0
  rcases Network.optimize_done_or_failed h.wellFormed h.sound (w.library n.library) fusion with ⟨st,
    hdone⟩ | ⟨st, e, hfailed⟩
  · obtain ⟨m, hm⟩ := hdone ord
    exact .inl ⟨m, st, hm⟩
  · exact .inr ⟨st, e, hfailed ord⟩

/-- An optimization that nobody disturbs is done, or it fails and leaves the workspace as it was. It fails only because
the network is not frozen, the cap is reached, a pin can not be read or the graph refuses the commit: once the commit is
through, the calibration and the order are worked out without fail. -/
theorem optimize_all_or_nothing {w : Workspace} (h : Becomes {} w) (r : NetworkRef) (fusion : Bool)
    (ord : RenameOrder) :
    ((∃ st, (w.optimize r fusion ord quiet).2.1 = .done st) ∨
      (w.optimize r fusion ord quiet).1 = w ∧ ∃ st cause,
      (w.optimize r fusion ord quiet).2.1 = .failed st ⟨.optimize, cause⟩ ∧
        (cause = .notFrozen ∨ (∃ passes, cause = .engine (.capReached passes)) ∨ (∃ f, cause = .layout f) ∨
          ∃ c, cause = .sandbox (.rejected c))) ∧
    ∀ {n d t layouts g t' changes}, w.network? r = some n → n.draft (w.library n.library) fusion = .ok d →
      d.sandbox.normalize d.known = (t, .ok layouts) → t.commit n.graph = .ok (g, t', changes) →
      ∃ m, n.settle g ord changes.renamed layouts d.stats fusion = .ok m := by
  constructor
  · cases hn : w.network? r with
    | none =>
      have hnone : w.optimize r fusion ord quiet = (w, .done {}, []) := by
        rw [optimize, attempts, optimizeWith, hn]
      rw [hnone]
      exact .inl ⟨_, rfl⟩
    | some n =>
      have hc := h.current hn
      rw [optimize_quiet hc hn]
      have ha := Network.attempts_optimize hc.wellFormed hc.sound (w.library n.library) fusion ord
      generalize n.optimize (w.library n.library) fusion ord = result at ha
      cases ha with
      | unfrozen hs => exact .inr ⟨setNetwork_self hn, _, _, rfl, .inl rfl⟩
      | capped hs => exact .inr ⟨setNetwork_self hn, _, _, rfl, .inr (.inl ⟨_, rfl⟩)⟩
      | illegible hs => exact .inr ⟨setNetwork_self hn, _, _, rfl, .inr (.inr (.inl ⟨_, rfl⟩))⟩
      | refused hs => exact .inr ⟨setNetwork_self hn, _, _, rfl, .inr (.inr (.inr ⟨_, rfl⟩))⟩
      | done hs hd hc ho => exact .inl ⟨_, rfl⟩
  · intro n d t layouts g t' changes hn hdraft hnorm hcommit
    have hs := (Network.draft_ok hdraft).1
    have hc := h.current hn
    obtain ⟨c, order, hsettle, -⟩ := Network.settle_ok hc.wellFormed (hc.sound hs) hnorm hcommit d.stats fusion ord
    exact ⟨_, hsettle⟩

/-- The workspace of `shortcut` with the shortcut registered. -/
def shortcutBuilt : Workspace :=
  built Network.shortcut [("u", "b")]

/-- The commit of `shortcut` with the shortcut registered is aborted, and the workspace stays as it was. -/
theorem optimize_all_or_nothing_shortcut :
    Becomes {} shortcutBuilt ∧ (shortcutBuilt.optimize 0 true .ascending quiet).2.1.Aborts ∧
    (shortcutBuilt.optimize 0 true .ascending quiet).1 = shortcutBuilt := by
  have hw : Becomes {} shortcutBuilt := becomes_built Network.shortcut [("u", "b")]
  have hsame : ∀ {w}, Becomes {} w → (w.optimize 0 true .ascending quiet).2.1.Aborts →
      (w.optimize 0 true .ascending quiet).2.1.Aborts ∧ (w.optimize 0 true .ascending quiet).1 = w := by
    intro w hw ha
    refine ⟨ha, ?_⟩
    rcases (optimize_all_or_nothing hw 0 true .ascending).1 with ⟨st, hdone⟩ | ⟨hsame, -⟩
    · rw [hdone] at ha
      exact ha.elim
    · exact hsame
  exact ⟨hw, hsame hw (by decide +kernel)⟩

end OpGraph.Workspace
