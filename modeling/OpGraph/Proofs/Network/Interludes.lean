import Mathlib
import OpGraph.Proofs.Network.Idempotence
import OpGraph.Proofs.Network.Settling
import OpGraph.Workspace

/-!
# Optimizing while settings are made

Settings that change the graph make an optimization under way stale, so it is attempted again. Those that do not are
kept: the calibration that lands is worked out from what is recorded at that time, and a layout that was set in between
counts, for an edge that is there was not moved. So an optimization that is done has the same result as if all settings
had been made before it.
-/

namespace OpGraph

open Sandbox

variable {fusion : Bool} {w : Workspace} {r : NetworkRef} {n : Network}

/-! ### The layouts a draft knows of -/

/-- The layouts that are assigned are those of the edges without a known one. -/
lemma get?_assigned (s : Sandbox) (pinned known : Dict Layout) (id : EdgeId) :
    ((s.edges.filter fun e => !known.contains e.id).foldl
        (fun out e => out.insert e.id (s.producerLayout pinned e)) ({} : Dict Layout)).get? id =
      if known.contains id then none
      else (s.edges.foldl (fun out e => out.insert e.id (s.producerLayout pinned e)) ({} : Dict Layout)).get? id := by
  rw [Dict.get?_foldl_insert, Dict.get?_foldl_insert, ← List.filter_reverse, List.find?_filter]
  have hempty : ({} : Dict Layout).get? id = none := rfl
  rw [hempty, Option.or_none, Option.or_none]
  split
  · rename_i hknown
    rw [List.find?_eq_none.2 fun e _ => ?_, Option.map_none]
    rw [decide_eq_true_eq, beq_iff_eq]
    rintro ⟨hno, rfl⟩
    rw [hknown] at hno
    cases hno
  · rename_i hknown
    congr 2
    funext e
    by_cases he : e.id = id
    · simp [he, hknown]
    · simp [he]

/-- What is known matters to the layouts that are left out only. -/
lemma normalize_known (s : Sandbox) :
    ∃ t, (∃ f, ∀ known, s.normalize known = (t, .error f)) ∨
      ∃ full : Dict Layout, ∀ known, ∃ layouts, s.normalize known = (t, .ok layouts) ∧
        ∀ id, layouts.get? id = if known.contains id then none else full.get? id := by
  unfold Sandbox.normalize
  cases s.readPins {} s.nodes with
  | mk t result =>
    cases result with
    | error f => exact ⟨t, .inl ⟨f, fun _ => rfl⟩⟩
    | ok pinned => exact ⟨t, .inr ⟨_, fun known => ⟨_, rfl, get?_assigned t pinned known⟩⟩⟩

namespace Network

variable {ok : Node → Prop} {l : Library} {n m k : Network}

/-- The calibration that lands does not depend on which of the recorded layouts a draft knew of. -/
lemma recalibrate_known (ord : RenameOrder) {s t : Sandbox} {known known' layouts layouts' full : Dict Layout}
    (h : Edited n.graph (Sandbox.copy n.graph none) s) (hnorm : s.normalize known = (t, .ok layouts))
    (hnorm' : s.normalize known' = (t, .ok layouts'))
    (hget : ∀ id, layouts.get? id = if known.contains id then none else full.get? id)
    (hget' : ∀ id, layouts'.get? id = if known'.contains id then none else full.get? id)
    (hle : ∀ id, known.contains id → known'.contains id)
    (hle' : ∀ id, known'.contains id → n.calibration.layouts.contains id) (g : Graph) :
    recalibrate n.calibration g ord t.renamed layouts = recalibrate n.calibration g ord t.renamed layouts' := by
  have hn := normalize_ok h hnorm
  have hn' := normalize_ok h hnorm'
  obtain ⟨c, hc, hrec⟩ := recalibrate_ok layouts hn.valid n.calibration g ord t.renamed
  obtain ⟨c', hc', hrec'⟩ := recalibrate_ok layouts' hn'.valid n.calibration g ord t.renamed
  have hor : ∀ id, ((n.calibration.rename ord t.renamed).layouts.get? id).or (layouts.get? id) =
      ((n.calibration.rename ord t.renamed).layouts.get? id).or (layouts'.get? id) := by
    intro id
    by_cases hk : known.contains id
    · rw [hget, hget', if_pos hk, if_pos (hle id hk)]
    · by_cases hk' : known'.contains id
      · -- a layout that was set in between is found under its identifier if the edge is there
        cases hl : layouts.get? id with
        | none => rw [hget', if_pos hk']
        | some l =>
          obtain ⟨-, e, he, rfl⟩ := hn.assigned.1 (Dict.contains_iff.2 ⟨l, hl⟩)
          obtain ⟨a, ha, rfl⟩ := List.mem_map.1 he
          have ha := hn.edited.tracks.wellFormed.mem_arcsBySource.1 ha
          have hid := hn.edited.tracks.id_of_mem ha
          have hmoved := Calibration.contains_moveAll ord
            (hn.edited.renamed_of_hasArc (Digraph.hasArc_of_mem ha)) (hid ▸ hle' _ hk')
          rw [← hid] at hmoved
          obtain ⟨v, hv⟩ := Dict.contains_iff.1 hmoved
          rw [Calibration.rename, Calibration.layouts_renameAll, hv, Option.some_or, Option.some_or]
      · rw [hget, hget', if_neg hk, if_neg hk']
  have hscales : c.scales = c'.scales := Dict.ext_get? fun id => by rw [hrec.scales, hrec'.scales]
  have hlayouts : c.layouts = c'.layouts := Dict.ext_get? fun id => by rw [hrec.layouts, hrec'.layouts, hor]
  rw [hc, hc']
  exact congrArg Except.ok (congrArg₂ Calibration.mk hscales hlayouts)

/-- A draft lands the same way if it knows of the layouts that were set since. -/
lemma land_known {d : Draft} (h : Edited n.graph (Sandbox.copy n.graph none) d.sandbox)
    (hknown : ∀ id, d.known.contains id → n.calibration.layouts.contains id) (fusion : Bool) (ord : RenameOrder) :
    n.land d fusion ord = n.land { d with known := n.calibration.layouts } fusion ord := by
  unfold land
  dsimp only
  obtain ⟨t, ⟨f, hf⟩ | ⟨full, hfull⟩⟩ := normalize_known d.sandbox
  · rw [hf, hf]
  · obtain ⟨layouts, hnorm, hget⟩ := hfull d.known
    obtain ⟨layouts', hnorm', hget'⟩ := hfull n.calibration.layouts
    have hsame := recalibrate_known ord h hnorm hnorm' hget hget' hknown fun _ h => h
    rw [hnorm, hnorm']
    dsimp only
    split
    · rfl
    · split
      · rfl
      · rename_i g _ changes hok
        have hchanges : changes.renamed = t.renamed := congrArg Changes.renamed (commit_ok hok).2
        unfold settle
        rw [hchanges, hsame g]

/-! ### Settings in between -/

/-- What settings can make of a network: in the same epoch the graph stays, and no layout is forgotten. -/
structure Drifts (n m : Network) : Prop where
  library : m.library = n.library
  state : m.state = n.state
  coherent : ∀ {ok l}, Coherent ok l n → Coherent ok l m
  epoch : n.epoch ≤ m.epoch
  same : m.epoch = n.epoch → m.graph = n.graph ∧ m.cap = n.cap ∧ m.elide = n.elide ∧
    ∀ id, n.calibration.layouts.contains id → m.calibration.layouts.contains id

lemma Drifts.refl (n : Network) : Drifts n n :=
  ⟨rfl, rfl, fun h => h, le_rfl, fun _ => ⟨rfl, rfl, rfl, fun _ h => h⟩⟩

lemma Drifts.trans (h : Drifts n m) (h' : Drifts m k) : Drifts n k where
  library := h'.library.trans h.library
  state := h'.state.trans h.state
  coherent := fun hc => h'.coherent (h.coherent hc)
  epoch := h.epoch.trans h'.epoch
  same := by
    intro he
    have hmk := h'.epoch
    have hnm := h.epoch
    obtain ⟨hg', hcap', helide', hl'⟩ := h'.same (by omega)
    obtain ⟨hg, hcap, helide, hl⟩ := h.same (by omega)
    exact ⟨hg'.trans hg, hcap'.trans hcap, helide'.trans helide, fun id hid => hl' id (hl id hid)⟩

/-- A setting makes a network drift. -/
lemma drifts_set {c : Setting} (h : n.set c = .ok m) : Drifts n m := by
  have hlayouts : ∀ id, n.calibration.layouts.contains id → m.calibration.layouts.contains id := by
    intro id hid
    rcases layouts_set h with hsame | ⟨src, dst, layout, -, hinsert⟩
    · rwa [hsame]
    · rw [hinsert]
      exact Dict.contains_insert.2 (.inr hid)
  have hcoherent : ∀ {ok l}, Coherent ok l n → Coherent ok l m := fun hc => hc.set h
  rcases set_cases h with ⟨op, f, hf, rfl⟩ | ⟨calibration, varScales, rfl⟩
  · exact ⟨rfl, rfl, hcoherent, Nat.le_succ _, fun he => absurd he (Nat.succ_ne_self _)⟩
  · exact ⟨rfl, rfl, hcoherent, le_rfl, fun _ => ⟨rfl, rfl, rfl, hlayouts⟩⟩

/-- Blocks make no difference to the graph and to the layouts. -/
lemma drifts_blocks (n : Network) (blocks : List BlockRef) : Drifts n { n with blocks } :=
  ⟨rfl, rfl, fun hc => { hc with }, le_rfl, fun _ => ⟨rfl, rfl, rfl, fun _ h => h⟩⟩

/-- A draft is determined by what it knows, its epoch and what the engine does. -/
lemma Drafted.eq_of_run {d d' : Draft} {known : Dict Layout} (h : Drafted n l fusion d')
    (hknown : d'.known = known) (hepoch : d'.epoch = d.epoch)
    (hrun : if fusion then (n.engine l).run (Sandbox.copy n.graph none) = ((d.sandbox, d.stats), none)
      else d.sandbox = Sandbox.copy n.graph none ∧ d.stats = {}) : d' = { d with known } := by
  have hrun' := h.run
  have hsame : d'.sandbox = d.sandbox ∧ d'.stats = d.stats := by
    cases fusion with
    | true =>
      rw [if_pos rfl] at hrun hrun'
      rw [hrun] at hrun'
      exact ⟨(congrArg (·.1.1) hrun').symm, (congrArg (·.1.2) hrun').symm⟩
    | false =>
      rw [if_neg Bool.false_ne_true] at hrun hrun'
      exact ⟨hrun'.1.trans hrun.1.symm, hrun'.2.trans hrun.2.symm⟩
  rw [← hknown, ← hepoch, ← hsame.1, ← hsame.2]

/-- A draft that is landed after settings were made is stale, or fails because of a pin, or lands as one that is made
after them, in whatever order entries are moved. -/
lemma land_drifts {d : Draft} (hc : Coherent ok l n) (hs : n.state ≠ .building)
    (hd : Drafted n l fusion d) (h : Drifts n m) : (∃ st, ∀ ord, m.land d fusion ord = (m, .stale st)) ∨
      (∃ st e, ∀ ord, m.land d fusion ord = (m, .failed st e)) ∨
      ∀ ord, m.land d fusion ord = m.optimize l fusion ord := by
  by_cases he : m.epoch = n.epoch
  · refine .inr (.inr fun ord => ?_)
    obtain ⟨hgraph, hcap, helide, hlayouts⟩ := h.same he
    have hs' : m.state ≠ .building := h.state ▸ hs
    have hengine : m.engine l = n.engine l := by
      rw [engine, engine, hcap, helide]
    have hedited : Edited m.graph (Sandbox.copy m.graph none) d.sandbox := by
      rw [hgraph]
      exact hd.edited (hc.regular hs) hc.library
    rw [land_known hedited (fun id hid => hlayouts id (hd.known ▸ hid)) fusion ord, Network.optimize]
    rcases draft_cases hs' l fusion with ⟨s, stats, cause, hf, hrun, herr⟩ | ⟨d', hok, hd'⟩
    · have hrun' := hd.run
      rw [if_pos hf, ← hengine, ← hgraph, hrun] at hrun'
      cases hrun'
    · rw [hok]
      have hepoch : d'.epoch = d.epoch := hd'.epoch.trans (he.trans hd.epoch.symm)
      rw [show d' = { d with known := m.calibration.layouts } from
        hd'.eq_of_run hd'.known hepoch (hengine ▸ hgraph ▸ hd.run)]
  · unfold land
    cases hnorm : d.sandbox.normalize d.known with
    | mk t result =>
      cases result with
      | error f => exact .inr (.inl ⟨_, _, fun _ => rfl⟩)
      | ok layouts =>
        have hstale : m.epoch ≠ d.epoch := hd.epoch ▸ he
        simp only [if_pos hstale]
        exact .inl ⟨_, fun _ => rfl⟩

end Network

namespace Workspace

/-! ### Calls on a workspace -/

/-- What others may call while a network is optimized. -/
inductive Call where
  | set (setting : Network.Setting)
  | block (block : Option BlockRef)

/-- Makes a call on a network. -/
def call (w : Workspace) (r : NetworkRef) : Call → Except Network.Error Workspace
  | .set setting => w.onNetwork r (·.set setting)
  | .block block => w.registerBlock r block

/-- Makes a call on a network if it is allowed, and none otherwise. -/
def perform (r : NetworkRef) (w : Workspace) (c : Call) : Workspace :=
  match w.call r c with
  | .ok w => w
  | .error _ => w

/-- Makes calls on a network one after the other. -/
def performAll (w : Workspace) (r : NetworkRef) (cs : List Call) : Workspace :=
  cs.foldl (perform r) w

/-- Some calls after others are performed one after the other. -/
lemma performAll_append (w : Workspace) (r : NetworkRef) (cs cs' : List Call) :
    w.performAll r (cs ++ cs') = (w.performAll r cs).performAll r cs' :=
  List.foldl_append

/-- A network is put in the place where it is already. -/
lemma setNetwork_self (h : w.network? r = some n) : w.setNetwork r n = w := by
  obtain ⟨hr, rfl⟩ := List.getElem?_eq_some_iff.1 h
  rw [setNetwork, List.set_getElem_self]

/-- A network that was set is found. -/
lemma network?_setNetwork (h : w.network? r = some n) (m : Network) : (w.setNetwork r m).network? r = some m := by
  obtain ⟨hr, -⟩ := List.getElem?_eq_some_iff.1 h
  exact List.getElem?_set_self hr

/-- An operation that concerns one network alone replaces it. -/
lemma onNetwork_ok {w' : Workspace} {f : Network → Except Network.Error Network}
    (h : w.network? r = some n) (hok : w.onNetwork r f = .ok w') : ∃ m, f n = .ok m ∧ w' = w.setNetwork r m := by
  unfold onNetwork at hok
  rw [h] at hok
  obtain ⟨m, hm, hok⟩ := bind_eq_ok.1 hok
  cases hok
  exact ⟨m, hm, rfl⟩

/-- A network refers to a weight block that it did not list before. -/
lemma registerBlock_ok {w' : Workspace} {block : Option BlockRef} (h : w.registerBlock r block = .ok w') :
    w.network? r = none ∧ w' = w ∨ ∃ n c b, block = some c ∧ w.network? r = some n ∧ w.depot.block? c = some b ∧
      c ∉ n.blocks ∧ w' = { w.setNetwork r { n with blocks := n.blocks ++ [c] } with depot := w.depot.retain c } := by
  unfold registerBlock at h
  split at h
  · rename_i hnone
    cases h
    exact .inl ⟨hnone, rfl⟩
  · cases h
  · rename_i n c hn
    split at h
    · cases h
    · rename_i b hb
      split_ifs at h with hop hfree
      cases h
      refine .inr ⟨n, c, b, rfl, hn, hb, fun hc => hfree ?_, rfl⟩
      exact List.any_eq_true.2 ⟨c, hc, by simp [hb]⟩

/-- A call leaves the libraries as they are, and makes a setting of the network or adds to its blocks. -/
lemma call_ok {w' : Workspace} (h : w.network? r = some n) {c : Call} (hc : w.call r c = .ok w') :
    ∃ m, w'.network? r = some m ∧ w'.libraries = w.libraries ∧
      ((∃ setting, n.set setting = .ok m) ∨ ∃ blocks, m = { n with blocks }) := by
  cases c with
  | set setting =>
    obtain ⟨m, hset, rfl⟩ := onNetwork_ok h hc
    exact ⟨m, network?_setNetwork h m, rfl, .inl ⟨setting, hset⟩⟩
  | block block =>
    rcases registerBlock_ok hc with ⟨-, rfl⟩ | ⟨n', b, _, -, hn', -, -, rfl⟩
    · exact ⟨n, h, rfl, .inr ⟨n.blocks, rfl⟩⟩
    · obtain rfl := Option.some.inj (h.symm.trans hn')
      exact ⟨_, network?_setNetwork h _, rfl, .inr ⟨n.blocks ++ [b], rfl⟩⟩

/-- A call to a network makes it drift and leaves the libraries alone. -/
lemma exists_drifts_perform (h : w.network? r = some n) (c : Call) :
    ∃ m, (perform r w c).network? r = some m ∧ (perform r w c).libraries = w.libraries ∧ Network.Drifts n m := by
  unfold perform
  split
  · obtain ⟨m, hm, hlib, ⟨setting, hset⟩ | ⟨blocks, rfl⟩⟩ := call_ok h ‹_›
    · exact ⟨m, hm, hlib, Network.drifts_set hset⟩
    · exact ⟨_, hm, hlib, Network.drifts_blocks n blocks⟩
  · exact ⟨n, h, rfl, .refl n⟩

/-- Calls leave the libraries as they are, and the network drifts. -/
lemma exists_drifts_performAll : ∀ (cs : List Call) {w : Workspace} {n : Network}, w.network? r = some n →
      ∃ m, (w.performAll r cs).network? r = some m ∧ (w.performAll r cs).libraries = w.libraries ∧ Network.Drifts n m
  | [], w, n, h => ⟨n, h, rfl, .refl n⟩
  | c :: cs, w, n, h => by
    obtain ⟨m, hm, hlib, hdrift⟩ := exists_drifts_perform h c
    obtain ⟨k, hk, hlib', hdrift'⟩ := exists_drifts_performAll cs hm
    exact ⟨k, hk, hlib'.trans hlib, hdrift.trans hdrift'⟩

/-! ### Attempts -/

/-- The calls of `S i` are made during the `i`-th attempt. -/
def interlude (r : NetworkRef) (S : Nat → List Call) (i : Nat) (w : Workspace) : Workspace × List Call :=
  (w.performAll r (S i), S i)

/-- Nothing is called. -/
def quiet (_ : Nat) (w : Workspace) : Workspace × List Call :=
  (w, [])

variable {ok : Node → Prop} {r : NetworkRef} {w : Workspace} {n : Network}

/-- An optimization that nobody disturbs needs one attempt, provided it is done or leaves the network as it is. -/
lemma optimizeWith_quiet (h : w.network? r = some n) {ord : RenameOrder}
    (hcases : (∃ m st, n.optimize (w.library n.library) fusion ord = (m, .done st)) ∨
      ∃ st e, n.optimize (w.library n.library) fusion ord = (n, .failed st e)) (left i : Nat) :
    optimizeWith r fusion ord quiet (left + 1) i w = (w.setNetwork r (n.optimize (w.library n.library) fusion ord).1,
      (n.optimize (w.library n.library) fusion ord).2, []) := by
  unfold optimizeWith
  rw [h]
  dsimp only
  cases hdraft : n.draft (w.library n.library) fusion with
  | error err =>
    rw [Network.optimize, hdraft]
    dsimp only
    rw [setNetwork_self h]
  | ok d =>
    have hland : n.optimize (w.library n.library) fusion ord = n.land d fusion ord := by
      rw [Network.optimize, hdraft]
    rw [hland] at hcases ⊢
    dsimp only [quiet]
    rw [h]
    dsimp only
    rcases hcases with ⟨m, st, hm⟩ | ⟨st, e, he⟩
    · rw [hm]
    · rw [he]

section Attempt

variable {S : Nat → List Call} {fusion : Bool} {ord : RenameOrder} {m k : Network} {d : Network.Draft} {left i : Nat}

/-- An attempt that is not stale is the last one. -/
lemma optimizeWith_landed (h : w.network? r = some n) (hok : n.draft (w.library n.library) fusion = .ok d)
    (hm : (w.performAll r (S i)).network? r = some m) {outcome : Network.Outcome}
    (hland : m.land d fusion ord = (k, outcome)) (hne : ∀ st, outcome ≠ .stale st) :
    optimizeWith r fusion ord (interlude r S) (left + 1) i w =
      ((w.performAll r (S i)).setNetwork r k, outcome, S i) := by
  unfold optimizeWith
  rw [h]
  dsimp only
  rw [hok]
  dsimp only [interlude]
  rw [hm]
  dsimp only
  rw [hland]
  cases outcome with
  | stale st => exact absurd rfl (hne st)
  | done _ => rfl
  | failed _ _ => rfl

/-- After a stale attempt, which leaves the network as it is, there is another one if any is left. -/
lemma optimizeWith_stale (h : w.network? r = some n) (hok : n.draft (w.library n.library) fusion = .ok d)
    (hm : (w.performAll r (S i)).network? r = some m) {st : Stats} (hland : m.land d fusion ord = (m, .stale st)) :
    optimizeWith r fusion ord (interlude r S) (left + 1) i w =
      if left = 0 then (w.performAll r (S i), .failed st ⟨.optimize, .unsettled attempts⟩, S i)
      else
        ((optimizeWith r fusion ord (interlude r S) left (i + 1) (w.performAll r (S i))).1,
          (optimizeWith r fusion ord (interlude r S) left (i + 1) (w.performAll r (S i))).2.1,
          S i ++ (optimizeWith r fusion ord (interlude r S) left (i + 1) (w.performAll r (S i))).2.2) := by
  rw [optimizeWith, h]
  dsimp only
  rw [hok]
  dsimp only [interlude]
  rw [hm]
  dsimp only
  rw [hland]
  dsimp only
  rw [setNetwork_self hm]

end Attempt

/-- What the outcome of an optimization says about the workspace after it, given the one after the calls that were made
meanwhile. -/
def Explains (r : NetworkRef) (l : Library) (fusion : Bool) (ord : RenameOrder) (called after : Workspace) :
    Network.Outcome → Prop
  | .done st => ∃ n m, called.network? r = some n ∧ n.optimize l fusion ord = (m, .done st) ∧
    after = called.setNetwork r m
  | .failed _ _ => after = called
  | .stale _ => False

/-- Whatever is called during the attempts, the result is explained by the calls alone. The outcome and the attempts
that are made do not depend on the order in which entries are moved. -/
lemma explains_optimizeWith (S : Nat → List Call) (fusion : Bool) :
    ∀ {left : Nat} (i : Nat) {w : Workspace} {n : Network},
      w.network? r = some n → Network.Coherent ok (w.library n.library) n → n.state ≠ .building →
      ∃ k ≤ left, ∃ outcome, ∀ ord, ∃ w',
        optimizeWith r fusion ord (interlude r S) left i w = (w', outcome, (List.range' i k).flatMap S) ∧
        Explains r (w.library n.library) fusion ord (w.performAll r ((List.range' i k).flatMap S)) w' outcome := by
  intro left
  induction left with
  | zero => exact fun i {w n} _ _ _ => ⟨0, le_rfl, _, fun ord => ⟨w, rfl, rfl⟩⟩
  | succ left ih =>
    intro i w n h hc hs
    have hone : (List.range' i 1).flatMap S = S i := by simp
    have hlast : 1 ≤ left + 1 := Nat.succ_le_succ (Nat.zero_le _)
    cases hok : n.draft (w.library n.library) fusion with
    | error e =>
      refine ⟨0, Nat.zero_le _, .failed e.1 e.2, fun ord => ⟨w, ?_, rfl⟩⟩
      rw [optimizeWith, h]
      dsimp only
      rw [hok]
      rfl
    | ok d =>
      obtain ⟨m, hm, hlib, hdrift⟩ := exists_drifts_performAll (S i) h
      have hl : (w.performAll r (S i)).library m.library = w.library n.library := by
        rw [library, library, hlib, hdrift.library]
      have hcm := hdrift.coherent hc
      rcases Network.land_drifts hc hs (Network.draft_ok hok).2 hdrift with ⟨st, hland⟩ | ⟨st, e, hland⟩ | hland
      · -- the attempt is stale
        by_cases hleft : left = 0
        · refine ⟨1, hlast, .failed st ⟨.optimize, .unsettled attempts⟩, fun ord => ⟨w.performAll r (S i), ?_, ?_⟩⟩
          · rw [optimizeWith_stale h hok hm (hland ord), if_pos hleft, hone]
          · rw [hone]
            rfl
        · obtain ⟨k, hk, outcome, hnext⟩ := ih (i + 1) hm (hl ▸ hcm) (hdrift.state ▸ hs)
          refine ⟨k + 1, Nat.succ_le_succ hk, outcome, fun ord => ?_⟩
          obtain ⟨w', hrun, hexp⟩ := hnext ord
          refine ⟨w', ?_, ?_⟩
          · rw [optimizeWith_stale h hok hm (hland ord), if_neg hleft, hrun, List.range'_succ, List.flatMap_cons]
          · rw [List.range'_succ, List.flatMap_cons, performAll_append, ← hl]
            exact hexp
      · -- a pin can not be read
        refine ⟨1, hlast, .failed st e, fun ord => ⟨w.performAll r (S i), ?_, ?_⟩⟩
        · rw [optimizeWith_landed h hok hm (hland ord) fun _ => Network.Outcome.noConfusion, setNetwork_self hm, hone]
        · rw [hone]
          rfl
      · -- the attempt lands as if it had been made after the calls
        rcases Network.optimize_done_or_failed hcm.wellFormed hcm.sound (w.library n.library) fusion with
          ⟨st, hdone⟩ | ⟨st, e, hfailed⟩
        · refine ⟨1, hlast, .done st, fun ord => ?_⟩
          obtain ⟨k, hk⟩ := hdone ord
          refine ⟨_, ?_, m, k, hone.symm ▸ hm, hk, rfl⟩
          rw [hone]
          exact optimizeWith_landed h hok hm ((hland ord).trans hk) fun _ => Network.Outcome.noConfusion
        · refine ⟨1, hlast, .failed st e, fun ord => ⟨w.performAll r (S i), ?_, ?_⟩⟩
          · rw [optimizeWith_landed h hok hm ((hland ord).trans (hfailed ord)) fun _ => Network.Outcome.noConfusion,
              setNetwork_self hm, hone]
          · rw [hone]
            rfl

/-- Calls that are made while a network is optimized, between the drafting and the landing of each attempt, are not
lost. Which attempts are made and how the optimization ends does not depend on the order in which the entries of moved
edges follow them. In each such order, if the optimization is done, the workspace is as if all calls had been made first
and the optimization had then been left undisturbed; if it fails, it is what the calls alone make of it. -/
theorem optimize_with_calls (h : w.network? r = some n)
    (hr : Network.Reached (fun _ => True) (w.library n.library) n) (hs : n.state ≠ .building) (fusion : Bool)
    (S : Nat → List Call) :
    ∃ k ≤ attempts, ∃ outcome, ∀ ord, ∃ w',
      optimizeWith r fusion ord (interlude r S) attempts 0 w = (w', outcome, (List.range k).flatMap S) ∧
      match outcome with
      | .done st =>
        optimizeWith r fusion ord quiet attempts 0 (w.performAll r ((List.range k).flatMap S)) = (w', .done st, [])
      | .failed _ _ => w' = w.performAll r ((List.range k).flatMap S)
      | .stale _ => False := by
  obtain ⟨k, hk, outcome, hall⟩ := explains_optimizeWith S fusion 0 h hr.coherent hs
  refine ⟨k, hk, outcome, fun ord => ?_⟩
  rw [List.range_eq_range']
  obtain ⟨w', hrun, hexp⟩ := hall ord
  refine ⟨w', hrun, ?_⟩
  cases outcome with
  | stale _ => exact hexp
  | failed _ _ => exact hexp
  | done st =>
    obtain ⟨m, k', hm, hk', rfl⟩ := hexp
    obtain ⟨m', hm', hlib, hdrift⟩ := exists_drifts_performAll ((List.range' 0 k).flatMap S) h
    rw [hm] at hm'
    cases hm'
    have hl : (w.performAll r ((List.range' 0 k).flatMap S)).library m.library = w.library n.library := by
      rw [library, library, hlib, hdrift.library]
    have hquiet := optimizeWith_quiet hm (.inl ⟨k', st, hl.symm ▸ hk'⟩) 2 0
    rw [hl, hk'] at hquiet
    exact hquiet

/-- Nothing is called while an optimization is left undisturbed. -/
lemma optimizeWith_quiet_called (fusion : Bool) (ord : RenameOrder) (left i : Nat) :
    (optimizeWith r fusion ord quiet left i w).2.2 = [] := by
  induction left generalizing i w with
  | zero => rfl
  | succ left ih =>
    rw [optimizeWith]
    grind [quiet]

/-- An optimization whose outcome has statistics is done with these. -/
lemma optimizeWith_eq_of_done? {ord : RenameOrder} {f : Nat → Workspace → Workspace × List Call}
    {left i : Nat} {st : Stats} (h : (optimizeWith r fusion ord f left i w).2.1.done? = some st) :
    optimizeWith r fusion ord f left i w =
      ((optimizeWith r fusion ord f left i w).1, .done st, (optimizeWith r fusion ord f left i w).2.2) :=
  Prod.ext rfl (Prod.ext (Network.Outcome.eq_done h) rfl)

/-- The workspace of a network and its library. -/
def alone (n : Network) (l : Library) : Workspace where
  networks := [n]
  libraries := [l]

/-- First the precision of an operator is set, which makes the attempt stale, then the layout of an edge that fusion
moves. -/
def twoCalls : Nat → List Call
  | 0 => [.set (.precision "z" "fp16")]
  | 1 => [.set (.layout "u" "b" "NHWC")]
  | _ => []

/-- The workspace of the network of `shortcut`. -/
def shortcutAlone : Workspace :=
  alone (.assemble Network.shortcut []) .standard

/-- The second attempt to optimize `shortcut` is done, with both calls taken into account. -/
theorem optimize_with_calls_shortcut : ∃ w' called, called.length = 2 ∧
    optimizeWith 0 true .ascending (interlude 0 twoCalls) attempts 0 shortcutAlone =
      (w', .done { iterations := 2, fused := 2 }, called) ∧
    optimizeWith 0 true .ascending quiet attempts 0 (shortcutAlone.performAll 0 called) =
      (w', .done { iterations := 2, fused := 2 }, []) := by
  have he : optimizeWith 0 true .ascending (interlude 0 twoCalls) attempts 0 shortcutAlone =
      (_, .done { iterations := 2, fused := 2 }, _) := optimizeWith_eq_of_done? (by decide +kernel)
  have hn : shortcutAlone.network? 0 = some (.assemble Network.shortcut []) := rfl
  have hl : shortcutAlone.library (Network.assemble Network.shortcut []).library = .standard := by decide +kernel
  obtain ⟨k, -, outcome, hall⟩ :=
    optimize_with_calls hn (hl ▸ Network.reached_shortcut []) (by decide +kernel) true twoCalls
  obtain ⟨w', hrun, hquiet⟩ := hall .ascending
  have hlen : (optimizeWith 0 true .ascending (interlude 0 twoCalls) attempts 0 shortcutAlone).2.2.length = 2 := by
    decide +kernel
  rw [hrun] at he hlen
  obtain rfl : outcome = .done { iterations := 2, fused := 2 } := congrArg (·.2.1) he
  exact ⟨_, _, hlen, hrun, hquiet⟩

/-- Two chains and two operators that fuse with the readers of their fused operators. What these read has in between the
identifier of the edge from `a` to `b->c->d`. -/
def arrowedChains : List Node := [
  { name := "p1", type := "A", outputs := ["v1"] },
  { name := "q1", type := "P", outputs := ["w1"] },
  { name := "k0", type := "K", outputs := ["x1"] },
  { name := "d0", type := "K", outputs := ["y1"] },
  { name := "a", type := "Z", outputs := ["z1"] },
  { name := "p2", type := "B", inputs := ["v1"], outputs := ["v2"] },
  { name := "q2", type := "Q", inputs := ["w1"], outputs := ["w2"] },
  { name := "c->d", type := "M", inputs := ["x1", "v2"] },
  { name := "d", type := "M", inputs := ["y1", "w2"] },
  { name := "b->c->d", type := "Z", inputs := ["z1"] },
  { name := "b->c->g_1", type := "Z", inputs := ["z1"] }]

/-- The library that fuses the chains of `arrowedChains`. -/
def arrowedLibrary : Library :=
  ⟨[.chain "a->b" ["A", "B"], .chain "a->b->c" ["P", "Q"], .chain "g" ["K", "M"]]⟩

/-- The workspace of the network of `arrowedChains`. -/
def arrowedAlone : Workspace :=
  alone (.assemble arrowedChains []) arrowedLibrary

/-- The layout of the edge from `a` to `b->c->d` is set in the first attempt. -/
def arrowedCall : Nat → List Call
  | 0 => [.set (.layout "a" "b->c->d" "NHWC")]
  | _ => []

/-- Whether a layout is set for the edge from `a` to `b->c->d`. -/
def arrowedLayout (w : Workspace) : Bool :=
  (w.network? 0).any (·.calibration.layouts.contains (Edge.id { src := "a", dst := "b->c->d" }))

/-- With arrows in names, two edges can have one identifier, and what is set for an edge in the middle of an
optimization can then go to another one: the edge is left with the usual layout, which it does not get if the call is
made first. -/
theorem arrowed_optimize_with_calls : ∃ w w' called,
    optimizeWith 0 true .ascending (interlude 0 arrowedCall) attempts 0 arrowedAlone =
      (w, .done { iterations := 2, fused := 4 }, called) ∧
    optimizeWith 0 true .ascending quiet attempts 0 (arrowedAlone.performAll 0 called) =
      (w', .done { iterations := 2, fused := 4 }, []) ∧
    arrowedLayout w ∧ ¬ arrowedLayout w' := by
  have hrun : ((optimizeWith 0 true .ascending (interlude 0 arrowedCall) attempts 0 arrowedAlone).2.1.done? =
    some { iterations := 2, fused := 4 } ∧
      arrowedLayout (optimizeWith 0 true .ascending (interlude 0 arrowedCall) attempts 0 arrowedAlone).1) ∧
      (optimizeWith 0 true .ascending quiet attempts 0 (arrowedAlone.performAll 0
        (optimizeWith 0 true .ascending (interlude 0 arrowedCall) attempts 0 arrowedAlone).2.2)).2.1.done? =
        some { iterations := 2, fused := 4 } ∧
      ¬ arrowedLayout (optimizeWith 0 true .ascending quiet attempts 0 (arrowedAlone.performAll 0
        (optimizeWith 0 true .ascending (interlude 0 arrowedCall) attempts 0 arrowedAlone).2.2)).1 := by decide +kernel
  have hq := optimizeWith_eq_of_done? hrun.2.1
  rw [optimizeWith_quiet_called] at hq
  exact ⟨_, _, _, optimizeWith_eq_of_done? hrun.1.1, hq, hrun.1.2, hrun.2.2⟩

end Workspace

end OpGraph
