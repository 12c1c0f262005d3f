import Mathlib
import OpGraph.Model.Build
import OpGraph.Proofs.Network.Settling
import OpGraph.Proofs.References

/-!
# Builds that fail

The blocks of a model are filed one by one while it is built, and a later part of the model may fail. Nothing is taken
back then but the references of the network, and that is enough: a block that the build has made is referred to once, by
the network, so it leaves the pool with it. What was filed before stays, also under a name that a block of the model
has.
-/

namespace OpGraph

/-! ### Borrowed blocks -/

namespace Depot

variable {d₀ d d' : Depot} {bs : List BlockRef} {c : BlockRef} {b : Block}

/-- What a depot is while some of its blocks are new: there is one reference to each of these, and a pool has only what
it had and what it owns of them. -/
structure Borrows (d₀ : Depot) (bs : List BlockRef) (d : Depot) : Prop where
  nodup : bs.Nodup
  old : ∀ {c b}, d₀.block? c = some b → d.block? c = some b
  fresh : ∀ {c}, c ∈ bs → d₀.block? c = none
  held : ∀ {c}, c ∈ bs → ∃ b, d.block? c = some b ∧ b.refs = 1
  entry : ∀ {p id c}, (d.pool p).get? id = some c ↔ (d₀.pool p).get? id = some c ∨ c ∈ bs ∧ d.Ends p id c
  apart : ∀ {p id c}, c ∈ bs → d.Ends p id c → (d₀.pool p).get? id = none

namespace Borrows

/-- At first nothing has been borrowed. -/
lemma refl (d : Depot) : Borrows d [] d where
  nodup := List.nodup_nil
  old := id
  fresh := nofun
  held := nofun
  entry := by simp
  apart := nofun

/-- A block that is unknown now was unknown before. -/
lemma unknown (h : Borrows d₀ bs d) (hc : d.block? c = none) : d₀.block? c = none := by
  rw [Option.eq_none_iff_forall_ne_some]
  intro b hb
  cases hc.symm.trans (h.old hb)

/-- A block that nobody refers to does not matter. -/
lemma add (h : Borrows d₀ bs d) (b : Block) : Borrows d₀ bs (d.add b).1 := by
  have hends : ∀ {p id c}, c ∈ bs → ((d.add b).1.Ends p id c ↔ d.Ends p id c) := by
    intro p id c hc
    obtain ⟨x, hx, -⟩ := h.held hc
    rw [Ends, Ends, hx, block?_add_of_some hx]
  refine ⟨h.nodup, fun ho => block?_add_of_some (h.old ho) b, h.fresh, fun hc => ?_, ?_, fun hc he => ?_⟩
  · obtain ⟨x, hx, hrefs⟩ := h.held hc
    exact ⟨x, block?_add_of_some hx b, hrefs⟩
  · intro p id c
    exact h.entry.trans (or_congr_right (and_congr_right fun hc => (hends hc).symm))
  · exact h.apart hc ((hends hc).1 he)

/-- A new block is referred to. -/
lemma retain (h : Borrows d₀ bs d) (hc : d₀.block? c = none) (hb : d.block? c = some b) (hrefs : b.refs = 0)
    (howner : b.owner = none) : Borrows d₀ (bs ++ [c]) (d.retain c) := by
  have hnew : c ∉ bs := by
    intro hmem
    obtain ⟨x, hx, hone⟩ := h.held hmem
    cases hb.symm.trans hx
    rw [hrefs] at hone
    cases hone
  have hother : ∀ {x}, x ≠ c → (d.retain c).block? x = d.block? x := by
    intro x hx
    rw [Depot.retain, block?_modify, if_neg hx]
  have hself : (d.retain c).block? c = some { b with refs := b.refs + 1 } := by
    rw [Depot.retain, block?_modify, if_pos rfl, hb]
    rfl
  -- no pool owns the block yet
  have hends : ∀ {p id x}, x ∈ bs ++ [c] ∧ (d.retain c).Ends p id x ↔ x ∈ bs ∧ d.Ends p id x := by
    intro p id x
    by_cases hx : x = c
    · subst hx
      simp [Ends, hself, howner, hnew]
    · rw [Ends, Ends, hother hx]
      simp [hx]
  refine ⟨h.nodup.append (List.nodup_singleton c) (List.disjoint_singleton.2 hnew), fun {x y} ho => ?_,
    fun {x} hx => ?_,
    fun {x} hx => ?_, fun {p id x} => ?_, fun {p id x} hx he => ?_⟩
  · have hne : x ≠ c := fun hxc => by
      rw [hxc, hc] at ho
      cases ho
    rw [hother hne]
    exact h.old ho
  · rcases List.mem_append.1 hx with hx | hx
    · exact h.fresh hx
    · rwa [List.mem_singleton.1 hx]
  · rcases List.mem_append.1 hx with hx | hx
    · rw [hother fun hxc => hnew (hxc ▸ hx)]
      exact h.held hx
    · rw [List.mem_singleton.1 hx, hself]
      exact ⟨_, rfl, by rw [hrefs]; rfl⟩
  · rw [Depot.retain, pool_modify, ← Depot.retain, hends]
    exact h.entry
  · obtain ⟨hx, he⟩ := hends.1 ⟨hx, he⟩
    exact h.apart hx he

/-- A new block is filed. -/
lemma register (h : Borrows d₀ bs d) (hc : c ∈ bs) (hb : d.block? c = some b) (howner : b.owner = none) {p : String}
    (hok : d.register c p = .ok d') : Borrows d₀ bs d' := by
  rcases register_ok hok with rfl | ⟨x, hx, hfree, hblock, hpool⟩
  · exact h
  cases hb.symm.trans hx
  have hother : ∀ {x}, x ≠ c → d'.block? x = d.block? x := by
    intro x hx
    rw [hblock, if_neg hx]
  have hself : d'.block? c = some { b with owner := some p } := by
    rw [hblock, if_pos rfl, hb]
    rfl
  have hone : b.refs = 1 := by
    obtain ⟨x, hx, hone⟩ := h.held hc
    cases hb.symm.trans hx
    exact hone
  have hends : ∀ {q id x}, d'.Ends q id x ↔ d.Ends q id x ∨ x = c ∧ q = p ∧ id = b.id := by
    intro q id x
    by_cases hx : x = c
    · subst hx
      simp [Ends, hself, hb, howner, hone, eq_comm]
    · rw [Ends, Ends, hother hx]
      simp [hx]
  have hfree₀ : (d₀.pool p).get? b.id = none := by
    rw [Option.eq_none_iff_forall_ne_some]
    intro x hx
    cases hfree.symm.trans (h.entry.2 (.inl hx))
  refine ⟨h.nodup, fun {x y} ho => ?_, h.fresh, fun {x} hx => ?_, fun {q id x} => ?_, fun {q id x} hx he => ?_⟩
  · have hne : x ≠ c := fun hxc => by
      rw [hxc, h.fresh hc] at ho
      cases ho
    rw [hother hne]
    exact h.old ho
  · by_cases hxc : x = c
    · rw [hxc, hself]
      exact ⟨_, rfl, hone⟩
    · rw [hother hxc]
      exact h.held hx
  · rw [hpool, hends]
    split
    · rename_i hq
      obtain ⟨rfl, rfl⟩ := hq
      constructor
      · intro hx
        cases hx
        exact .inr ⟨hc, .inr ⟨rfl, rfl, rfl⟩⟩
      · rintro (hx | ⟨hx, he | ⟨rfl, -⟩⟩)
        · cases hfree₀.symm.trans hx
        · cases hfree.symm.trans (h.entry.2 (.inr ⟨hx, he⟩))
        · rfl
    · rename_i hq
      rw [h.entry]
      exact or_congr_right (and_congr_right fun _ => ⟨.inl, fun he => he.resolve_right fun hx => hq hx.2⟩)
  · rcases hends.1 he with he | ⟨-, rfl, rfl⟩
    · exact h.apart hx he
    · exact hfree₀

/-- Once the new blocks are released, the pools have what they had. -/
lemma releaseAll (h : Borrows d₀ bs d) :
    ∃ d', d.releaseAll bs = (d', none) ∧ (∀ p, d'.pool p = d₀.pool p) ∧
      ∀ {c b}, d₀.block? c = some b → d'.block? c = some b := by
  have hrefs : ∀ c ∈ bs, ∀ b, d.block? c = some b → 0 ≤ b.refs - 1 := by
    intro c hc b hb
    obtain ⟨x, hx, hone⟩ := h.held hc
    cases hb.symm.trans hx
    rw [hone]
    decide
  obtain ⟨d', hd', hrel⟩ := releaseAll_ok h.nodup hrefs
  refine ⟨d', hd', fun p => Dict.ext_get? fun id => Option.ext fun c => ?_, fun {c b} hb => ?_⟩
  · rw [hrel.entry, h.entry]
    constructor
    · rintro ⟨hold | hnew, hno⟩
      · exact hold
      · exact absurd hnew hno
    · intro hold
      refine ⟨.inl hold, fun hnew => ?_⟩
      cases hold.symm.trans (h.apart hnew.1 hnew.2)
  · have hc : c ∉ bs := fun hc => by
      rw [h.fresh hc] at hb
      cases hb
    rw [hrel.block, h.old hb, Option.map_some, if_neg hc]

end Borrows

end Depot

/-! ### Requests that fail -/

/-- A node that is not inserted is refused with a failure. -/
lemma Graph.fault_insertNode {g : Graph} {n : Node} {e : Graph.Error} (h : g.insertNode n = .error e) :
    ∃ f, e.toFault = .failure f := by
  unfold insertNode at h
  split_ifs at h
  · cases h
    exact ⟨_, rfl⟩
  · cases h
    exact ⟨_, rfl⟩
  · split at h
    · cases h
    · cases h
      exact ⟨_, rfl⟩

/-- An edge that is not added is refused with a failure. -/
lemma Graph.fault_connect {g : Graph} {a : Edge} {e : Graph.Error} (h : g.connect a = .error e) :
    ∃ f, e.toFault = .failure f := by
  unfold connect at h
  split_ifs at h
  · cases h
    exact ⟨_, rfl⟩
  · cases h
    exact ⟨_, rfl⟩
  · split at h
    · cases h
    · cases h
      exact ⟨_, rfl⟩

namespace Network

variable {n m : Network} {cause : Cause}

/-- What fails as an operation of a network fails for a cause. -/
lemma failing_error {α : Type} {op : Operation} {x : Except Cause α} {e : Error} (h : failing op x = .error e) :
    ∃ cause, x = .error cause ∧ e = ⟨op, cause⟩ := by
  cases x with
  | ok a => cases h
  | error cause =>
    cases h
    exact ⟨cause, rfl, rfl⟩

/-- An operation whose causes are failures fails with a failure. -/
lemma fault_failing {α : Type} {op : Operation} {x : Except Cause α} {e : Error}
    (hx : ∀ cause, x = .error cause → ∃ f, cause.toFault = .failure f) (h : failing op x = .error e) :
    ∃ f, e.toFault = .failure f := by
  obtain ⟨cause, hcause, rfl⟩ := failing_error h
  obtain ⟨f, hf⟩ := hx cause hcause
  exact ⟨f.annotate op.text, by rw [Error.toFault, hf]⟩

/-- Inputs that cannot be joined to their producers are refused with a failure. -/
lemma fault_joinInputs {ps : Dict Producer} {node : String} {slot : Nat} {g : Graph} {vs : List String}
    (h : joinInputs ps node slot g vs = .error cause) : ∃ f, cause.toFault = .failure f := by
  induction vs generalizing slot g with
  | nil => cases h
  | cons v vs ih =>
    unfold joinInputs at h
    split at h
    · cases h
      exact ⟨_, rfl⟩
    · split_ifs at h
      · cases h
        exact ⟨_, rfl⟩
      · rcases bind_eq_error.1 h with h | ⟨g', -, h⟩
        · unfold joinOnce at h
          split at h
          · cases h
          · cases h
          · cases h
            exact Graph.fault_connect ‹_›
        · exact ih h

/-- Variables that have a producer already are refused with a failure. -/
lemma fault_addProducers {node : String} {slot : Nat} {ps : Dict Producer} {vs : List String}
    (h : addProducers node slot ps vs = .error cause) : ∃ f, cause.toFault = .failure f := by
  induction vs generalizing slot ps with
  | nil => cases h
  | cons v vs ih =>
    unfold addProducers at h
    split at h
    · cases h
      exact ⟨_, rfl⟩
    · exact ih h

/-- A scale that cannot be recorded for a variable is refused with a failure. -/
lemma fault_scaleVar {g : Graph} {c : Calibration} {var : String} {scale : Float32}
    (h : scaleVar g c var scale = .error cause) : ∃ f, cause.toFault = .failure f := by
  unfold scaleVar at h
  split_ifs at h
  · cases h
    exact ⟨_, rfl⟩
  · generalize g.edgesCarrying var = es at h
    induction es generalizing c with
    | nil => cases h
    | cons e es ih =>
      unfold scaleEdges at h
      split at h
      · exact ih h
      · cases h
        exact ⟨_, rfl⟩

/-- A network that cannot be resolved is refused with a failure. -/
lemma fault_resolve (h : n.resolve = .error cause) : ∃ f, cause.toFault = .failure f := by
  unfold resolve at h
  rcases bind_eq_error.1 h with h | ⟨g, -, h⟩
  · obtain ⟨g, var, -, h⟩ := foldlM_error h
    unfold addInput at h
    split at h
    · cases h
    · cases h
      exact Graph.fault_insertNode ‹_›
  rcases bind_eq_error.1 h with h | ⟨g, -, h⟩
  · rcases bind_eq_error.1 h with h | ⟨ps, -, h⟩
    · obtain ⟨ps, v, -, h⟩ := foldlM_error h
      exact fault_addProducers h
    · obtain ⟨g, v, -, h⟩ := foldlM_error h
      exact fault_joinInputs h
  rcases bind_eq_error.1 h with h | ⟨g, -, h⟩
  · obtain ⟨g, out, -, h⟩ := foldlM_error h
    unfold registerOut Graph.registerOutput at h
    split_ifs at h
    cases h
    exact ⟨_, rfl⟩
  dsimp only at h
  split at h
  · cases h
    exact ⟨_, rfl⟩
  · split at h
    · cases h
      exact ⟨_, rfl⟩
    · rcases bind_eq_error.1 h with h | ⟨c, -, h⟩
      · obtain ⟨c, scale, -, h⟩ := foldlM_error h
        exact fault_scaleVar h
      · cases h

/-- A setting that cannot be made is refused with a failure. -/
lemma fault_set {setting : Setting} {e : Error} (h : n.set setting = .error e) : ∃ f, e.toFault = .failure f := by
  cases setting with
  | attr op name literal =>
    refine fault_failing (fun cause hcause => ?_) h
    split at hcause
    · cases hcause
      exact ⟨_, rfl⟩
    · split at hcause
      · cases hcause
        exact ⟨_, rfl⟩
      · split at hcause <;> cases hcause
        exact ⟨_, rfl⟩
  | precision op precision =>
    refine fault_failing (fun cause hcause => ?_) h
    split at hcause
    · cases hcause
      exact ⟨_, rfl⟩
    · split at hcause <;> cases hcause
      exact ⟨_, rfl⟩
  | layout src dst layout =>
    refine fault_failing (fun cause hcause => ?_) h
    split at hcause
    · cases hcause
      exact ⟨_, rfl⟩
    · split_ifs at hcause
      · cases hcause
        exact ⟨_, rfl⟩
      · split at hcause <;> cases hcause
        exact ⟨_, rfl⟩
  | varScale var scale =>
    unfold set setVarScale at h
    dsimp only at h
    split_ifs at h
    refine fault_failing (fun cause hcause => ?_) h
    rcases bind_eq_error.1 hcause with hcause | ⟨c, -, hcause⟩
    · exact fault_scaleVar hcause
    · cases hcause
  | weightsScale op scales isBias =>
    refine fault_failing (fun cause hcause => ?_) h
    split_ifs at hcause
    · cases hcause
      exact ⟨_, rfl⟩
    · split at hcause <;> cases hcause
      exact ⟨_, rfl⟩

/-- Whatever is asked of a network alone, it does not abort. -/
lemma fault_request {q : Request} {e : Error} (h : n.request q = .error e) : ∃ f, e.toFault = .failure f := by
  cases q with
  | addOp name type inputs outputs =>
    refine fault_failing (fun cause hcause => ?_) h
    by_cases hs : n.state ≠ .building
    · rw [if_pos hs] at hcause
      cases hcause
      exact ⟨_, rfl⟩
    rw [if_neg hs] at hcause
    by_cases ht : type = ""
    · rw [if_pos ht] at hcause
      cases hcause
      exact ⟨_, rfl⟩
    rw [if_neg ht] at hcause
    dsimp only at hcause
    split at hcause
    · cases hcause
    · cases hcause
      exact Graph.fault_insertNode ‹_›
  | declareVar var =>
    refine fault_failing (fun cause hcause => ?_) h
    split_ifs at hcause <;> cases hcause <;> exact ⟨_, rfl⟩
  | declareOut src dst =>
    refine fault_failing (fun cause hcause => ?_) h
    split_ifs at hcause <;> cases hcause
    exact ⟨_, rfl⟩
  | declareAllOuts =>
    refine fault_failing (fun cause hcause => ?_) h
    split_ifs at hcause <;> cases hcause
    exact ⟨_, rfl⟩
  | freeze =>
    refine fault_failing (fun cause hcause => ?_) h
    split_ifs at hcause
    · cases hcause
      exact ⟨_, rfl⟩
    · rcases bind_eq_error.1 hcause with hcause | ⟨r, -, hcause⟩
      · exact fault_resolve hcause
      · cases hcause
  | set setting => exact fault_set h

/-- A request leaves the blocks of a network alone. -/
lemma blocks_request {q : Request} (h : n.request q = .ok m) : m.blocks = n.blocks := by
  cases answers_request h with
  | frozen hm =>
    obtain ⟨-, graph, order, calibration, -, rfl⟩ := freeze_eq hm
    rfl
  | _ => rfl

end Network

/-! ### Parts -/

/-- A part of a model fails with a failure if its cause is one. -/
lemma Model.fault_part {p : Model.Part} {cause : Model.Cause} (h : ∃ f, cause.toFault = .failure f) :
    ∃ f, (Model.Error.part p cause).toFault = .failure f := by
  obtain ⟨f, hf⟩ := h
  unfold Model.Error.toFault
  dsimp only
  rw [hf]
  cases p.text? with
  | none => exact ⟨_, rfl⟩
  | some text => exact ⟨_, rfl⟩

namespace Workspace

variable {P : Workspace → Prop} {α β : Type} {w w' : Workspace}

/-- Wherever `P` holds, it holds after something was built or could not be built, and that does not abort. -/
def Keeps (P : Workspace → Prop) (x : Builder α) : Prop :=
  ∀ w, P w → P (x.run.run w).2 ∧ ∀ e, (x.run.run w).1 = .error e → ∃ f, e.toFault = .failure f

section Runs

variable {x : Builder α} {f : α → Builder β} {p : Model.Part} {g : Workspace → Except Network.Error Workspace}

/-- Reading the workspace first runs what follows on it. -/
lemma run_get_bind (f : Workspace → Builder α) (w : Workspace) : (get >>= f).run.run w = (f w).run.run w :=
  rfl

/-- Setting the workspace first runs what follows on the new one. -/
lemma run_set_bind (w' : Workspace) (f : PUnit → Builder α) (w : Workspace) :
    (set w' >>= f).run.run w = (f ⟨⟩).run.run w' :=
  rfl

/-- What follows a step that succeeds runs on what it left. -/
lemma run_bind_ok {a : α} (h : x.run.run w = (.ok a, w')) : (x >>= f).run.run w = (f a).run.run w' := by
  rw [ExceptT.run_bind, StateT.run_bind, h]
  rfl

/-- A step that fails ends the run. -/
lemma run_bind_error {e : Model.Error} (h : x.run.run w = (.error e, w')) : (x >>= f).run.run w = (.error e, w') := by
  rw [ExceptT.run_bind, StateT.run_bind, h]
  rfl

/-- A part that can be added changes the workspace as it should. -/
lemma run_part_ok (h : g w = .ok w') : (part p g).run.run w = (.ok (), w') := by
  rw [part, run_get_bind, h]
  rfl

/-- A part that cannot be added leaves the workspace alone. -/
lemma run_part_error {e : Network.Error} (h : g w = .error e) :
    (part p g).run.run w = (.error (.part p (.network e)), w) := by
  rw [part, run_get_bind, h]
  rfl

end Runs

namespace Keeps

/-- Giving a result keeps what holds. -/
lemma pure (a : α) : Keeps P (pure a : Builder α) := by
  refine fun _ hw => ⟨hw, fun e h => ?_⟩
  cases h

/-- Failing with a failure keeps what holds. -/
lemma throw {e : Model.Error} (he : ∃ f, e.toFault = .failure f) : Keeps P (throw e : Builder α) := by
  refine fun _ hw => ⟨hw, fun e' h => ?_⟩
  cases h
  exact he

/-- One step after the other keeps what both of them keep. -/
lemma bind {x : Builder α} {f : α → Builder β} (hx : Keeps P x) (hf : ∀ a, Keeps P (f a)) : Keeps P (x >>= f) := by
  intro w hw
  obtain ⟨hw', he⟩ := hx w hw
  cases hrun : x.run.run w with
  | mk res w' =>
    rw [hrun] at hw' he
    cases res with
    | ok a =>
      rw [run_bind_ok hrun]
      exact hf a w' hw'
    | error e =>
      rw [run_bind_error hrun]
      refine ⟨hw', fun e' h => ?_⟩
      cases h
      exact he e rfl

/-- A step for each of a list keeps what every one of them keeps. -/
lemma forM {f : α → Builder Unit} (hf : ∀ x, Keeps P (f x)) (xs : List α) : Keeps P (xs.forM f) := by
  induction xs with
  | nil => exact .pure ()
  | cons x xs ih => exact (hf x).bind fun _ => ih

/-- A part keeps what it keeps when it can be added, and fails with a failure when it cannot. -/
lemma part {p : Model.Part} {f : Workspace → Except Network.Error Workspace}
    (hok : ∀ {w w'}, P w → f w = .ok w' → P w')
    (herr : ∀ {w e}, P w → f w = .error e → ∃ x, e.toFault = .failure x) : Keeps P (Workspace.part p f) := by
  intro w hw
  cases hf : f w with
  | ok w' =>
    rw [run_part_ok hf]
    refine ⟨hok hw hf, fun e h => ?_⟩
    cases h
  | error e =>
    rw [run_part_error hf]
    refine ⟨hw, fun e' h => ?_⟩
    cases h
    exact Model.fault_part (herr hw hf)

end Keeps

/-- What a network refers to is new. -/
def Lends (d₀ : Depot) (r : NetworkRef) (w : Workspace) : Prop :=
  ∃ n, w.network? r = some n ∧ d₀.Borrows n.blocks w.depot

section Lends

variable {d₀ : Depot} {r : NetworkRef}

/-- A request to the network that is built leaves what the network refers to new. -/
lemma keeps_request (p : Model.Part) (q : Network.Request) :
    Keeps (Lends d₀ r) (networkPart r p fun n => n.request q) := by
  refine .part ?_ ?_
  · rintro w w' ⟨n, hn, hb⟩ hok
    obtain ⟨m, hm, rfl⟩ := onNetwork_ok hn hok
    exact ⟨m, network?_setNetwork hn m, Network.blocks_request hm ▸ hb⟩
  · rintro w e ⟨n, hn, -⟩ herr
    unfold onNetwork at herr
    rw [hn] at herr
    rcases bind_eq_error.1 herr with herr | ⟨m, -, herr⟩
    · exact Network.fault_request herr
    · cases herr

/-- Registering a pattern leaves what the network refers to new. -/
lemma keeps_pattern (p : Model.Part) (pattern : Pattern) :
    Keeps (Lends d₀ r) (part p fun w => w.registerNetworkPattern r pattern) := by
  refine .part ?_ ?_
  · rintro w w' ⟨n, hn, hb⟩ hok
    unfold registerNetworkPattern at hok
    rw [hn] at hok
    dsimp only at hok
    split at hok
    · rename_i w₁ hreg
      cases hok
      obtain ⟨l, -, hreg⟩ := bind_eq_ok.1 hreg
      cases hreg
      exact ⟨n, hn, hb⟩
    · cases hok
  · rintro w e ⟨n, hn, -⟩ herr
    unfold registerNetworkPattern at herr
    rw [hn] at herr
    dsimp only at herr
    split at herr
    · cases herr
    · cases herr
      exact ⟨_, rfl⟩

/-- Setting an attribute of an operator leaves what the network refers to new. -/
lemma keeps_buildAttr (convert : Model.Converter) (op : String) (attr : String × Config.Value) :
    Keeps (Lends d₀ r) (buildAttr r convert op attr) := by
  unfold buildAttr
  cases convert attr.2 with
  | error cause => exact .throw (Model.fault_part ⟨cause, rfl⟩)
  | ok v => exact keeps_request _ (.set (.attr op attr.1 (.value v)))

/-- Adding an operator leaves what the network refers to new. -/
lemma keeps_buildOp (convert : Model.Converter) (op : Model.Op) : Keeps (Lends d₀ r) (buildOp r convert op) := by
  have hattrs : Keeps (Lends d₀ r) (op.attrs.entries.forM (buildAttr r convert op.name)) :=
    .forM (keeps_buildAttr convert op.name) _
  refine (keeps_request _ (.addOp op.name op.type op.inputs op.outputs)).bind fun _ => ?_
  split
  · exact (keeps_request _ (.set (.precision op.name op.precision))).bind fun _ => hattrs
  · exact hattrs

/-- A block that cannot be registered is refused with a failure. -/
lemma fault_registerBlock {block : Option BlockRef} {e : Network.Error} (h : w.registerBlock r block = .error e) :
    ∃ f, e.toFault = .failure f := by
  unfold registerBlock at h
  split at h
  · cases h
  · cases h
    exact ⟨_, rfl⟩
  · split at h
    · cases h
      exact ⟨_, rfl⟩
    · split_ifs at h
      · cases h
        exact ⟨_, rfl⟩
      · cases h
        exact ⟨_, rfl⟩

/-- A block that was just made is referred to by nobody and has no owner. -/
lemma make_ok {id op : String} {shape : List Int64} {data : Option (List Float32)} {b : Block}
    (h : Block.make id op shape data = .ok b) : b.refs = 0 ∧ b.owner = none := by
  unfold Block.make at h
  split_ifs at h
  split at h
  · cases h
  · split at h
    · cases h
      exact ⟨rfl, rfl⟩
    · split_ifs at h
      cases h
      exact ⟨rfl, rfl⟩

/-- A block of a model is referred to before it is filed, so that it can be released whether or not it could be
filed. -/
lemma keeps_buildBlock (pool : String) (b : Model.BlockSpec) : Keeps (Lends d₀ r) (buildBlock r pool b) := by
  unfold buildBlock
  cases hmake : Block.make b.id b.op b.shape (b.data.map fun xs => xs.map Float.toFloat32) with
  | error cause => exact .throw (Model.fault_part ⟨_, rfl⟩)
  | ok block =>
    rintro w ⟨n, hn, hb⟩
    rw [run_get_bind]
    dsimp only
    rw [run_set_bind]
    obtain ⟨hrefs, howner⟩ := make_ok hmake
    have hfresh : d₀.block? (w.depot.add block).2 = none := hb.unknown (List.getElem?_length _)
    have hplace := Depot.block?_add w.depot block
    have hadd := hb.add block
    cases hreg : registerBlock { w with depot := (w.depot.add block).1 } r (some (w.depot.add block).2) with
    | error e =>
      rw [run_bind_error (run_part_error hreg)]
      refine ⟨⟨n, hn, hadd⟩, fun e' h => ?_⟩
      cases h
      exact Model.fault_part (fault_registerBlock hreg)
    | ok w₂ =>
      rw [run_bind_ok (run_part_ok hreg), run_get_bind]
      rcases registerBlock_ok hreg with ⟨hnone, -⟩ | ⟨n', c, x, hc, hn', hx, -, rfl⟩
      · cases hn.symm.trans hnone
      · cases hc
        cases hn.symm.trans hn'
        cases hplace.symm.trans hx
        have hretain := hadd.retain hfresh hplace hrefs howner
        have hblock : ((w.depot.add block).1.retain (w.depot.add block).2).block? (w.depot.add block).2 =
            some { block with refs := block.refs + 1 } := by
          rw [Depot.retain, Depot.block?_modify, if_pos rfl, hplace]
          rfl
        dsimp only
        cases hfile : ((w.depot.add block).1.retain (w.depot.add block).2).register (w.depot.add block).2 pool with
        | ok depot =>
          have hfiled := hretain.register (List.mem_append_right _ List.mem_cons_self) hblock howner hfile
          refine ⟨⟨_, network?_setNetwork hn _, hfiled⟩, fun e h => ?_⟩
          cases h
        | error cause =>
          refine ⟨⟨_, network?_setNetwork hn _, hretain⟩, fun e h => ?_⟩
          cases h
          exact Model.fault_part ⟨_, rfl⟩

/-- Whatever the model is, there is one reference to each block that was made, and it is that of the network. -/
lemma keeps_buildParts (m : Model) (pool : Option String) (convert : Model.Converter) :
    Keeps (Lends d₀ r) (buildParts r m pool convert) := by
  have houts : Keeps (Lends d₀ r) (buildOuts r m) := by
    unfold buildOuts
    refine .bind (.forM (fun out => ?_) _) fun _ => ?_
    · exact keeps_request _ (.declareOut out.1 out.2)
    · split
      · exact keeps_request _ .declareAllOuts
      · exact .pure ()
  have hblocks : Keeps (Lends d₀ r) (buildBlocks r m.blocks pool) := by
    cases pool with
    | some pool => exact .forM (keeps_buildBlock pool) _
    | none =>
      unfold buildBlocks
      dsimp only
      split
      · exact .pure ()
      · exact .throw ⟨_, rfl⟩
  unfold buildParts
  refine .bind (.forM (fun p => ?_) _) fun _ => .bind (.forM (fun v => ?_) _) fun _ =>
    .bind (.forM (fun op => ?_) _) fun _ => .bind houts fun _ => .bind (.forM (fun s => ?_) _) fun _ =>
    .bind (.forM (fun s => ?_) _) fun _ => .bind hblocks fun _ => .bind ?_ fun _ => .forM (fun l => ?_) _
  · exact keeps_pattern _ p.pattern
  · exact keeps_request _ (.declareVar v)
  · exact keeps_buildOp convert op
  · exact keeps_request _ (.set (.varScale s.var s.scale.toFloat32))
  · exact keeps_request _ (.set (.weightsScale s.op (s.scales.map Float.toFloat32) s.isBias))
  · exact keeps_request _ .freeze
  · exact keeps_request _ (.set (.layout l.src l.dst l.value))

end Lends

/-! ### Builds -/

/-- The network of a model starts without blocks, and none are lent to it. -/
lemma lends_startBuild (w : Workspace) (m : Model) (options : BuildOptions) :
    Lends w.depot (w.startBuild m options).2 (w.startBuild m options).1 := by
  have hn : ∀ name library, ∃ l, (w.newNetwork name library).1.network? (w.newNetwork name library).2 =
    some (.new name l) ∧
      (w.newNetwork name library).1.depot = w.depot := by
    intro name library
    cases library with
    | none => exact ⟨_, List.getElem?_concat_length, rfl⟩
    | some l => exact ⟨l, List.getElem?_concat_length, rfl⟩
  unfold startBuild
  dsimp only
  obtain ⟨l, hnew, hdepot⟩ := hn (if m.name = "" then Model.defaultName else m.name) options.library
  rw [hnew]
  refine ⟨_, network?_setNetwork hnew _, ?_⟩
  have hsame : ∀ n, ((w.newNetwork (if m.name = "" then Model.defaultName else m.name) options.library).1.setNetwork
      (w.newNetwork (if m.name = "" then Model.defaultName else m.name) options.library).2 n).depot = w.depot :=
    fun _ => hdepot
  rw [hsame]
  exact .refl _

/-- To clean the network is enough to take back what was built. -/
lemma Lends.clean {d₀ : Depot} {r : NetworkRef} (h : Lends d₀ r w) :
    (w.clean r).2 = none ∧ (∀ p, (w.clean r).1.depot.pool p = d₀.pool p) ∧
      ∀ {c b}, d₀.block? c = some b → (w.clean r).1.depot.block? c = some b := by
  obtain ⟨n, hn, hb⟩ := h
  obtain ⟨d, hd, hpool, hblock⟩ := hb.releaseAll
  unfold Workspace.clean
  rw [hn]
  dsimp only
  rw [hd]
  exact ⟨rfl, hpool, hblock⟩

/-- A build that fails reports why, and it leaves no trace: every pool has the blocks that it had before, and all blocks
are as they were. -/
theorem build_error {w w' : Workspace} {m : Option Model} {pool : Option String} {options : BuildOptions}
    {convert : Model.Converter} {fault : Fault} (h : w.build m pool options convert = (w', .error fault)) :
    (∃ f, fault = .failure f) ∧ (∀ p, w'.depot.pool p = w.depot.pool p) ∧
      ∀ c b, w.depot.block? c = some b → w'.depot.block? c = some b := by
  cases m with
  | none =>
    cases h
    exact ⟨⟨_, rfl⟩, fun _ => rfl, fun _ _ hb => hb⟩
  | some m =>
    obtain ⟨hlends, hfault⟩ := keeps_buildParts m pool convert _ (lends_startBuild w m options)
    unfold build at h
    dsimp only at h
    generalize (buildParts (w.startBuild m options).2 m pool convert).run.run (w.startBuild m options).1 =
      run at h hlends hfault
    obtain ⟨result, w₁⟩ := run
    cases result with
    | ok a => cases h
    | error e =>
      obtain ⟨f, hf⟩ := hfault e rfl
      obtain ⟨hnone, hpool, hblock⟩ := hlends.clean
      unfold endBuild at h
      dsimp only at h
      rw [hf] at h
      dsimp only at h
      cases hclean : w₁.clean (w.startBuild m options).2 with
      | mk w₂ abort =>
        rw [hclean] at h hnone hpool hblock
        cases hnone
        cases h
        exact ⟨⟨f, rfl⟩, hpool, fun _ _ => hblock⟩

/-- A pool with a block that is referred to. -/
def stocked : Workspace where
  depot := {
    blocks := [⟨"a", "", [], none, 1, some "pool"⟩]
    pools := Dict.insert {} "pool" (Dict.insert {} "a" 0) }

/-- A model with two blocks, the second of which has a name that the pool has already. -/
def overstock : Model where
  ops := [{ name := "relu", type := "relu" }]
  blocks := [⟨"b", "relu", [], none⟩, ⟨"a", "relu", [], none⟩]

/-- The first block of the model has been filed when the second can not be. The pool has only the block that it had. -/
theorem build_error_overstock : ∃ w' fault, stocked.build (some overstock) (some "pool") {} = (w', .error fault) ∧
    (∃ f, fault = .failure f) ∧ (w'.depot.pool "pool").entries = [("a", 0)] ∧
    w'.depot.block? 0 = some ⟨"a", "", [], none, 1, some "pool"⟩ := by
  obtain ⟨w', fault, h⟩ : ∃ w' fault, stocked.build (some overstock) (some "pool") {} = (w', .error fault) :=
    ⟨_, _, rfl⟩
  obtain ⟨hfault, hpool, hblock⟩ := build_error h
  refine ⟨w', fault, h, hfault, ?_, hblock 0 _ rfl⟩
  rw [hpool]
  rfl

end Workspace

end OpGraph
