import Mathlib
import OpGraph.Proofs.Kernel
import OpGraph.Proofs.Workspace

/-!
# Networks that stay runnable

The engine changes what consumers of a dropped node read, adds fused nodes, and respells the texts of pins. None of this
matters to kernels, but for the type and the precision of a fused node, which are the name of a pattern and the
precision of the first member. So a network that can run can still run once it is optimized.
-/

namespace OpGraph

open Kernel (Registry)

namespace Sandbox

variable {P : Node → Prop} {s t : Sandbox}

/-! ### What the engine does to nodes -/

/-- A pinned node with another pin differs in a text. -/
lemma alike_repin {n : Node} {old : String} (h : pin? n = some old) (text : String) : n.Alike (repin n text) := by
  refine ⟨rfl, rfl, fun name => ?_⟩
  obtain ⟨v, hv, hstring⟩ := pin?_eq_some_iff.1 h
  by_cases hname : name = layoutAttr
  · subst hname
    cases v with
    | string a => exact .inr ⟨a, text, hv, by simp [repin]⟩
    | _ => cases hstring
  · exact .inl (by simp [repin, hname])

/-- A property of nodes that depends on what kernels read of them only, and that a fused node has if the first of its
members has it. -/
structure Robust (P : Node → Prop) (patterns : List Pattern) : Prop where
  alike : ∀ {n n' : Node}, n.Alike n' → P n → P n'
  fused : ∀ p ∈ patterns, ∀ c ∈ p.ops, ∀ {m n : Node}, P m → m.type = c.type → n.type = p.name →
    n.precision = m.precision → P n

namespace Robust

variable {patterns : List Pattern}

/-- A drop leaves a robust property of all nodes. -/
lemma drop (hP : Robust P patterns) (h : AllNodes P s) {name : String} (hok : s.drop name = .ok t) : AllNodes P t :=
  h.drop (fun _ _ => hP.alike (.of_attrs rfl rfl rfl)) hok

/-- The fused node has the precision of the first member, which fits the first constraint. -/
lemma merge (hP : Robust P patterns) (h : AllNodes P s) {p : Pattern} (hp : p ∈ patterns) {head : String}
    {members : List String} (hfind : Engine.find s head p = .chain members) {name pattern : String} {f : Node}
    (hok : s.merge members name p.name pattern = .ok (t, f)) : AllNodes P t := by
  obtain ⟨hm, hf, rfl⟩ := merge_ok_iff.1 hok
  obtain ⟨hhead, hchain⟩ := (Engine.find_eq_chain_iff (Engine.ops_ne_nil hfind hm.two)).1 hfind
  -- the first member is what the precision is taken from
  obtain ⟨m, hnode, c, hc, htype⟩ := hchain.node_of_mem (List.mem_of_head? hhead)
  have hfirst : (s.nodesOf members).head? = some m := by
    obtain ⟨rest, rfl⟩ := List.head?_eq_some_iff.1 hhead
    rw [nodesOf, List.filterMap_cons, hnode]
    rfl
  obtain ⟨attrs, -, rfl⟩ := fusedNode_ok_iff.1 hf
  apply h.contract
  apply hP.fused p hp c hc (h.of_node? hnode) htype rfl
  rw [hfirst]
  rfl

/-- A step leaves a robust property of all nodes. -/
lemma step {e : Engine} (hP : Robust P e.patterns) (h : AllNodes P s) {ed : Edit} (hs : e.Step s ed t) :
    AllNodes P t := by
  cases hs with
  | drop hok => exact hP.drop h hok
  | merge hp hfind hok => exact hP.merge h hp hfind hok

/-- A run leaves a robust property of all nodes. -/
lemma runs {e : Engine} (hP : Robust P e.patterns) (h : AllNodes P s) {trace : List (Sandbox × Edit)}
    (hr : e.Runs s trace t) : AllNodes P t :=
  hr.induct h fun _ _ _ hs hstep => hP.step hs hstep

/-- Normalizing leaves a robust property of all nodes. -/
lemma normalize (hP : Robust P patterns) (h : AllNodes P s) (known : Dict Layout) :
    AllNodes P (s.normalize known).1 := by
  apply normalize_induct _ h
  intro u n hn old text t hpin hu ht
  exact hu.updateNode (hP.alike (alike_repin hpin text) (h n hn)) ht

end Robust

end Sandbox

/-! ### Optimizations -/

namespace Network

open Sandbox

variable {P : Node → Prop} {n m : Network} {l : Library}

/-- The nodes of the graph that a commit leaves are those of the graph before or those of the sandbox. -/
lemma Commits.allNodes {t : Sandbox} {g : Graph} (h : n.Commits t g) (hn : ∀ v ∈ n.graph.nodes, P v)
    (ht : AllNodes P t) :
    ∀ v ∈ g.nodes, P v := by
  rcases h with ⟨-, rfl⟩ | h
  · exact hn
  · intro v hv
    rcases h.patched.node (h.wellFormed.mem_nodes_iff.1 hv) with hold | ⟨q, hq, rfl⟩ | hreplaced
    · obtain ⟨x, hx, rfl⟩ := Option.map_eq_some_iff.1 hold
      exact hn x.val (List.mem_map_of_mem (Digraph.mem_of_vertex? hx))
    · obtain ⟨k, -, hk⟩ := List.mem_filterMap.1 hq
      obtain ⟨x, hx, rfl⟩ := Option.map_eq_some_iff.1 hk
      exact ht x.val (List.mem_map_of_mem (Digraph.mem_of_vertex? hx))
    · obtain ⟨x, hx, rfl⟩ := List.mem_map.1 hreplaced
      exact ht x.val (List.mem_map_of_mem (List.mem_of_mem_filter hx))

/-- An optimization keeps what fusing keeps of all nodes. -/
lemma allNodes_optimize (hc : Current n) (hP : Robust P l.byPriority) (hn : ∀ v ∈ n.graph.nodes, P v) {fusion : Bool}
    {ord : RenameOrder} {st : Stats} (h : n.optimize l fusion ord = (m, .done st)) : ∀ v ∈ m.graph.nodes, P v := by
  have ha := attempts_optimize hc.wellFormed hc.sound l fusion ord
  rw [h] at ha
  cases ha with
  | done hs hd hcommit ho =>
    obtain ⟨trace, hruns, -⟩ := (draft_ok hd).2.runs
    have hcopy : AllNodes P (Sandbox.copy n.graph none) := .copy hn none
    have hrun := Robust.runs (e := n.engine l) hP hcopy hruns
    have hg := hcommit.allNodes hn (hP.normalize hrun _)
    cases fusion with
    | true => exact hg
    | false => exact hg

end Network

namespace Workspace

open Sandbox

variable {w : Workspace} {r : NetworkRef} {n : Network}

/-- Whatever a registry with the standard kernels and manifests that agree with them asks of a node, it asks of fused
nodes nothing that it did not ask of their first members. -/
lemma robust_standard {ms : List Manifest} (hr : (Registry.standard.describe ms).check = .ok ()) (target : String) :
    Robust (fun v => (Registry.standard.describe ms).checkNode target v = []) Library.standard.byPriority where
  alike := Registry.checkNode_alike
  fused := by
    intro p hp c hc m f hm hmt hft hq
    exact (Registry.covers_standard ms).checkNode_fused hr (Library.mem_byPriority.1 hp) hc hm hmt hft hq

/-- A network that uses the standard library and can run on a target can still run on it after it was optimized, on all
registries of the standard kernels and manifests that agree with them. -/
theorem runnable_of_optimize (h : Becomes {} w) (hn : w.network? r = some n) (hl : w.library n.library = .standard)
    {ms : List Manifest} (hr : (Registry.standard.describe ms).check = .ok ()) {target : String}
    (hv : (Registry.standard.describe ms).checkNodes n.graph.nodes target = .ok ()) {ord : RenameOrder} {st : Stats}
    (ho : (w.optimize r true ord quiet).2.1 = .done st) :
    ∃ m, (w.optimize r true ord quiet).1.network? r = some m ∧
      (Registry.standard.describe ms).checkNodes m.graph.nodes target = .ok () := by
  have hc := h.current hn
  rw [optimize_quiet hc hn, hl] at ho ⊢
  cases hopt : n.optimize .standard true ord with
  | mk m outcome =>
    rw [hopt] at ho
    cases ho
    refine ⟨m, network?_setNetwork hn m, ?_⟩
    rw [Registry.checkNodes_ok_iff] at hv ⊢
    exact Network.allNodes_optimize hc (robust_standard hr target) hv hopt

/-- A convolution at half precision, whose activation can be fused with it once the operator between them is dropped,
and a pinned operator behind them. -/
def halved : Workspace :=
  ((newNetwork {} "net" none).1).asked 0 [
    .addOp "c" "conv" [] ["x"], .addOp "d" "Dropout" ["x"] ["y"], .addOp "r" "relu" ["y"] ["z"],
    .addOp "s" "softmax" ["z"] [],
    .set (.attr "c" "kernel" (.ints .int64 (some [3, 3]))), .set (.precision "c" "fp16"),
    .set (.attr "s" "layout" (.string "nc")), .freeze]

/-- Manifests of a plain and a fused operator. -/
def described : List Manifest := [
  { op := "relu", target := "cpu", precisions := ["fp16"],
    params := .ofList [("slope", { name := "slope", type := .number, isOptional := true })] },
  { op := "fused_cr", target := "cpu", precisions := ["int8"] }]

/-- The network of `halved` can run on the processor, and still can once the dropout is dropped and the chain is fused.
-/
theorem runnable_of_optimize_halved : ∃ n m, halved.network? 0 = some n ∧ n.graph.names = ["c", "d", "r", "s"] ∧
    (Registry.standard.describe described).checkNodes n.graph.nodes "cpu" = .ok () ∧
    (halved.optimize 0 true .ascending quiet).1.network? 0 = some m ∧ m.graph.names = ["fused_cr", "s"] ∧
    (Registry.standard.describe described).checkNodes m.graph.nodes "cpu" = .ok () := by
  have hw : Becomes {} halved := ((Becomes.refl {}).newNetwork "net" none).asked 0 _
  have hr : (Registry.standard.describe described).check = .ok () := by
    have hall : ∀ e ∈ (Registry.standard.describe described).manifests,
        ((Registry.standard.describe described).checkManifest e.1 e.2).isEmpty := by decide +kernel
    exact Registry.check_ok_iff.2 fun e he => List.isEmpty_iff.1 (hall e he)
  have hrun : (halved.network? 0).any fun n => decide (n.graph.names = ["c", "d", "r", "s"]) &&
      decide (halved.library n.library = .standard) &&
      ((Registry.standard.describe described).checkNodes n.graph.nodes "cpu").toOption.isSome &&
      (halved.optimize 0 true .ascending quiet).2.1.done?.isSome := by
    decide +kernel
  have hnames : ((halved.optimize 0 true .ascending quiet).1.network? 0).map (·.graph.names) =
    some ["fused_cr", "s"] := by decide +kernel
  obtain ⟨n, hn, hrun⟩ := (Option.any_eq_true _ _).1 hrun
  simp only [Bool.and_eq_true, decide_eq_true_eq, Option.isSome_iff_exists] at hrun
  obtain ⟨⟨⟨hfour, hl⟩, ⟨_, hok⟩⟩, st, hst⟩ := hrun
  have hv := eq_ok_of_toOption hok
  obtain ⟨m, hm, hv'⟩ := runnable_of_optimize hw hn hl hr hv (Network.Outcome.eq_done hst)
  rw [hm] at hnames
  exact ⟨n, m, hn, hfour, hv, hm, Option.some.inj hnames, hv'⟩

end Workspace

end OpGraph
