import Mathlib
import OpGraph.Proofs.Sandbox.Histories

/-!
# Merging is contracting

A merge looks for a path that leaves its members and comes back by asking, for each edge out of them, whether its end
reaches the start of an edge into them. It refuses exactly the sets whose contraction closes a cycle, and what it makes
of the others is the contraction: no edge that it moves is lost.
-/

namespace OpGraph

open Relation

namespace Digraph

/-! ### Cycles of a contraction -/

section Contraction

variable {γ : Type} {r : γ → γ → Prop} {M : γ → Prop} {f : γ}

/-- A path that starts outside of the contracted set is a path of the contracted relation as far as it stays outside. -/
lemma Contracted.follow {y z : γ} (hy : ¬ M y) (h : ReflTransGen r y z) :
    (¬ M z ∧ ReflTransGen (Contracted r M f) y z) ∨ ReflTransGen (Contracted r M f) y f := by
  induction h with
  | refl => exact .inl ⟨hy, .refl⟩
  | @tail z w _ hzw ih =>
    cases ih with
    | inl ih =>
      by_cases hw : M w
      · exact .inr (ih.2.tail (.inr (.inl ⟨ih.1, rfl, w, hw, hzw⟩)))
      · exact .inl ⟨hw, ih.2.tail (.inl ⟨ih.1, hw, hzw⟩)⟩
    | inr ih => exact .inr ih

/-- A path that leaves the contracted set and comes back is a cycle of the contracted relation, even if it goes through
the set in between. -/
lemma Contracted.cycle {m y x m' : γ} (hm : M m) (hy : ¬ M y) (hmy : r m y) (hpath : ReflTransGen r y x) (hx : ¬ M x)
    (hm' : M m') (hxm : r x m') : TransGen (Contracted r M f) f f := by
  have hfy : Contracted r M f f y := .inr (.inr ⟨rfl, hy, m, hm, hmy⟩)
  cases follow hy hpath with
  | inl h => exact .head' hfy (h.2.tail (.inr (.inl ⟨hx, rfl, m', hm', hxm⟩)))
  | inr h => exact .head' hfy h

end Contraction

/-- An arc is found between two vertices exactly if it is an arc and these are its ends. -/
lemma WellFormed.arc?_eq_some_iff {α β : Type} {g : Digraph α β} (wf : g.WellFormed) {x y : String} {a : Arc β} :
    g.arc? x y = some a ↔ a ∈ g.arcs ∧ a.src = x ∧ a.dst = y := by
  constructor
  · intro h
    exact ⟨mem_of_arc? h, ends_of_arc? h⟩
  · rintro ⟨ha, rfl, rfl⟩
    exact wf.arc?_of_mem ha

end Digraph

namespace Sandbox

/-! ### What a merge checks -/

/-- What the arguments of a merge, the anchors and the registered edges have to satisfy. -/
structure Admissible (s : Sandbox) (names : List String) (fused : String) : Prop where
  isOpen : s.committed = false
  two : 2 ≤ names.length
  free : ¬ s.taken.contains fused
  nodup : names.Nodup
  live : ∀ m ∈ names, m ∈ s.names
  inside : ∀ m ∈ names, ¬ s.isAnchor m
  unregistered : ∀ e ∈ s.inner names, ¬ s.isRegistered e.id

/-- An edge out of the given nodes leads to where an edge into them starts. -/
def Returns (s : Sandbox) (names : List String) : Prop :=
  ∃ e ∈ s.outbound names, ∃ i ∈ s.inbound names, s.dag.reachable e.dst i.src

namespace Admissible

variable {s : Sandbox} {names : List String} {fused : String}

/-- Admissible members that no path returns to can be contracted. -/
lemma contractible (h : s.Admissible names fused) (hr : ¬ s.Returns names) : s.Contractible names fused :=
  ⟨h.isOpen, h.two, h.free, h.nodup, h.live, h.inside, h.unregistered,
    fun e he i hi hreach => hr ⟨e, he, i, hi, hreach⟩⟩

/-- A merge of admissible members that a path returns to is refused for the cycle. -/
lemma merge_of_returns (h : s.Admissible names fused) (hr : s.Returns names) (type pattern : String) :
    ∃ via, s.merge names fused type pattern = .error (.mergeCycle names via) := by
  obtain ⟨e, he, i, hi, hreach⟩ := hr
  have hm : s.checkMembers [] names = .ok () :=
    checkMembers_ok_iff.2 ⟨h.nodup, fun m hm => ⟨h.live m hm, h.inside m hm, List.not_mem_nil⟩⟩
  have hin : (s.inner names).find? (fun e => s.isRegistered e.id) = none := List.find?_eq_none.2 h.unregistered
  obtain ⟨e', he'⟩ : ∃ e',
    (s.outbound names).find? (fun e => (s.inbound names).any fun i => s.dag.reachable e.dst i.src) =
      some e' := Option.isSome_iff_exists.1 (List.find?_isSome.2 ⟨e, he, List.any_eq_true.2 ⟨i, hi, hreach⟩⟩)
  rw [merge_eq, if_neg (by simp [h.isOpen]), if_neg (by have := h.two; omega), if_neg h.free, hm, hin, he']
  exact ⟨e'.dst, rfl⟩

/-- A merge of admissible members that no path returns to succeeds if their attributes go together. -/
lemma merge_of_not_returns (h : s.Admissible names fused) (hr : ¬ s.Returns names) {attrs : Attribute.Store}
    (ha : s.fusedAttrs names = .ok attrs) (type pattern : String) :
    ∃ n, n.name = fused ∧ s.merge names fused type pattern =
      .ok (s.contract names n (s.provenance names fused pattern), n) := by
  obtain ⟨n, hn⟩ : ∃ n, s.fusedNode names fused type = .ok n := ⟨_, fusedNode_ok_iff.2 ⟨attrs, ha, rfl⟩⟩
  exact ⟨n, fusedNode_name hn, merge_ok_iff.2 ⟨h.contractible hr, hn, rfl⟩⟩

/-- The search finds a way back exactly when the contraction closes a cycle. -/
lemma returns_iff {g : Graph} {o : Sandbox} (h : s.Admissible names fused) (hs : Roster g o s) :
    s.Returns names ↔ ∃ x, TransGen (Digraph.Contracted s.dag.Adj (· ∈ names) fused) x x := by
  constructor
  · rintro ⟨e, he, i, hi, hreach⟩
    obtain ⟨hea, hes, hed⟩ := hs.mem_outbound.1 he
    obtain ⟨hia, his, hid⟩ := hs.mem_inbound.1 hi
    exact ⟨fused, Digraph.Contracted.cycle hes hed (Digraph.hasArc_of_mem hea)
      (hs.wellFormed.proper.reachable_iff.1 hreach).2 his hid (Digraph.hasArc_of_mem hia)⟩
  · rintro ⟨x, hx⟩
    by_contra hr
    exact hs.contracted_acyclic (h.contractible hr) x hx

end Admissible

/-! ### What a merge makes of a sandbox -/

/-- `t` is `s` with the nodes `names` contracted to the one node `fused`. -/
structure Contraction (s : Sandbox) (names : List String) (fused : String) (t : Sandbox) : Prop where
  nodes : ∀ k, k ∈ t.names ↔ (k ∈ s.names ∧ k ∉ names) ∨ k = fused
  place : ∀ m ∈ names.head?, t.dag.seq? fused = s.dag.seq? m
  others : ∀ k, k ≠ fused → k ∉ names → t.dag.vertex? k = s.dag.vertex? k
  between : ∀ x y, x ≠ fused → y ≠ fused → x ∉ names → y ∉ names → t.dag.arc? x y = s.dag.arc? x y
  into : ∀ x, t.dag.hasArc x fused ↔ x ∉ names ∧ ∃ m ∈ names, s.dag.hasArc x m
  outOf : ∀ y, t.dag.hasArc fused y ↔ y ∉ names ∧ ∃ m ∈ names, s.dag.hasArc m y
  away : ∀ m ∈ names, ∀ x, ¬ t.dag.hasArc m x ∧ ¬ t.dag.hasArc x m
  wellFormed : t.dag.WellFormed
  acyclic : t.dag.Acyclic

/-- What a merge makes of the nodes that it accepts is their contraction. -/
lemma Roster.contraction {g : Graph} {o s : Sandbox} {names : List String} {n : Node} (hs : Roster g o s)
    (hm : s.Contractible names n.name) (record : MergeRecord) :
    Contraction s names n.name (s.contract names n record) := by
  have hvertex := hs.vertex?_contract hm record
  have harc : ∀ {x y}, (s.contract names n record).dag.hasArc x y ↔ _ := hs.hasArc_contract hm record
  have hfresh : n.name ∉ s.dag.keys := fun hk => hm.free (hs.live_taken _ hk)
  have hmembers : n.name ∉ names := fun hmem => hfresh (hm.live _ hmem)
  have hnone : ∀ x, ¬ s.dag.hasArc x n.name ∧ ¬ s.dag.hasArc n.name x := fun x =>
    ⟨fun hx => hfresh (Digraph.hasVertex_iff.1 (hs.wellFormed.hasVertex_dst hx)),
      fun hx => hfresh (Digraph.hasVertex_iff.1 (hs.wellFormed.hasVertex_src hx))⟩
  have hroster := hs.contract hm record
  refine ⟨fun k => ?_, fun m hmem => ?_, fun k hk hn => ?_, fun x y hx hy hxn hyn => ?_, fun x => ?_, fun y => ?_,
    fun m hmem x => ⟨fun hx => ?_, fun hx => ?_⟩, hroster.wellFormed, hroster.acyclic⟩
  · exact (mem_keys_contract hs hm record).trans or_comm
  · rw [Option.mem_def] at hmem
    have hlive := hm.live m (List.mem_of_mem_head? hmem)
    obtain ⟨v, hv⟩ := Digraph.hasVertex_iff_exists.1 (Digraph.hasVertex_iff.2 hlive)
    have hseq : s.dag.seq? m = some v.seq := by rw [Digraph.seq?, hv]; rfl
    rw [Digraph.seq?, hvertex, if_pos rfl, hmem, Option.bind_some, hseq]
    rfl
  · rw [hvertex, if_neg hk, if_neg hn]
  · apply Option.ext
    intro a
    rw [hroster.wellFormed.arc?_eq_some_iff, hs.wellFormed.arc?_eq_some_iff]
    constructor
    · rintro ⟨ha, rfl, rfl⟩
      rcases hs.arcs_contract hm record ha with ha | ⟨e, -, rfl⟩ | ⟨e, -, rfl⟩
      · exact ⟨ha.1, rfl, rfl⟩
      · exact absurd rfl hy
      · exact absurd rfl hx
    · rintro ⟨ha, rfl, rfl⟩
      exact ⟨hs.kept_contract hm record ha hxn hyn, rfl, rfl⟩
  · rw [harc]
    constructor
    · rintro (⟨-, -, hx⟩ | ⟨hx, -, h⟩ | ⟨-, -, m, -, hx⟩)
      · exact absurd hx (hnone x).1
      · exact ⟨hx, h⟩
      · exact absurd hx (hnone m).1
    · exact fun h => .inr (.inl ⟨h.1, rfl, h.2⟩)
  · rw [harc]
    constructor
    · rintro (⟨-, -, hy⟩ | ⟨-, -, m, -, hy⟩ | ⟨-, hy, h⟩)
      · exact absurd hy (hnone y).2
      · exact absurd hy (hnone m).2
      · exact ⟨hy, h⟩
    · exact fun h => .inr (.inr ⟨rfl, h.1, h.2⟩)
  · rcases harc.1 hx with ⟨hm, -⟩ | ⟨hm, -⟩ | ⟨rfl, -⟩
    · exact hm hmem
    · exact hm hmem
    · exact hmembers hmem
  · rcases harc.1 hx with ⟨-, hm, -⟩ | ⟨-, rfl, -⟩ | ⟨-, hm, -⟩
    · exact hm hmem
    · exact hmembers hmem
    · exact hm hmem

/-- A merge that passes its other checks fails for a cycle exactly when the contraction of its members has one, and
otherwise it makes the sandbox that contraction. -/
theorem merge_exact {s : Sandbox} (h : s.Derived) {names : List String} {fused : String} (ha : s.Admissible names fused)
    {attrs : Attribute.Store} (hattrs : s.fusedAttrs names = .ok attrs) (type pattern : String) :
    ((∃ via, s.merge names fused type pattern = .error (.mergeCycle names via)) ↔
      ∃ x, TransGen (Digraph.Contracted s.dag.Adj (· ∈ names) fused) x x) ∧
    ((∀ x, ¬ TransGen (Digraph.Contracted s.dag.Adj (· ∈ names) fused) x x) →
      ∃ t n, s.merge names fused type pattern = .ok (t, n) ∧ Contraction s names fused t) := by
  obtain ⟨g, o, hs⟩ := h.account
  rw [← ha.returns_iff hs]
  constructor
  · refine ⟨fun herr => ?_, fun hr => ha.merge_of_returns hr type pattern⟩
    by_contra hr
    obtain ⟨via, herr⟩ := herr
    obtain ⟨n, -, hok⟩ := ha.merge_of_not_returns hr hattrs type pattern
    rw [hok] at herr
    cases herr
  · intro hac
    have hr : ¬ s.Returns names := fun hr => by
      obtain ⟨x, hx⟩ := (ha.returns_iff hs).1 hr
      exact hac x hx
    obtain ⟨n, rfl, hok⟩ := ha.merge_of_not_returns hr hattrs type pattern
    exact ⟨_, n, hok, hs.contraction (ha.contractible hr) _⟩

/-- Two operators between a producer and a consumer that are also joined directly, and an operator behind them. -/
def diamond : Graph where
  name := "diamond"
  dag := .ofArcs
    [
      ⟨"p", { name := "p", type := "conv", outputs := ["x"] }, 0⟩,
      ⟨"a", { name := "a", type := "relu", inputs := ["x"], outputs := ["y"] }, 1⟩,
      ⟨"b", { name := "b", type := "pool", inputs := ["x"], outputs := ["z"] }, 2⟩,
      ⟨"q", { name := "q", type := "add", inputs := ["y", "z", "x"], outputs := ["w"] }, 3⟩]
    [
      ⟨"p", "a", { src := "p", dst := "a", var := "x" }⟩,
      ⟨"p", "b", { src := "p", dst := "b", var := "x" }⟩,
      ⟨"a", "q", { src := "a", dst := "q", var := "y" }⟩,
      ⟨"b", "q", { src := "b", dst := "q", var := "z", dstSlot := 1 }⟩,
      ⟨"p", "q", { src := "p", dst := "q", var := "x", dstSlot := 2 }⟩]
    4

lemma built_diamond : diamond.Built := by
  have h := Graph.Built.new "diamond"
  have h := h.insertNode (n := { name := "p", type := "conv", outputs := ["x"] }) rfl
  have h := h.insertNode (n := { name := "a", type := "relu", inputs := ["x"], outputs := ["y"] }) rfl
  have h := h.insertNode (n := { name := "b", type := "pool", inputs := ["x"], outputs := ["z"] }) rfl
  have h := h.insertNode (n := { name := "q", type := "add", inputs := ["y", "z", "x"], outputs := ["w"] }) rfl
  have h := h.connect (e := { src := "p", dst := "a", var := "x" }) rfl
  have h := h.connect (e := { src := "p", dst := "b", var := "x" }) rfl
  have h := h.connect (e := { src := "a", dst := "q", var := "y" }) rfl
  have h := h.connect (e := { src := "b", dst := "q", var := "z", dstSlot := 1 }) rfl
  exact h.connect (e := { src := "p", dst := "q", var := "x", dstSlot := 2 }) rfl

/-- The two operators in the middle are contracted to one in the place of the second; the producer and the consumer can
not be. -/
theorem merge_exact_diamond :
    (∃ t n, (copy diamond none).merge ["b", "a"] "f" "pr" "pr" = .ok (t, n) ∧
      Contraction (copy diamond none) ["b", "a"] "f" t ∧ t.names = ["p", "f", "q"]) ∧
    ∃ x, TransGen (Digraph.Contracted (copy diamond none).dag.Adj (· ∈ ["p", "q"]) "f") x x := by
  have h : (copy diamond none).Derived := @Derived.snapshot diamond none _ built_diamond rfl
  have hmiddle : (copy diamond none).Admissible ["b", "a"] "f" :=
    ⟨rfl, by decide, by decide, by decide, by decide, by decide, by decide⟩
  have hends : (copy diamond none).Admissible ["p", "q"] "f" :=
    ⟨rfl, by decide, by decide, by decide, by decide, by decide, by decide⟩
  have hmerge := (merge_exact h hmiddle rfl "pr" "pr").1
  have hok : ∃ t n, (copy diamond none).merge ["b", "a"] "f" "pr" "pr" = .ok (t, n) ∧ t.names = ["p", "f", "q"] :=
    ⟨_, _, rfl, by decide⟩
  refine ⟨?_, (merge_exact h hends rfl "pr" "pr").1.1 ⟨"a", rfl⟩⟩
  obtain ⟨t, n, ht, hnames⟩ := hok
  have hac : ∀ x, ¬ TransGen (Digraph.Contracted (copy diamond none).dag.Adj (· ∈ ["b", "a"]) "f") x x := by
    intro x hx
    obtain ⟨via, hvia⟩ := hmerge.2 ⟨x, hx⟩
    rw [ht] at hvia
    cases hvia
  obtain ⟨t', n', ht', hcon⟩ := (merge_exact h hmiddle rfl "pr" "pr").2 hac
  rw [ht] at ht'
  cases ht'
  exact ⟨t, n, ht, hcon, hnames⟩

end Sandbox

end OpGraph
