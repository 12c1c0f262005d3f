import Mathlib
import OpGraph.Proofs.Fusion.Attributes
import OpGraph.Proofs.Sandbox.Union

/-!
# What a pattern finds can be merged

A pattern looks at the edges between one node of a chain and the next only, and a merge looks at all edges within a set
of nodes and at all paths that leave it. Even so, a merge of the chain that a pattern found fails for one reason only:
two of the attributes of its members would have one name in the fused node.
-/

namespace OpGraph

namespace Engine

open Sandbox

/-- A merge of a chain fails only if two attributes of its members clash, and what is between the members is seen by
nobody else. -/
structure Mergeable (s : Sandbox) (p : Pattern) (members : List String) : Prop where
  refused : ∀ err, s.merge members (s.uniqueName p.name) p.name p.name = .error err →
    ∃ q, s.Clash members q ∧ (err = .attributeTwice q ∨ err = .badAttribute (.taken q))
  clash : ∀ q, s.Clash members q → ∃ err, s.merge members (s.uniqueName p.name) p.name p.name = .error err
  enclosed : ∀ m ∈ members, members.getLast? ≠ some m → ∀ y, s.dag.hasArc m y → y ∈ members

/-- A valid pattern has two constraints at least. -/
lemma two_le_ops {p : Pattern} (h : p.validate = .ok ()) : 2 ≤ p.ops.length := by
  unfold Pattern.validate at h
  split at h
  · cases h
  · split at h
    · cases h
    · omega

/-- The chain that a pattern found can be merged, unless two attributes clash. -/
lemma Chain.mergeable {g : Graph} {o s : Sandbox} {p : Pattern} {members : List String} (h : Chain s p.ops members)
    (hs : Roster g o s) (hopen : s.committed = false) (hattrs : AllNodes (fun n => n.attrs.Filled) s)
    (htwo : 2 ≤ p.ops.length) : Mergeable s p members := by
  have hm : s.Contractible members (s.uniqueName p.name) :=
    h.contractible hs (h.length_eq ▸ htwo) hopen (s.not_taken_uniqueName p.name)
  have hmerge := hm.merge_eq p.name p.name
  have henclosed : ∀ m ∈ members, members.getLast? ≠ some m → ∀ y, s.dag.hasArc m y → y ∈ members :=
    fun m hmem hlast y hmy => ((h.of_hasArc hs.wellFormed hmem hmy).resolve_left hlast).1
  rcases hs.fusedAttrs_cases hattrs hm.nodup with ⟨attrs, hok, -, hno⟩ | ⟨err, q, herr, hclash, he⟩
  · refine ⟨fun err herr => ?_, fun q hq => absurd hq (hno q), henclosed⟩
    rw [hmerge, fusedNode_ok_iff.2 ⟨attrs, hok, rfl⟩] at herr
    cases herr
  · have hfail : s.merge members (s.uniqueName p.name) p.name p.name = .error err := by
      rw [hmerge, fusedNode, herr]
      rfl
    refine ⟨fun err' herr' => ?_, fun _ _ => ⟨err, hfail⟩, henclosed⟩
    rw [hfail] at herr'
    cases herr'
    exact ⟨q, hclash, he⟩

/-- Whatever edits were made in a copy of a graph or of a part of it, a merge of the chain that a pattern finds there,
at any node, fails only if two attributes of its members clash. All attributes were set one by one. -/
theorem mergeable_of_find {g : Graph} (hg : g.Built) (hattrs : ∀ n ∈ g.nodes, n.attrs.Filled)
    {region : Option (List String)} {s : Sandbox} (hs : Sandbox.snapshot g region = .ok s) {es : List Edit}
    (hes : ∀ n, Edit.update n ∈ es → n.attrs.Filled) {p : Pattern} (hp : p.validate = .ok ()) {head : String}
    {members : List String} (hfind : Engine.find (s.performAll es) head p = .chain members) :
    Mergeable (s.performAll es) p members := by
  obtain ⟨hroster, hfilled⟩ := roster_filled_performAll hg hattrs hs hes
  have htwo := two_le_ops hp
  have hne : p.ops ≠ [] := List.ne_nil_of_length_pos (by omega)
  exact ((find_eq_chain_iff hne).1 hfind).2.mergeable hroster hroster.committed hfilled htwo

/-- Two operators with one between them that only passes on what it reads. The name of the last is that of the first
with more behind a dot. -/
def dotted : Graph where
  name := "dotted"
  dag := .ofArcs
    [
      ⟨"a", { name := "a", type := "conv", attrs := Dict.insert {} "b.c" (.int 1), outputs := ["x"] }, 0⟩,
      ⟨"i", { name := "i", type := "Identity", inputs := ["x"], outputs := ["y"] }, 1⟩,
      ⟨"a.b", { name := "a.b", type := "relu", attrs := Dict.insert {} "c" (.int 2), inputs := ["y"],
                outputs := ["z"] }, 2⟩]
    [
      ⟨"a", "i", { src := "a", dst := "i", var := "x" }⟩,
      ⟨"i", "a.b", { src := "i", dst := "a.b", var := "y" }⟩]
    3

lemma built_dotted : dotted.Built := by
  have h := Graph.Built.new "dotted"
  have h := h.insertNode
    (n := { name := "a", type := "conv", attrs := Dict.insert {} "b.c" (.int 1), outputs := ["x"] }) rfl
  have h := h.insertNode (n := { name := "i", type := "Identity", inputs := ["x"], outputs := ["y"] }) rfl
  have h := h.insertNode
    (n := { name := "a.b", type := "relu", attrs := Dict.insert {} "c" (.int 2), inputs := ["y"],
            outputs := ["z"] }) rfl
  have h := h.connect (e := { src := "a", dst := "i", var := "x" }) rfl
  exact h.connect (e := { src := "i", dst := "a.b", var := "y" }) rfl

lemma filled_dotted : ∀ n ∈ dotted.nodes, n.attrs.Filled := by
  have hone : ∀ k v, Attribute.Store.set {} k v = .ok (Dict.insert {} k v) →
    Attribute.Store.Filled (Dict.insert {} k v) :=
    fun _ _ he => .set .empty he
  intro n hn
  simp only [Graph.nodes, dotted, Digraph.vertices_ofArcs, List.map_cons, List.map_nil, List.mem_cons, List.not_mem_nil,
    or_false] at hn
  rcases hn with rfl | rfl | rfl
  · exact hone "b.c" (.int 1) rfl
  · exact .empty
  · exact hone "c" (.int 2) rfl

/-- A convolution and what rectifies its result. -/
def convRelu : Pattern where
  name := "conv_relu"
  ops := [{ type := "conv" }, { type := "relu" }]

/-- Once the operator between them is dropped, the other two are a chain. They can not be merged, for two of their
attributes would have one name. -/
theorem mergeable_of_find_dotted :
    Engine.find ((copy dotted none).performAll [.drop "i"]) "a" convRelu = .chain ["a", "a.b"] ∧
    Mergeable ((copy dotted none).performAll [.drop "i"]) convRelu ["a", "a.b"] ∧
    ((copy dotted none).performAll [.drop "i"]).Clash ["a", "a.b"] "a.b.c" ∧
    ∃ err, ((copy dotted none).performAll [.drop "i"]).merge ["a", "a.b"] "conv_relu" "conv_relu" "conv_relu" =
      .error err := by
  have hfind : Engine.find ((copy dotted none).performAll [.drop "i"]) "a" convRelu = .chain ["a", "a.b"] := by decide
  have hs : Sandbox.snapshot dotted none = .ok (copy dotted none) := rfl
  have hm : Mergeable ((copy dotted none).performAll [.drop "i"]) convRelu ["a", "a.b"] :=
    mergeable_of_find built_dotted filled_dotted hs (by simp) rfl hfind
  have hclash : ((copy dotted none).performAll [.drop "i"]).Clash ["a", "a.b"] "a.b.c" :=
    ⟨"a", by decide, "a.b", by decide, "b.c", "c", ⟨_, rfl, by decide⟩,
      ⟨_, rfl, by decide⟩, by decide, by decide, by decide⟩
  exact ⟨hfind, hm, hclash, hm.clash _ hclash⟩

end Engine

end OpGraph
