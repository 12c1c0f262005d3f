import Mathlib
import OpGraph.Proofs.Network.Stratified

/-!
# What nodes stand for

A node stands for the operators its record lists, or for itself. Merging nodes makes the new one stand for all that they
stood for; dropping a node leaves nothing that stands for what it stood for. No operator is ever stood for twice.
-/

namespace OpGraph

open Sandbox

namespace Sandbox

/-- The operators that a node stands for. -/
def originals (s : Sandbox) (c : String) : List String :=
  match s.merges.get? c with
  | none => [c]
  | some r => r.members

/-- A node of a sandbox stands for an operator. -/
def Owns (s : Sandbox) (c x : String) : Prop :=
  c ∈ s.dag.keys ∧ x ∈ s.originals c

/-- No operator is stood for by two nodes. -/
def Exclusive (s : Sandbox) : Prop :=
  ∀ {c c' x}, s.Owns c x → s.Owns c' x → c = c'

end Sandbox

lemma Redressed.owns {s t : Sandbox} (h : Redressed s t) {c x : String} : t.Owns c x ↔ s.Owns c x := by
  rw [Owns, Owns, originals, originals, h.merges, h.mem_keys]

/-- A drop leaves what other nodes stand for. -/
lemma owns_dropped {s t : Sandbox} {name : String} {src : Edge} (h : Dropped s name src t) {c x : String} :
    t.Owns c x ↔ s.Owns c x ∧ c ≠ name := by
  rw [Owns, Owns, originals, originals, (records_eq_iff.1 h.records).1, h.mem_keys]
  tauto

/-- A fused node stands for what its members stand for, in their order. -/
lemma members_provenance (s : Sandbox) (names : List String) (fused pattern : String) :
    (s.provenance names fused pattern).members = names.flatMap s.originals := rfl

/-- A fused node stands for all that the members of the chain stood for. -/
lemma owns_fuses {g : Graph} {o s t : Sandbox} {p : Pattern} {members : List String} {n : Node} (hs : Tracks g o s)
    (h : Engine.Fuses s p members n t) {c x : String} :
    t.Owns c x ↔ ∃ c', s.Owns c' x ∧ Engine.Fuses.place members n.name c' = c := by
  unfold Owns originals
  rw [h.mem_keys, h.merged.merges]
  by_cases hc : c = n.name
  · subst hc
    rw [if_pos rfl]
    dsimp only
    rw [members_provenance, List.mem_flatMap]
    constructor
    · rintro ⟨-, m, hm, hx⟩
      exact ⟨m, ⟨h.chain.live hm, hx⟩, Engine.Fuses.place_of_mem hm⟩
    · rintro ⟨m, ⟨hlive, hx⟩, hplace⟩
      by_cases hm : m ∈ members
      · exact ⟨.inl rfl, m, hm, hx⟩
      · rw [Engine.Fuses.place_of_not_mem hm] at hplace
        exact absurd (hplace ▸ hlive) (h.name_fresh hs)
  · rw [if_neg hc]
    by_cases hm : c ∈ members
    · rw [if_pos hm]
      constructor
      · rintro ⟨hlive | ⟨-, hno⟩, -⟩
        · exact absurd hlive hc
        · exact absurd hm hno
      · rintro ⟨c', ⟨hlive, -⟩, hplace⟩
        by_cases hc' : c' ∈ members
        · rw [Engine.Fuses.place_of_mem hc'] at hplace
          exact absurd hplace.symm hc
        · rw [Engine.Fuses.place_of_not_mem hc'] at hplace
          exact absurd (hplace ▸ hm) hc'
    · rw [if_neg hm]
      constructor
      · rintro ⟨hlive | ⟨hlive, -⟩, hx⟩
        · exact absurd hlive hc
        · exact ⟨c, ⟨hlive, hx⟩, Engine.Fuses.place_of_not_mem hm⟩
      · rintro ⟨c', ⟨hlive, hx⟩, hplace⟩
        by_cases hc' : c' ∈ members
        · rw [Engine.Fuses.place_of_mem hc'] at hplace
          exact absurd hplace.symm hc
        · rw [Engine.Fuses.place_of_not_mem hc'] at hplace
          subst hplace
          exact ⟨.inr ⟨hlive, hm⟩, hx⟩

namespace Network

lemma persistent_exclusive : Persistent fun _ => Exclusive where
  mono := fun _ h => h
  redressed := fun hr h _ _ _ hc hc' => h (hr.owns.1 hc) (hr.owns.1 hc')
  effect := by
    intro l e g s t _ hs _ heff h c c' x hc hc'
    cases heff with
    | dropped _ hd => exact h (owns_dropped hd |>.1 hc).1 (owns_dropped hd |>.1 hc').1
    | fused _ hf =>
      obtain ⟨d, hd, rfl⟩ := (owns_fuses hs.tracks hf).1 hc
      obtain ⟨d', hd', rfl⟩ := (owns_fuses hs.tracks hf).1 hc'
      rw [h hd hd']

/-- A copy of a graph without records has none. -/
lemma get?_merges_of_nil {g : Graph} (h : g.merges = []) (f : String) : (Sandbox.copy g none).merges.get? f = none := by
  rw [Recorded.get?_copy, lastRecord?, h]
  rfl

/-- In a frozen network every node stands for itself. -/
lemma originals_freeze {ok : Node → Prop} {l : Library} {n m : Network} (hc : Coherent ok l n) (he : n.freeze = .ok m)
    (c : String) : (Sandbox.copy m.graph none).originals c = [c] := by
  obtain ⟨hs, -, -, hf⟩ := hc.frozen he
  have hmerges : m.graph.merges = [] := hf.merges.trans (hc.unjoined hs).2.1
  rw [originals, get?_merges_of_nil hmerges]

/-- In a frozen network every node stands for itself. -/
lemma owns_freeze {ok : Node → Prop} {l : Library} {n m : Network} (hc : Coherent ok l n) (he : n.freeze = .ok m)
    {c x : String} : (Sandbox.copy m.graph none).Owns c x ↔ c ∈ m.graph.names ∧ x = c := by
  rw [Owns, originals_freeze hc he, keys_copy_none, List.mem_singleton]
  rfl

/-- In a frozen network no operator is stood for by two nodes. -/
lemma exclusive_freeze {ok : Node → Prop} {l : Library} {n m : Network} (hc : Coherent ok l n) (he : n.freeze = .ok m) :
    Exclusive (Sandbox.copy m.graph none) := by
  intro c c' x hx hx'
  rw [owns_freeze hc he] at hx hx'
  rw [← hx.2, hx'.2]

/-! ### Later networks -/

/-- The networks that further optimizations and settings lead to, with any libraries, caps and elided types. Its blocks
and its place among other networks do not matter. -/
inductive Evolves (n : Network) : Network → Prop where
  | refl : Evolves n n
  | optimize {m : Network} (h : Evolves n m) {l : Library} (hl : l.ArrowFree) (fusion : Bool) (ord : RenameOrder) :
      Evolves n (m.optimize l fusion ord).1
  | tune {m : Network} (h : Evolves n m) (cap : Int) (elide : Option (List String)) : Evolves n { m with cap, elide }
  | set {m k : Network} (h : Evolves n m) {c : Setting} (he : m.set c = .ok k) : Evolves n k
  | refer {m : Network} (h : Evolves n m) (blocks : List BlockRef) : Evolves n { m with blocks }
  | relocate {m : Network} (h : Evolves n m) (library : LibraryRef) (epoch : Nat) : Evolves n { m with library, epoch }

section Evolves

variable {ok : Node → Prop} {l : Library} {n m : Network}

/-- An optimization does not lead back to building. -/
lemma state_optimize (hc : Coherent ok l n) (hs : n.state ≠ .building) (fusion : Bool) (ord : RenameOrder) :
    (n.optimize l fusion ord).1.state ≠ .building := by
  have ho := optimizes_optimize hc.regular hc.library fusion ord
  generalize n.optimize l fusion ord = r at ho
  cases ho with
  | unfrozen _ => exact hs
  | diverges _ _ _ => exact hs
  | lands _ _ hl =>
    cases hl with
    | illegible _ => exact hs
    | stale _ _ => exact hs
    | aborted _ _ _ _ => exact hs
    | done _ _ _ _ _ =>
      cases fusion with
      | true => exact State.noConfusion
      | false => exact hs

/-- A setting leaves the state of a network. -/
lemma state_set {c : Setting} (he : n.set c = .ok m) : m.state = n.state := by
  rcases set_cases he with ⟨op, f, -, rfl⟩ | ⟨calibration, varScales, rfl⟩ <;> rfl

/-- A network stays coherent, and what optimizations and settings preserve of its graph stays true. -/
lemma Evolves.induct_graph {J : Graph → Prop} (h : Evolves n m) (hc : Coherent ok l n) (hs : n.state ≠ .building)
    (optimize : ∀ {l : Library} {k : Network} (fusion : Bool) (ord : RenameOrder), Coherent ok l k →
      k.state ≠ .building → J k.graph → J (k.optimize l fusion ord).1.graph)
    (update : ∀ {g : Graph} (op : String) {f : Node → Node}, (∀ v, (f v).bare = v.bare) → J g → J (g.updateNode op f))
    (hn : J n.graph) : Coherent ok l m ∧ m.state ≠ .building ∧ J m.graph := by
  induction h with
  | refl => exact ⟨hc, hs, hn⟩
  | optimize _ hl fusion ord ih =>
    obtain ⟨hc', hs', hj⟩ := ih
    have hc'' := Coherent.mk hl hc'.wellFormed hc'.arrowFree hc'.oneRecord hc'.vars hc'.unjoined hc'.sound
    exact ⟨{ hc''.optimize fusion ord with library := hc.library }, state_optimize hc'' hs' fusion ord,
      optimize fusion ord hc'' hs' hj⟩
  | tune _ cap elide ih => exact ⟨{ ih.1 with }, ih.2.1, ih.2.2⟩
  | refer _ blocks ih => exact ⟨{ ih.1 with }, ih.2.1, ih.2.2⟩
  | relocate _ library epoch ih => exact ⟨{ ih.1 with }, ih.2.1, ih.2.2⟩
  | set _ he ih =>
    obtain ⟨hc', hs', hj⟩ := ih
    refine ⟨hc'.set he, by rwa [state_set he], ?_⟩
    rcases set_cases he with ⟨op, f, hf, rfl⟩ | ⟨calibration, varScales, rfl⟩
    · exact update op hf hj
    · exact hj

/-- A network stays coherent, and what the steps of the engine preserve stays true. -/
lemma Evolves.induct (h : Evolves n m) (hc : Coherent ok l n) (hs : n.state ≠ .building) {J : Sandbox → Prop}
    (hJ : Persistent fun _ => J) (hn : J (Sandbox.copy n.graph none)) :
    Coherent ok l m ∧ m.state ≠ .building ∧ J (Sandbox.copy m.graph none) :=
  h.induct_graph (J := fun g => J (Sandbox.copy g none)) hc hs
    (fun fusion ord hc hs hj => hJ.optimize hc hs fusion ord hj)
    (fun op _ hf hj => hJ.redressed (l := l) (Graph.redressed_updateNode _ op hf) hj) hn

end Evolves

end Network

end OpGraph
