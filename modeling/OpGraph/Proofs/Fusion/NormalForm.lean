import Mathlib
import OpGraph.Proofs.Network.Tally
import OpGraph.Proofs.Sandbox.Bypass
import OpGraph.Proofs.Sandbox.Contraction

/-!
# Normal forms

Whatever patterns rewrite into, every change takes a node away, so that a run with a cap above the number of nodes ends
before it. It ends in a sandbox in which no node can be dropped and no chain be merged, and there it can be started
again as often as one likes.
-/

namespace OpGraph

namespace Sandbox.Roster

variable {g : Graph} {o s t : Sandbox}

/-- A drop leaves fewer nodes. -/
lemma length_drop (hs : Roster g o s) {name : String} (hok : s.drop name = .ok t) :
    t.names.length < s.names.length := by
  obtain ⟨src, hd, rfl⟩ := drop_ok_iff.1 hok
  have hnames : ((s.outEdges name).foldl (bypass src) (s.removeNode name)).pruneRenames.names =
      s.names.filter (· ≠ name) := hs.names_drop name src
  rw [hnames]
  exact List.length_filter_lt_length_iff_exists.2 ⟨name, hd.live, by simp⟩

/-- A merge leaves fewer nodes. -/
lemma length_merge (hs : Roster g o s) {names : List String} {fused type pattern : String} {n : Node}
    (hok : s.merge names fused type pattern = .ok (t, n)) : t.names.length < s.names.length := by
  obtain ⟨hm, hn, rfl⟩ := merge_ok_iff.1 hok
  obtain rfl := fusedNode_name hn
  have hbefore := (keys_perm_bystanders hs hm).length_eq
  have hafter := (keys_contract_perm hs hm (s.provenance names n.name pattern)).length_eq
  have htwo := hm.two
  rw [List.length_append] at hbefore
  rw [List.length_cons] at hafter
  rw [Sandbox.names, Sandbox.names]
  omega

end Sandbox.Roster

namespace Engine

open Sandbox

variable {g : Graph} {o s : Sandbox} {e : Engine}

/-! ### Changes -/

/-- Between two stages of a run each change took away a node at least. -/
structure Shrinks (g : Graph) (o : Sandbox) (start run : Sandbox × Stats) : Prop where
  roster : Roster g o run.1
  bound : run.1.names.length + run.2.changes ≤ start.1.names.length + start.2.changes

namespace Shrinks

variable {start run : Sandbox × Stats}

/-- Trying to drop a node shrinks the sandbox or leaves it as it is. -/
lemma tryDrop (h : Shrinks g o start run) (name : String) : Shrinks g o start (tryDrop run name) := by
  rcases tryDrop_cases run name with ⟨heq, -⟩ | ⟨hok, hst⟩
  · rw [heq]
    exact h
  · refine ⟨h.roster.edit (e := .drop name) hok, ?_⟩
    have hlt := h.roster.length_drop hok
    have hbound := h.bound
    rw [hst]
    simp only [Stats.changes] at hbound ⊢
    omega

/-- Trying patterns at a node shrinks the sandbox or leaves it as it is. -/
lemma tryHead (h : Shrinks g o start run) (ps : List Pattern) (head : String) :
    Shrinks g o start (tryHead ps run head) := by
  rcases tried_tryHead ps run head with ⟨heq, -⟩ | ⟨-, htried⟩
  · rw [heq]
    exact h
  · cases htried with
    | still hs hst hno =>
      refine ⟨hs ▸ h.roster, ?_⟩
      rw [hs, hst]
      exact h.bound
    | @merged p members n hst hp hfind hok =>
      have hedit : run.1.edit (.merge members (run.1.uniqueName p.name) p.name p.name) =
        .ok (Engine.tryHead ps run head).1 :=
        map_eq_ok.2 ⟨_, hok, rfl⟩
      refine ⟨h.roster.edit hedit, ?_⟩
      have hlt := h.roster.length_merge hok
      have hbound := h.bound
      rw [hst]
      simp only [Stats.changes] at hbound ⊢
      omega

/-- A pass shrinks the sandbox or leaves it as it is. -/
lemma pass (hs : Roster g o s) (st : Stats) : Shrinks g o (s, st) (e.pass (s, st)).1 := by
  obtain ⟨order, -, heq⟩ := pass_eq (e := e) hs st
  rw [heq]
  have hdrops : Shrinks g o (s, st) (dropAll e.elided (s, st)) :=
    List.foldlRecOn _ _ ⟨hs, le_rfl⟩ fun run h n _ => h.tryDrop n.name
  exact List.foldlRecOn _ _ hdrops fun run h head _ => h.tryHead e.patterns head

end Shrinks

/-! ### Passes -/

/-- A pass that reports a change leaves fewer nodes. -/
lemma length_pass (hs : Roster g o s) {st : Stats} {after : Sandbox × Stats} (h : e.pass (s, st) = (after, none))
    (hp : progressed st after.2) : after.1.names.length < s.names.length := by
  obtain ⟨after', heq, -, hle, -, hsame⟩ := exists_pass (e := e) hs st
  obtain rfl : after' = after := by
    rw [heq] at h
    exact congrArg Prod.fst h
  have hne : after'.2.changes ≠ st.changes := by
    intro hcount
    rw [hsame hcount] at hp
    simp [progressed] at hp
  have hbound : after'.1.names.length + after'.2.changes ≤ s.names.length + st.changes := by
    have hshrinks := (Shrinks.pass (e := e) hs st).bound
    rwa [heq] at hshrinks
  omega

/-- As many passes as there are nodes and one more are enough. -/
lemma loop_ends {n : Nat} (hs : Roster g o s) (st : Stats) (hn : s.names.length < n) : (e.loop n (s, st)).2 = none := by
  induction n generalizing s st with
  | zero => exact absurd hn (Nat.not_lt_zero _)
  | succ n ih =>
    obtain ⟨⟨t, st'⟩, heq, -⟩ := exists_pass (e := e) hs { st with iterations := st.iterations + 1 }
    have ht : Roster g o t := by
      have hshrinks := Shrinks.pass (e := e) hs { st with iterations := st.iterations + 1 }
      rw [heq] at hshrinks
      exact hshrinks.roster
    unfold loop
    simp only [heq]
    split
    · rename_i hp
      have hlt : t.names.length < s.names.length := length_pass hs heq hp
      exact ih ht st' (by omega)
    · rfl

/-- A run that ended well is over after one pass when it is started again. -/
lemma run_again (hs : Roster g o s) {t : Sandbox} {st : Stats} (h : e.run s = ((t, st), none)) :
    ∃ rejected, e.run t = ((t, { iterations := 1, rejected }), none) := by
  have hstart : Roster g o (s, ({} : Stats)).1 := hs
  have hstable : e.Stable t := stable_of_loop hstart h
  have ht : Roster g o t := by
    have hr := (Reaches.refl (e := e) (s, ({} : Stats))).loop (n := e.passes)
    rw [show e.loop e.passes (s, {}) = _ from h] at hr
    exact hr.roster hstart
  obtain ⟨k, hk⟩ := Nat.exists_eq_add_of_le' (one_le_passes e)
  rw [run, hk]
  exact loop_of_stable ht hstable k {}

/-- A run reaches a normal form: every pass goes through, one that reports a change leaves fewer nodes, a cap above the
number of nodes is never reached, and a run that ends well ends where a run changes nothing. -/
theorem run_reaches_normalForm {s : Sandbox} (h : s.Derived) (e : Engine) :
    (∀ st, ∃ after, e.pass (s, st) = (after, none) ∧
      (progressed st after.2 → after.1.names.length < s.names.length)) ∧
    (s.names.length < e.passes → ∃ t st, e.run s = ((t, st), none)) ∧
    ∀ t st, e.run s = ((t, st), none) → ∃ rejected, e.run t = ((t, { iterations := 1, rejected }), none) := by
  obtain ⟨g, o, hs⟩ := h.account
  refine ⟨fun st => ?_, fun hcap => ?_, fun t st hrun => run_again hs hrun⟩
  · obtain ⟨after, heq, -⟩ := exists_pass (e := e) hs st
    exact ⟨after, heq, length_pass hs heq⟩
  · exact ⟨_, _, Prod.ext rfl (loop_ends hs {} hcap)⟩

/-- Three patterns each of which, after the first, looks for what the one before makes. -/
def cascade : Engine where
  patterns := [
    { name := "conv_pool_relu_add", ops := [{ type := "conv" }, { type := "pool_relu_add" }] },
    { name := "pool_relu_add", ops := [{ type := "pool" }, { type := "relu_add" }] },
    { name := "relu_add", ops := [{ type := "relu" }, { type := "add" }] }]

/-- The operators between a producer and a consumer become one with them in two passes, and the third one is the
last. -/
theorem run_reaches_normalForm_diamond : ∃ t st rejected,
    cascade.run (copy diamond none) = ((t, st), none) ∧ st.iterations = 3 ∧ st.fused = 3 ∧
    t.names = ["conv_pool_relu_add"] ∧ cascade.run t = ((t, { iterations := 1, rejected }), none) := by
  have h : (copy diamond none).Derived := @Derived.snapshot diamond none _ built_diamond rfl
  obtain ⟨-, hends, hagain⟩ := run_reaches_normalForm h cascade
  obtain ⟨t, st, hrun⟩ := hends (by decide)
  obtain ⟨rejected, hrun'⟩ := hagain t st hrun
  have hst : st.iterations = 3 ∧ st.fused = 3 := by
    have hst : st = (cascade.run (copy diamond none)).1.2 := by rw [hrun]
    rw [hst]
    decide +kernel
  have ht : t.names = ["conv_pool_relu_add"] := by
    have ht : t = (cascade.run (copy diamond none)).1.1 := by rw [hrun]
    rw [ht]
    decide +kernel
  exact ⟨t, st, rejected, hrun, hst.1, hst.2, ht, hrun'⟩

end Engine

end OpGraph
