import Mathlib
import OpGraph.Proofs.Network.Reached

/-!
# Aborts

A commit aborts when the graph that it makes breaks the rules. That is exactly the case if the sandbox refers to what is
no longer there: to a registered edge that was moved away, to an input of the boundary or a fused node that was dropped.
-/

namespace OpGraph

open Sandbox

namespace Sandbox

variable {g : Graph} {s : Sandbox} {region : Option (List String)}

/-- A commit aborts exactly if the sandbox fits in with what is outside of its region, but dangles. -/
lemma Edited.aborted_iff (h : Edited g (Sandbox.copy g region) s) : Aborted (s.commit g) ↔ s.Fits g ∧ s.Dangles g := by
  rcases h.commit_cases with ⟨hfit, e, f, he, hf⟩ | ⟨hfit, hd, habort⟩ | ⟨-, hd, g', hok, -⟩
  · refine iff_of_false ?_ fun hboth => hfit hboth.1
    rintro ⟨e', message, he', hm⟩
    rw [he] at he'
    cases he'
    rw [hf] at hm
    cases hm
  · exact iff_of_true habort ⟨hfit, hd⟩
  · refine iff_of_false ?_ fun hboth => hd hboth.2
    rintro ⟨e', message, he', -⟩
    rw [hok] at he'
    cases he'

/-- A commit that does not abort fails or leads to a graph that keeps the rules. -/
lemma Edited.verify_of_not_aborted (h : Edited g (Sandbox.copy g region) s) (hno : ¬ Aborted (s.commit g)) :
    (∃ e, s.commit g = .error e) ∨ ∃ g' s' c, s.commit g = .ok (g', s', c) ∧ g'.verify = .ok () := by
  rcases h.commit_cases with ⟨-, e, f, he, -⟩ | ⟨-, -, habort⟩ | ⟨-, hd, g', hok, hcases⟩
  · exact .inl ⟨e, he⟩
  · exact absurd habort hno
  · refine .inr ⟨g', _, _, hok, ?_⟩
    rcases hcases with ⟨-, rfl⟩ | ⟨-, dag, hl, rfl⟩
    · exact h.copied.regular.wellFormed.verify_ok_iff.2 h.copied.regular.sound
    · exact (h.wellFormed_landing hl).verify_ok_iff.2 ((h.sound_landing_iff hl).2 hd)

end Sandbox

namespace Network

variable {ok : Node → Prop} {l : Library} {n : Network}

/-- An optimization aborts exactly if the engine ends well, pins can be read and the sandbox dangles. -/
lemma optimize_aborts_iff (h : Reached ok l n) (fusion : Bool) (ord : RenameOrder) :
    (n.optimize l fusion ord).2.Aborts ↔ n.state ≠ .building ∧ fusion = true ∧ ∃ s st,
      (n.engine l).run (Sandbox.copy n.graph none) = ((s, st), none) ∧ (∀ v ∈ s.nodes, Legible v) ∧
      s.Dangles n.graph := by
  have hc := h.coherent
  have ho := optimizes_optimize hc.regular hc.library fusion ord
  generalize n.optimize l fusion ord = r at ho
  cases ho with
  | unfrozen hb =>
    refine iff_of_false ?_ fun hs => hs.1 hb
    rintro ⟨message, hm⟩
    cases hm
  | @diverges s st cause hs hf hrun =>
    refine iff_of_false ?_ ?_
    · rintro ⟨message, hm⟩
      cases hm
    · rintro ⟨-, -, s', st', hrun', -⟩
      rw [hrun] at hrun'
      cases hrun'
  | @lands d _ hs hd hl =>
    have hg := hc.regular hs
    have hedited := hd.edited hg hc.library
    cases hl with
    | illegible hno =>
      refine iff_of_false ?_ ?_
      · rintro ⟨message, hm⟩
        cases hm
      · rintro ⟨-, rfl, s, st, hrun, hleg, -⟩
        exact hno ((hd.eq_of_run_eq hrun).1 ▸ hleg)
    | stale _ he => exact absurd hd.epoch.symm he
    | aborted _ hn hdangles hf =>
      have hdangles := (dangles_respells hedited hn.edited hn.respells).1 hdangles
      refine iff_of_true ⟨_, hf⟩ ⟨hs, ?_⟩
      cases fusion with
      | true =>
        have hrun := hd.run
        rw [if_pos rfl] at hrun
        exact ⟨rfl, d.sandbox, d.stats, hrun, hn.legible, hdangles⟩
      | false =>
        have hrun := hd.run
        rw [if_neg Bool.false_ne_true] at hrun
        rw [hrun.1] at hdangles
        exact absurd hdangles ((Edited.copy hg none).not_dangles_of_isEmpty (isEmpty_patch_copy hg))
    | done _ hl _ _ _ =>
      refine iff_of_false id ?_
      rintro ⟨-, rfl, s, st, hrun, -, hdangles⟩
      rw [(hd.eq_of_run_eq hrun).1, ← dangles_respells hedited hl.edited hl.normalized.respells] at hdangles
      exact hl.whole hdangles

/-- Whatever edits are made in a sandbox of a graph that keeps its rules, a commit aborts exactly if the sandbox fits
but dangles; otherwise it fails, or the graph keeps its rules. An optimization aborts exactly if the engine ends well in
a sandbox that dangles and whose pins can be read. -/
theorem aborts_iff (l : Library) :
    (∀ {g : Graph}, g.WellFormed → g.verify = .ok () → (∀ name ∈ g.names, ArrowFree name) →
      ∀ {region : Option (List String)} {s : Sandbox}, snapshot g region = .ok s →
      ∀ {es : List Edit}, (∀ e ∈ es, e.ArrowFree) →
        (Aborted ((s.performAll es).commit g) ↔ (s.performAll es).Fits g ∧ (s.performAll es).Dangles g) ∧
        (¬ Aborted ((s.performAll es).commit g) → (∃ e, (s.performAll es).commit g = .error e) ∨
          ∃ g' s' c, (s.performAll es).commit g = .ok (g', s', c) ∧ g'.verify = .ok ())) ∧
    ∀ {n : Network}, Reached (fun _ => True) l n → ∀ (fusion : Bool) (ord : RenameOrder),
      (n.optimize l fusion ord).2.Aborts ↔ n.state ≠ .building ∧ fusion = true ∧ ∃ s st,
        (n.engine l).run (Sandbox.copy n.graph none) = ((s, st), none) ∧ (∀ v ∈ s.nodes, Legible v) ∧
          s.Dangles n.graph := by
  refine ⟨?_, optimize_aborts_iff⟩
  intro g wf ok af region s hs es haf
  obtain rfl := snapshot_ok hs
  have h := (Edited.copy (.of_verify wf ok af) region).performAll haf
  exact ⟨h.aborted_iff, h.verify_of_not_aborted⟩

/-- Fuses both chains of `shortcut`, first the one that reads. -/
def shortcutEdits : List Edit :=
  [.merge ["h", "a", "b"] "f" "cbr" "cbr", .merge ["t", "u"] "k" "cr" "cr"]

/-- The sandbox of the graph of `shortcut`, with the shortcut registered, after some edits. -/
def shortcutAfter (es : List Edit) : Sandbox :=
  (Sandbox.copy (assemble shortcut [("u", "b")]).graph none).performAll es

/-- Fusing the chain that reads leaves a graph that keeps the rules. Fusing both leaves a sandbox that dangles, and so
does the engine. -/
theorem aborts_iff_shortcut :
    (∃ g s c, (shortcutAfter (shortcutEdits.take 1)).commit (assemble shortcut [("u", "b")]).graph = .ok (g, s, c) ∧
      g.verify = .ok ()) ∧
    (shortcutAfter shortcutEdits).Fits (assemble shortcut [("u", "b")]).graph ∧
    (shortcutAfter shortcutEdits).Dangles (assemble shortcut [("u", "b")]).graph ∧
    ∃ s st, ((assemble shortcut [("u", "b")]).engine .standard).run (shortcutAfter []) = ((s, st), none) ∧
      s.Dangles (assemble shortcut [("u", "b")]).graph := by
  have hr := reached_shortcut [("u", "b")]
  have hc := hr.coherent
  have hok := hc.wellFormed.verify_ok_iff.2 (hc.sound (by decide +kernel))
  have hcommit := fun (es : List Edit) (haf : ∀ e ∈ es, e.ArrowFree) =>
    (aborts_iff .standard).1 hc.wellFormed hok hc.arrowFree (show snapshot _ none = .ok (shortcutAfter []) from rfl) haf
  refine ⟨?_, ?_⟩
  · obtain ⟨r, hdone⟩ :
      ∃ r, (shortcutAfter (shortcutEdits.take 1)).commit (assemble shortcut [("u", "b")]).graph = .ok r :=
      ⟨_, rfl⟩
    have hno : ¬ Aborted ((shortcutAfter (shortcutEdits.take 1)).commit (assemble shortcut [("u", "b")]).graph) := by
      rintro ⟨e, message, he, -⟩
      cases hdone.symm.trans he
    rcases (hcommit (shortcutEdits.take 1) (by decide)).2 hno with ⟨e, he⟩ | hv
    · cases hdone.symm.trans he
    · exact hv
  · obtain ⟨hfits, hd⟩ := (hcommit shortcutEdits (by decide)).1.1 ⟨_, _, rfl, rfl⟩
    obtain ⟨-, -, s, st, hrun, -, hd'⟩ := ((aborts_iff .standard).2 hr true .ascending).1 (by decide +kernel)
    exact ⟨hfits, hd, s, st, hrun, hd'⟩

/-- Edits of a graph that keeps the rules can make a commit abort, and so can an optimization. -/
theorem shortcut_aborts : Reached (fun _ => True) .standard (assemble shortcut [("u", "b")]) ∧
    (assemble shortcut [("u", "b")]).graph.verify = .ok () ∧
    (∀ name ∈ (assemble shortcut [("u", "b")]).graph.names, ArrowFree name) ∧ (∀ e ∈ shortcutEdits, e.ArrowFree) ∧
    Aborted ((shortcutAfter shortcutEdits).commit (assemble shortcut [("u", "b")]).graph) ∧
    ((assemble shortcut [("u", "b")]).optimize .standard true .ascending).2.Aborts :=
  ⟨reached_shortcut _, rfl, by decide +kernel, by decide, ⟨_, _, rfl, rfl⟩, by decide +kernel⟩

end Network

end OpGraph
