import Mathlib
import OpGraph.Fusion.Engine
import OpGraph.Fusion.Layouts
import OpGraph.Proofs.Sandbox.Names

/-!
# What the fusion engine does

A run of the engine is a sequence of steps, each of which drops a node or merges the chain that a pattern of the
library finds. `Runs e s trace t` lists the steps together with the sandboxes they are made in. Respelling the pins of
the layouts afterwards replaces payloads only.
-/

namespace OpGraph

variable {e : Engine} {s t : Sandbox}

/-- No pattern of a library has an arrow in its name. -/
def Library.ArrowFree (l : Library) : Prop :=
  ∀ p ∈ l.patterns, OpGraph.ArrowFree p.name

instance (l : Library) : Decidable l.ArrowFree :=
  inferInstanceAs (Decidable (∀ p ∈ l.patterns, OpGraph.ArrowFree p.name))

namespace Library

/-- Ranking a pattern adds it and takes away none. -/
lemma mem_rank {p q : Pattern} : ∀ {ps : List Pattern}, q ∈ rank p ps ↔ q = p ∨ q ∈ ps
  | [] => by simp [rank]
  | r :: ps => by
    unfold rank
    split
    · simp
    · rw [List.mem_cons, mem_rank, List.mem_cons]
      tauto

/-- The patterns by priority are the patterns of the library. -/
lemma mem_byPriority {l : Library} {q : Pattern} : q ∈ l.byPriority ↔ q ∈ l.patterns := by
  have hfold : ∀ {ps ranked : List Pattern},
      q ∈ ps.foldl (fun ranked p => rank p ranked) ranked ↔ q ∈ ranked ∨ q ∈ ps := by
    intro ps
    induction ps with
    | nil => simp
    | cons p ps ih =>
      intro ranked
      rw [List.foldl_cons, ih, mem_rank, List.mem_cons]
      tauto
  rw [byPriority, hfold]
  simp

end Library

/-! ### Steps of a run -/

namespace Engine

open Sandbox

/-- What the engine can do to a sandbox at once. -/
inductive Step (e : Engine) (s : Sandbox) : Edit → Sandbox → Prop where
  | drop {name : String} {t : Sandbox} (hok : s.drop name = .ok t) : Step e s (.drop name) t
  | merge {head : String} {p : Pattern} {members : List String} {t : Sandbox} {n : Node} (hp : p ∈ e.patterns)
      (hfind : Engine.find s head p = .chain members)
      (hok : s.merge members (s.uniqueName p.name) p.name p.name = .ok (t, n)) :
      Step e s (.merge members (s.uniqueName p.name) p.name p.name) t

/-- A sequence of steps, each with the sandbox it is made in. -/
inductive Runs (e : Engine) (s : Sandbox) : List (Sandbox × Edit) → Sandbox → Prop where
  | nil : Runs e s [] s
  | snoc {trace : List (Sandbox × Edit)} {t u : Sandbox} {ed : Edit} (hr : Runs e s trace t) (hs : e.Step t ed u) :
      Runs e s (trace ++ [(t, ed)]) u

/-- A step is an edit that succeeds. -/
lemma Step.edit_ok {ed : Edit} (h : e.Step s ed t) : s.edit ed = .ok t := by
  cases h with
  | drop hok => exact hok
  | merge hp hfind hok =>
    rw [Sandbox.edit, hok]
    rfl

/-- The edits of an engine have names without arrows if its patterns have. -/
lemma Step.arrowFree {ed : Edit} (h : e.Step s ed t) (hp : ∀ p ∈ e.patterns, ArrowFree p.name) : ed.ArrowFree := by
  cases h with
  | drop _ => trivial
  | merge hmem _ _ => exact arrowFree_uniqueName (hp _ hmem)

/-- The nodes that a sequence of steps drops. -/
def elisions (trace : List (Sandbox × Edit)) : List String :=
  trace.filterMap fun x => x.2.dropped?

/-- The nodes that are dropped in one more step are dropped last. -/
lemma elisions_append (trace : List (Sandbox × Edit)) (x : Sandbox × Edit) :
    elisions (trace ++ [x]) = elisions trace ++ x.2.dropped?.toList := by
  rw [elisions, List.filterMap_append, List.filterMap_cons, List.filterMap_nil]
  cases x.2.dropped? <;> rfl

/-- Steps lead from one stage of a run to another, and the nodes they drop are counted. -/
def Reaches (e : Engine) (start run : Sandbox × Stats) : Prop :=
  ∃ trace, e.Runs start.1 trace run.1 ∧ run.2.dropped = start.2.dropped + (elisions trace).length

namespace Reaches

variable {e : Engine} {start run run' : Sandbox × Stats}

lemma refl (run : Sandbox × Stats) : e.Reaches run run :=
  ⟨[], .nil, rfl⟩

/-- Other counters do not matter. -/
lemma recount (h : e.Reaches start run) (hs : run'.1 = run.1) (hd : run'.2.dropped = run.2.dropped) :
    e.Reaches start run' := by
  obtain ⟨trace, hr, hcount⟩ := h
  exact ⟨trace, hs ▸ hr, hd.trans hcount⟩

/-- One more step reaches one stage more. -/
lemma step {ed : Edit} (h : e.Reaches start run) (hs : e.Step run.1 ed run'.1)
    (hd : run'.2.dropped = run.2.dropped + ed.dropped?.toList.length) : e.Reaches start run' := by
  obtain ⟨trace, hr, hcount⟩ := h
  refine ⟨_, hr.snoc hs, ?_⟩
  rw [elisions_append, List.length_append, hd, hcount, Nat.add_assoc]

/-- Steps for each of a list reach what every one of them reaches. -/
lemma foldl {α : Type} {f : Sandbox × Stats → α → Sandbox × Stats} {xs : List α} (h : e.Reaches start run)
    (hf : ∀ run x, e.Reaches start run → e.Reaches start (f run x)) : e.Reaches start (xs.foldl f run) := by
  induction xs generalizing run with
  | nil => exact h
  | cons x xs ih => exact ih (hf run x h)

/-- Dropping nodes reaches a later stage. -/
lemma dropAll (h : e.Reaches start run) (elided : List String) : e.Reaches start (dropAll elided run) := by
  refine h.foldl fun run n h => ?_
  unfold tryDrop
  split
  · exact h.step (.drop ‹_›) rfl
  · exact h

/-- Trying the patterns of an engine at a node reaches a later stage. -/
lemma tryPatterns {head : String} {ps : List Pattern} (hps : ∀ p ∈ ps, p ∈ e.patterns) (h : e.Reaches start run) :
    e.Reaches start (tryPatterns head ps run) := by
  induction ps generalizing run with
  | nil => exact h
  | cons p ps ih =>
    rw [List.forall_mem_cons] at hps
    obtain ⟨t, stats⟩ := run
    unfold Engine.tryPatterns
    dsimp only
    split
    · exact ih hps.2 h
    · exact ih hps.2 (h.recount rfl rfl)
    · split
      · exact h.step (.merge hps.1 ‹_› ‹_›) rfl
      · exact ih hps.2 (h.recount rfl rfl)

/-- A pass reaches a later stage. -/
lemma pass (h : e.Reaches start run) : e.Reaches start (e.pass run).1 := by
  unfold Engine.pass
  dsimp only
  split
  · exact h.dropAll _
  · refine (h.dropAll _).foldl fun run head h => ?_
    unfold tryHead
    split
    · exact h
    · exact h.tryPatterns fun p hp => hp

/-- Passes one after the other reach a later stage. -/
lemma loop {n : Nat} (h : e.Reaches start run) : e.Reaches start (e.loop n run).1 := by
  induction n generalizing run with
  | zero => exact h
  | succ n ih =>
    have hstarted : e.Reaches start (run.1, { run.2 with iterations := run.2.iterations + 1 }) := h.recount rfl rfl
    have hp := hstarted.pass
    unfold Engine.loop
    dsimp only
    split
    · rename_i he
      rwa [he] at hp
    · rename_i he
      rw [he] at hp
      split
      · exact ih hp
      · exact hp

end Reaches

/-- A run is a sequence of steps, and it counts the nodes that they drop. -/
lemma runs_run (e : Engine) (s : Sandbox) :
    ∃ trace, e.Runs s trace (e.run s).1.1 ∧ (e.run s).1.2.dropped = (elisions trace).length := by
  obtain ⟨trace, hr, hcount⟩ := (Reaches.refl (e := e) (s, {})).loop (n := e.passes)
  exact ⟨trace, hr, hcount.trans (Nat.zero_add _)⟩

/-- What steps preserve is preserved by a sequence of them. -/
lemma Runs.induct {trace : List (Sandbox × Edit)} {P : Sandbox → Prop}
    (h : e.Runs s trace t) (hs : P s) (step : ∀ s ed t, P s → e.Step s ed t → P t) : P t := by
  induction h with
  | nil => exact hs
  | snoc _ hstep ih => exact step _ _ _ ih hstep

/-- A run keeps the roster of nodes. -/
lemma Runs.roster {g : Graph} {o : Sandbox} {trace : List (Sandbox × Edit)} (h : e.Runs s trace t)
    (hs : Roster g o s) : Roster g o t :=
  h.induct hs fun _ _ _ hs hstep => hs.edit hstep.edit_ok

/-- The account of the nodes stays true in a run. -/
lemma Reaches.roster {g : Graph} {o : Sandbox} {start run : Sandbox × Stats} (h : e.Reaches start run)
    (hs : Roster g o start.1) : Roster g o run.1 := by
  obtain ⟨trace, hr, -⟩ := h
  exact hr.roster hs

end Engine

/-! ### Respelling pins -/

namespace Sandbox

/-- What replacing the pin of one of the given nodes preserves is preserved by respelling their pins. -/
lemma readPins_induct {P : Sandbox → Prop} {ns : List Node}
    (step : ∀ s, ∀ n ∈ ns, ∀ old text t, pin? n = some old → P s → s.updateNode (repin n text) = .ok t → P t)
    {pinned : Dict Layout} (h : P s) : P (s.readPins pinned ns).1 := by
  induction ns generalizing s pinned with
  | nil => exact h
  | cons n ns ih =>
    have hrest := fun s (m : Node) (hm : m ∈ ns) => step s m (List.mem_cons_of_mem n hm)
    unfold readPins
    split
    · exact ih hrest h
    · rename_i old hpin
      split
      · exact h
      · dsimp only
        apply ih hrest
        split
        · exact h
        · split
          · exact step s n List.mem_cons_self old _ _ hpin h ‹_›
          · exact h

/-- What respelling the layouts of nodes preserves holds after normalizing. -/
lemma normalize_induct {P : Sandbox → Prop} {known : Dict Layout}
    (step : ∀ u, ∀ n ∈ s.nodes, ∀ old text t, pin? n = some old → P u → u.updateNode (repin n text) = .ok t → P t)
    (h : P s) : P (s.normalize known).1 := by
  have hread : P (s.readPins {} s.nodes).1 := readPins_induct step h
  unfold normalize
  split
  · rename_i he
    rwa [he] at hread
  · rename_i he
    rwa [he] at hread

end Sandbox

end OpGraph
