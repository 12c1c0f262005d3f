import Mathlib
import OpGraph.Proofs.Digraph

/-!
# Paths and cycles

The search for reachable vertices finds exactly those that a path leads to, and the depth-first check accepts exactly
the graphs without cycles. Two changes keep a relation without cycles that way: contracting a set of points that no
path leaves and enters again, and bypassing a point.
-/

namespace OpGraph

/-- A sequence of two steps succeeds exactly when both do. -/
lemma bind_eq_ok {ε α β : Type} {x : Except ε α} {f : α → Except ε β} {b : β} :
    (x >>= f) = .ok b ↔ ∃ a, x = .ok a ∧ f a = .ok b := by
  cases x with
  | error e => simp [bind, Except.bind]
  | ok a => simp [bind, Except.bind]

/-- The same for a first step that gives no value. -/
lemma bind_unit_eq_ok {ε β : Type} {x : Except ε Unit} {f : Unit → Except ε β} {b : β} :
    (x >>= f) = .ok b ↔ x = .ok () ∧ f () = .ok b := by
  rw [bind_eq_ok]
  exact ⟨fun ⟨_, hx, hf⟩ => ⟨hx, hf⟩, fun ⟨hx, hf⟩ => ⟨(), hx, hf⟩⟩

/-- A mapped computation succeeds exactly if the computation does, with the image of its result. -/
lemma map_eq_ok {ε α β : Type} {f : α → β} {x : Except ε α} {b : β} : f <$> x = .ok b ↔ ∃ a, x = .ok a ∧ f a = b := by
  cases x with
  | error e => simp [Functor.map, Except.map]
  | ok a => simp [Functor.map, Except.map]

/-- A computation that has a result as an option succeeds with it. -/
lemma eq_ok_of_toOption {ε α : Type} {x : Except ε α} {a : α} (h : x.toOption = some a) : x = .ok a := by
  cases x with
  | error e => cases h
  | ok b => exact congrArg Except.ok (Option.some.inj h)

/-- A check of all elements succeeds exactly when each of them passes. -/
lemma forM_ok_iff {ε α : Type} {f : α → Except ε PUnit} :
    ∀ {xs : List α}, xs.forM f = .ok () ↔ ∀ x ∈ xs, f x = .ok ()
  | [] => by simp [pure, Except.pure]
  | x :: xs => by
    change (f x >>= fun _ => xs.forM f) = .ok () ↔ _
    rw [bind_unit_eq_ok, forM_ok_iff, List.forall_mem_cons]

/-- Two steps fail exactly if the first one fails, or it succeeds and the second one fails. -/
lemma bind_eq_error {ε α β : Type} {x : Except ε α} {f : α → Except ε β} {e : ε} :
    (x >>= f) = .error e ↔ x = .error e ∨ ∃ a, x = .ok a ∧ f a = .error e := by
  cases x with
  | error e' => simp [bind, Except.bind]
  | ok a => simp [bind, Except.bind]

/-- A fold that fails does so at one of its steps. -/
lemma foldlM_error {ε σ α : Type} {f : σ → α → Except ε σ} {e : ε} :
    ∀ {xs : List α} {s : σ}, xs.foldlM f s = .error e → ∃ t, ∃ x ∈ xs, f t x = .error e
  | [], s, h => by cases h
  | x :: xs, s, h => by
    rw [List.foldlM_cons, bind_eq_error] at h
    rcases h with h | ⟨t, -, h⟩
    · exact ⟨s, x, List.mem_cons_self, h⟩
    · obtain ⟨t, y, hy, hstep⟩ := foldlM_error h
      exact ⟨t, y, List.mem_cons_of_mem _ hy, hstep⟩

/-- What every step keeps, a sequence of steps keeps. -/
lemma foldlM_ok_induct {ε σ α : Type} {f : σ → α → Except ε σ} {P : σ → Prop} :
    ∀ {xs : List α} {s t : σ}, (∀ s x t, x ∈ xs → P s → f s x = .ok t → P t) → P s → xs.foldlM f s = .ok t → P t
  | [], s, t, _, hs, h => by
    cases h
    exact hs
  | x :: xs, s, t, step, hs, h => by
    rw [List.foldlM_cons, bind_eq_ok] at h
    obtain ⟨u, hu, h⟩ := h
    refine foldlM_ok_induct (fun s y t hy => step s y t (List.mem_cons_of_mem _ hy)) ?_ h
    exact step s x u List.mem_cons_self hs hu

/-- A fold succeeds exactly when each element passes, if what is kept by the steps says whether the next one passes. -/
lemma foldlM_ok_iff_of_keeps {ε σ α : Type} {f : σ → α → Except ε σ} {P : σ → Prop} {Q : α → Prop}
    (hstep : ∀ s x, P s → ((∃ t, f s x = .ok t) ↔ Q x)) (hkeep : ∀ s x t, P s → f s x = .ok t → P t) :
    ∀ {xs : List α} {s : σ}, P s → ((∃ t, xs.foldlM f s = .ok t) ↔ ∀ x ∈ xs, Q x)
  | [], s, _ => by simp [pure, Except.pure]
  | x :: xs, s, hs => by
    rw [List.forall_mem_cons, ← hstep s x hs]
    simp only [List.foldlM_cons, bind_eq_ok]
    constructor
    · rintro ⟨t, u, hu, ht⟩
      exact ⟨⟨u, hu⟩, (foldlM_ok_iff_of_keeps hstep hkeep (hkeep s x u hs hu)).1 ⟨t, ht⟩⟩
    · rintro ⟨⟨u, hu⟩, hxs⟩
      obtain ⟨t, ht⟩ := (foldlM_ok_iff_of_keeps hstep hkeep (hkeep s x u hs hu)).2 hxs
      exact ⟨t, u, hu, ht⟩

/-- Only what the steps do with the elements of the list matters. -/
lemma foldlM_congr {ε σ α : Type} {f f' : σ → α → Except ε σ} :
    ∀ {xs : List α} {s : σ}, (∀ s x, x ∈ xs → f s x = f' s x) → xs.foldlM f s = xs.foldlM f' s
  | [], _, _ => rfl
  | x :: xs, s, h => by
    rw [List.foldlM_cons, List.foldlM_cons, h s x List.mem_cons_self]
    exact congrArg _ (funext fun t => foldlM_congr fun t y hy => h t y (List.mem_cons_of_mem _ hy))

namespace Digraph

open Relation

variable {α β : Type}

/-- Two vertices are joined by an arc. -/
def Adj (g : Digraph α β) (x y : String) : Prop :=
  g.hasArc x y

/-- No path leads from a vertex back to it. -/
def Acyclic (g : Digraph α β) : Prop :=
  ∀ x, ¬ TransGen g.Adj x x

/-- A graph with fewer arcs has fewer cycles. -/
lemma Acyclic.mono {γ δ : Type} {g : Digraph α β} {g' : Digraph γ δ} (ac : g.Acyclic)
    (h : ∀ x y, g'.hasArc x y → g.hasArc x y) : g'.Acyclic :=
  fun x hx => ac x (TransGen.mono h x x hx)

/-- A digraph with no arcs but those of an acyclic one is acyclic. -/
lemma Acyclic.of_subset {γ : Type} {g : Digraph α β} {g' : Digraph γ β} (ac : g.Acyclic) (h : g'.arcs ⊆ g.arcs) :
    g'.Acyclic := by
  refine ac.mono fun x y hxy => ?_
  obtain ⟨a, ha, rfl, rfl⟩ := hasArc_iff.1 hxy
  exact hasArc_of_mem (h ha)

/-- The empty digraph is acyclic. -/
lemma acyclic_empty : (∅ : Digraph α β).Acyclic := by
  intro x hx
  obtain ⟨y, hy, -⟩ := TransGen.head'_iff.1 hx
  cases hy

/-! ### The search for reachable vertices -/

/-- A name that a path inside `remaining` leads to from one of `pending`. -/
inductive Gathered (next : String → List String) (remaining pending : List String) : String → Prop where
  | start {k} : k ∈ pending → k ∈ remaining → Gathered next remaining pending k
  | step {j k} : Gathered next remaining pending j → k ∈ next j → k ∈ remaining → Gathered next remaining pending k

/-- What is gathered after a name was taken is gathered with it. -/
lemma Gathered.weaken {next : String → List String} {remaining pending rest : List String} {k x : String}
    (hk : Gathered next remaining pending k) (hrest : ∀ y ∈ rest, y ∈ pending)
    (h : Gathered next (remaining.erase k) (next k ++ rest) x) : Gathered next remaining pending x := by
  induction h with
  | start hp hr =>
    rcases List.mem_append.1 hp with hn | hp
    · exact .step hk hn (List.mem_of_mem_erase hr)
    · exact .start (hrest _ hp) (List.mem_of_mem_erase hr)
  | step _ hn hr ih => exact .step ih hn (List.mem_of_mem_erase hr)

/-- Whatever else is gathered is gathered without a name that was taken, for its successors become pending. -/
lemma Gathered.strengthen {next : String → List String} {remaining pending rest : List String} {k x : String}
    (hrest : ∀ y ∈ pending, y ∈ remaining → y ≠ k → y ∈ rest) (h : Gathered next remaining pending x)
    (hx : x ≠ k) : Gathered next (remaining.erase k) (next k ++ rest) x := by
  induction h with
  | start hp hr =>
    exact .start (List.mem_append_right _ (hrest _ hp hr hx)) ((List.mem_erase_of_ne hx).2 hr)
  | @step j x _ hn hr ih =>
    have hr : x ∈ remaining.erase k := (List.mem_erase_of_ne hx).2 hr
    by_cases hj : j = k
    · subst hj
      exact .start (List.mem_append_left _ hn) hr
    · exact .step (ih hj) hn hr

/-- Without a pending name that remains nothing is gathered. -/
lemma not_gathered {next : String → List String} {remaining pending : List String}
    (hp : ∀ k ∈ pending, k ∉ remaining) {x : String} : ¬ Gathered next remaining pending x := by
  intro h
  induction h with
  | start hk hr => exact hp _ hk hr
  | step _ _ _ ih => exact ih

/-- The search finds what a path inside the remaining names leads to. -/
lemma mem_gather {next : String → List String} {x : String} :
    ∀ {n : Nat} {remaining pending : List String}, remaining.length ≤ n →
      (x ∈ gather next n remaining pending ↔ Gathered next remaining pending x)
  | 0, remaining, pending, hn => by
    have hr : remaining = [] := List.length_eq_zero_iff.1 (Nat.le_zero.1 hn)
    subst hr
    simp [gather, not_gathered]
  | n + 1, remaining, pending, hn => by
    have hsplit := List.takeWhile_append_dropWhile (p := fun k => !remaining.contains k) (l := pending)
    have hskip : ∀ y ∈ pending.takeWhile fun k => !remaining.contains k, y ∉ remaining := by
      intro y hy
      simpa using List.mem_takeWhile_imp hy
    rw [gather]
    cases hd : pending.dropWhile fun k => !remaining.contains k with
    | nil =>
      rw [hd, List.append_nil] at hsplit
      rw [hsplit] at hskip
      simp [not_gathered hskip]
    | cons k rest =>
      have hk : k ∈ remaining := by
        have h := List.head?_dropWhile_not (fun k => !remaining.contains k) pending
        rw [hd] at h
        simpa using h
      rw [hd] at hsplit
      have hpend : k ∈ pending := by
        rw [← hsplit]
        simp
      have hin : ∀ y ∈ rest, y ∈ pending := by
        intro y hy
        rw [← hsplit]
        simp [hy]
      have hout : ∀ y ∈ pending, y ∈ remaining → y ≠ k → y ∈ rest := by
        intro y hy hr hne
        rw [← hsplit, List.mem_append, List.mem_cons] at hy
        rcases hy with hy | hy | hy
        · exact absurd hr (hskip y hy)
        · exact absurd hy hne
        · exact hy
      have hlen : (remaining.erase k).length ≤ n := by
        rw [List.length_erase_of_mem hk]
        omega
      rw [List.mem_cons, mem_gather hlen]
      constructor
      · rintro (rfl | h)
        · exact .start hpend hk
        · exact Gathered.weaken (.start hpend hk) hin h
      · intro h
        by_cases hx : x = k
        · exact .inl hx
        · exact .inr (h.strengthen hout hx)

/-- One vertex is reachable from another exactly when it is a vertex and a path leads there. -/
lemma Proper.reachable_iff {g : Digraph α β} (hg : g.Proper) {src dst : String} :
    g.reachable src dst ↔ g.hasVertex src ∧ ReflTransGen g.Adj src dst := by
  rw [reachable, List.contains_iff_mem, reachableFrom, mem_gather (Nat.le_refl _), hasVertex_iff]
  constructor
  · intro h
    induction h with
    | start hp hr =>
      cases List.mem_singleton.1 hp
      exact ⟨hr, .refl⟩
    | step _ hn _ ih => exact ⟨ih.1, ih.2.tail (hg.mem_succs.1 hn)⟩
  · rintro ⟨hs, h⟩
    induction h with
    | refl => exact .start (List.mem_singleton.2 rfl) hs
    | tail _ hadj ih => exact .step ih (hg.mem_succs.2 hadj) (hasVertex_iff.1 (hg.hasVertex_dst hadj))

/-! ### The depth-first check -/

/-- A list in which the successors of every vertex stand behind it. -/
def Finished (g : Digraph α β) : List String → Prop
  | [] => True
  | k :: done => (∀ j, g.Adj k j → j ∈ done) ∧ g.Finished done

/-- No arc leads out of a finished list. -/
lemma Finished.closed {g : Digraph α β} :
    ∀ {done : List String}, g.Finished done → ∀ {x y : String}, x ∈ done → g.Adj x y → y ∈ done
  | _ :: _, ⟨hk, hf⟩, _, _, hx, hxy => by
    rcases List.mem_cons.1 hx with rfl | hx
    · exact List.mem_cons_of_mem _ (hk _ hxy)
    · exact List.mem_cons_of_mem _ (hf.closed hx hxy)

/-- What can be reached from a finished vertex is finished. -/
lemma Finished.closed_path {g : Digraph α β} {done : List String} (hf : g.Finished done) {x y : String} (hx : x ∈ done)
    (h : ReflTransGen g.Adj x y) : y ∈ done := by
  induction h with
  | refl => exact hx
  | tail _ hadj ih => exact hf.closed ih hadj

/-- No cycle leads through a finished list. -/
lemma Finished.no_cycle {g : Digraph α β} :
    ∀ {done : List String}, g.Finished done → ∀ {x : String}, x ∈ done → ¬ TransGen g.Adj x x
  | k :: done, ⟨hk, hf⟩, x, hx, hc => by
    rcases List.mem_cons.1 hx with rfl | hx
    · obtain ⟨j, hj, hpath⟩ := TransGen.head'_iff.1 hc
      exact hf.no_cycle (hf.closed_path (hk j hj) hpath) hc
    · exact hf.no_cycle hx hc

/-- When every visit keeps the list finished and adds its vertex, a sequence of visits adds all of theirs. -/
lemma Finished.foldlM {g : Digraph α β} {f : List String → String → Except Error (List String)} :
    ∀ {js a b : List String},
      (∀ a j b, j ∈ js → g.Finished a → f a j = .ok b → g.Finished b ∧ j ∈ b ∧ ∀ x ∈ a, x ∈ b) →
        g.Finished a → js.foldlM f a = .ok b → g.Finished b ∧ (∀ j ∈ js, j ∈ b) ∧ ∀ x ∈ a, x ∈ b
  | [], a, b, _, ha, h => by
    cases h
    exact ⟨ha, by simp, fun x hx => hx⟩
  | j :: js, a, b, hf, ha, h => by
    obtain ⟨c, hc, hb⟩ := bind_eq_ok.1 h
    obtain ⟨hfc, hjc, hac⟩ := hf a j c List.mem_cons_self ha hc
    obtain ⟨hfb, hjb, hcb⟩ := Finished.foldlM (fun a i b hi => hf a i b (List.mem_cons_of_mem _ hi)) hfc hb
    refine ⟨hfb, ?_, fun x hx => hcb x (hac x hx)⟩
    intro i hi
    rcases List.mem_cons.1 hi with rfl | hi
    · exact hcb _ hjc
    · exact hjb i hi

/-- A visit that ends well leaves a finished list with the visited vertex in it. The depth never runs out, for the
vertices on the way are distinct. -/
lemma Proper.visit_ok {g : Digraph α β} (hg : g.Proper) :
    ∀ {n : Nat} {path done done' : List String} {k : String}, g.keys.length < n + path.length → path.Nodup →
      (∀ x ∈ path, x ∈ g.keys) → k ∈ g.keys → g.Finished done → g.visit n path done k = .ok done' →
        g.Finished done' ∧ k ∈ done' ∧ ∀ x ∈ done, x ∈ done'
  | 0, path, _, _, _, hlen, hnd, hsub, _, _, _ => by
    have hle : path.length ≤ g.keys.length := (hnd.subperm fun x hx => hsub x hx).length_le
    omega
  | n + 1, path, done, done', k, hlen, hnd, hsub, hk, hf, h => by
    rw [visit] at h
    split at h
    · rename_i hdone
      cases h
      exact ⟨hf, List.contains_iff_mem.1 hdone, fun x hx => hx⟩
    · split at h
      · cases h
      · rename_i hpath
        obtain ⟨mid, hfold, hret⟩ := bind_eq_ok.1 h
        cases hret
        have hnk : k ∉ path := fun hm => hpath (List.contains_iff_mem.2 hm)
        have hsub' : ∀ x ∈ k :: path, x ∈ g.keys := by
          intro x hx
          rcases List.mem_cons.1 hx with rfl | hx
          · exact hk
          · exact hsub x hx
        have hsuccs : ∀ j ∈ g.succs k, j ∈ g.keys :=
          fun j hj => hasVertex_iff.1 (hg.hasVertex_dst (hg.mem_succs.1 hj))
        have hvisit : ∀ a j b, j ∈ g.succs k → g.Finished a → g.visit n (k :: path) a j = .ok b →
            g.Finished b ∧ j ∈ b ∧ ∀ x ∈ a, x ∈ b := by
          intro a j b hj ha hb
          exact hg.visit_ok (by simp only [List.length_cons]; omega) (List.nodup_cons.2 ⟨hnk, hnd⟩) hsub'
            (hsuccs j hj) ha hb
        obtain ⟨hfm, hjm, hdm⟩ := Finished.foldlM hvisit hf hfold
        refine ⟨⟨fun j hj => hjm j (hg.mem_succs.2 hj), hfm⟩, List.mem_cons_self, ?_⟩
        intro x hx
        exact List.mem_cons_of_mem _ (hdm x hx)

/-- A visit that fails names a vertex on a cycle, for it met that vertex again on its own path. -/
lemma Proper.onCycle_of_visit {g : Digraph α β} (hg : g.Proper) {e : Error} :
    ∀ {n : Nat} {path done : List String} {k : String}, (∀ x ∈ path, TransGen g.Adj x k) →
      g.visit n path done k = .error e → ∃ j, e = .onCycle j ∧ TransGen g.Adj j j
  | 0, _, _, _, _, h => by cases h
  | n + 1, path, done, k, hpath, h => by
    rw [visit] at h
    split at h
    · cases h
    · split at h
      · rename_i hk
        cases h
        exact ⟨k, rfl, hpath k (List.contains_iff_mem.1 hk)⟩
      · rcases bind_eq_error.1 h with hfold | ⟨_, -, hret⟩
        · obtain ⟨done', j, hj, hvisit⟩ := foldlM_error hfold
          have hj := hg.mem_succs.1 hj
          refine hg.onCycle_of_visit (fun x hx => ?_) hvisit
          rcases List.mem_cons.1 hx with rfl | hx
          · exact .single hj
          · exact (hpath x hx).tail hj
        · cases hret

/-- A vertex that the check reports lies on a cycle. -/
lemma Proper.onCycle_of_checkAcyclic {g : Digraph α β} (hg : g.Proper) {e : Error} (h : g.checkAcyclic = .error e) :
    ∃ k, e = .onCycle k ∧ TransGen g.Adj k k := by
  rcases bind_eq_error.1 h with hfold | ⟨_, -, hret⟩
  · obtain ⟨done, k, -, hvisit⟩ := foldlM_error hfold
    exact hg.onCycle_of_visit (by simp) hvisit
  · cases hret

/-- The check accepts exactly the graphs without cycles. -/
lemma Proper.checkAcyclic_ok_iff {g : Digraph α β} (hg : g.Proper) : g.checkAcyclic = .ok () ↔ g.Acyclic := by
  constructor
  · intro h x hx
    obtain ⟨done, hfold, -⟩ := bind_eq_ok.1 h
    have hvisit : ∀ a k b, k ∈ g.keys → g.Finished a → g.visit (g.keys.length + 1) [] a k = .ok b →
        g.Finished b ∧ k ∈ b ∧ ∀ x ∈ a, x ∈ b := by
      intro a k b hk ha hb
      exact hg.visit_ok (by simp) List.nodup_nil (by simp) hk ha hb
    have hnil : g.Finished [] := trivial
    obtain ⟨hf, hkeys, -⟩ := Finished.foldlM hvisit hnil hfold
    obtain ⟨y, hy, -⟩ := TransGen.head'_iff.1 hx
    exact hf.no_cycle (hkeys x (hasVertex_iff.1 (hg.hasVertex_src hy))) hx
  · intro ac
    cases h : g.checkAcyclic with
    | ok _ => rfl
    | error e =>
      obtain ⟨k, -, hk⟩ := hg.onCycle_of_checkAcyclic h
      exact absurd hk (ac k)

/-! ### Adding an arc -/

/-- With one more arc a path either does without it or uses it somewhere. -/
lemma transGen_insert {γ : Type} {r : γ → γ → Prop} {s d x y : γ}
    (h : TransGen (fun a b => (a = s ∧ b = d) ∨ r a b) x y) :
    TransGen r x y ∨ ReflTransGen r x s ∧ ReflTransGen r d y := by
  induction h with
  | single hab =>
    rcases hab with ⟨rfl, rfl⟩ | hab
    · exact .inr ⟨.refl, .refl⟩
    · exact .inl (.single hab)
  | tail _ hab ih =>
    rcases hab with ⟨rfl, rfl⟩ | hab
    · rcases ih with ih | ⟨ih, -⟩
      · exact .inr ⟨ih.to_reflTransGen, .refl⟩
      · exact .inr ⟨ih, .refl⟩
    · rcases ih with ih | ⟨ihs, ihd⟩
      · exact .inl (ih.tail hab)
      · exact .inr ⟨ihs, ihd.tail hab⟩

/-- An added arc closes no cycle. -/
lemma WellFormed.acyclic_addArc {g g' : Digraph α β} (wf : g.WellFormed) (ac : g.Acyclic) {src dst : String} {val : β}
    (h : g.addArc src dst val = .ok g') : g'.Acyclic := by
  obtain ⟨-, -, hd, -, hr, -⟩ := addArc_ok_iff.1 h
  intro x hx
  have hx : TransGen (fun a b => (a = src ∧ b = dst) ∨ g.Adj a b) x x :=
    TransGen.mono (fun a b hab => (hasArc_addArc h).1 hab) x x hx
  rcases transGen_insert hx with hx | ⟨hs, hd'⟩
  · exact ac x hx
  · exact hr (wf.proper.reachable_iff.2 ⟨hd, hd'.trans hs⟩)

/-- An arc of a relation without cycles can be added to a part of the relation, unless it is there. -/
lemma WellFormed.addArc_of_acyclic {g : Digraph α β} (wf : g.WellFormed) {r : String → String → Prop}
    (hr : ∀ x, ¬ TransGen r x x) (hg : ∀ x y, g.Adj x y → r x y) {src dst : String} (hs : g.hasVertex src)
    (hd : g.hasVertex dst) (hsd : r src dst) (val : β) :
    (g.hasArc src dst ∧ g.addArc src dst val = .error (.arcExists src dst)) ∨
      (¬ g.hasArc src dst ∧ ∃ g', g.addArc src dst val = .ok g') := by
  have hne : src ≠ dst := by
    rintro rfl
    exact hr src (.single hsd)
  by_cases ha : g.hasArc src dst
  · refine .inl ⟨ha, ?_⟩
    simp [Digraph.addArc, hne, hs, hd, ha]
  · refine .inr ⟨ha, ?_⟩
    have hreach : ¬ g.reachable dst src := by
      intro h
      have hpath : ReflTransGen r dst src := ReflTransGen.mono hg dst src (wf.proper.reachable_iff.1 h).2
      exact hr src (TransGen.head' hsd hpath)
    exact ⟨_, addArc_ok_iff.2 ⟨hne, hs, hd, ha, hreach, rfl⟩⟩

/-! ### Contracting and bypassing -/

section Contraction

variable {γ : Type} {r : γ → γ → Prop} {M : γ → Prop} {f : γ}

/-- The relation after the points of `M` became the one point `f`. -/
def Contracted (r : γ → γ → Prop) (M : γ → Prop) (f x y : γ) : Prop :=
  (¬ M x ∧ ¬ M y ∧ r x y) ∨ (¬ M x ∧ y = f ∧ ∃ m, M m ∧ r x m) ∨ (x = f ∧ ¬ M y ∧ ∃ m, M m ∧ r m y)

/-- A path of the contracted relation that starts elsewhere either stays away from the new point, or it comes to the
border of the contracted set first. -/
lemma Contracted.path_cases (hf : ∀ x, ¬ r x f) {y z : γ} (hy : y ≠ f) (h : ReflTransGen (Contracted r M f) y z) :
    (z ≠ f ∧ ReflTransGen r y z) ∨
      ((∃ x m, M m ∧ ¬ M x ∧ r x m ∧ ReflTransGen r y x) ∧ ReflTransGen (Contracted r M f) y f ∧
        ReflTransGen (Contracted r M f) f z) := by
  induction h with
  | refl => exact .inl ⟨hy, .refl⟩
  | tail hyz hzw ih =>
    rcases ih with ⟨hz, hpath⟩ | ⟨hits, hyf, hfz⟩
    · rcases hzw with ⟨-, -, hrel⟩ | ⟨hM, rfl, m, hm, hrel⟩ | ⟨rfl, -⟩
      · refine .inl ⟨?_, hpath.tail hrel⟩
        rintro rfl
        exact hf _ hrel
      · exact .inr ⟨⟨_, m, hm, hM, hrel, hpath⟩, hyz.tail (.inr (.inl ⟨hM, rfl, m, hm, hrel⟩)), .refl⟩
      · exact absurd rfl hz
    · exact .inr ⟨hits, hyf, hfz.tail hzw⟩

/-- Contracting a set that no path leaves and enters again closes no cycle. -/
lemma Contracted.acyclic (hr : ∀ x, ¬ TransGen r x x) (hin : ∀ x, ¬ r x f) (hout : ∀ x, ¬ r f x)
    (hconvex : ∀ {m y x m'}, M m → ¬ M y → r m y → ¬ M x → M m' → r x m' → ¬ ReflTransGen r y x) (x : γ) :
    ¬ TransGen (Contracted r M f) x x := by
  have hcycle : ¬ TransGen (Contracted r M f) f f := by
    intro h
    obtain ⟨y, hfy, hpath⟩ := TransGen.head'_iff.1 h
    rcases hfy with ⟨-, -, hrel⟩ | ⟨-, -, m, -, hrel⟩ | ⟨-, hMy, m, hm, hrel⟩
    · exact hout y hrel
    · exact hout m hrel
    · have hy : y ≠ f := by
        rintro rfl
        exact hin m hrel
      rcases path_cases hin hy hpath with ⟨hne, -⟩ | ⟨⟨x, m', hm', hMx, hxm, hyx⟩, -, -⟩
      · exact hne rfl
      · exact hconvex hm hMy hrel hMx hm' hxm hyx
  intro h
  obtain ⟨y, hxy, hpath⟩ := TransGen.head'_iff.1 h
  by_cases hx : x = f
  · subst hx
    exact hcycle h
  · by_cases hy : y = f
    · subst hy
      exact hcycle (TransGen.tail' hpath hxy)
    · rcases path_cases hin hy hpath with ⟨-, hyx⟩ | ⟨-, hyf, hfx⟩
      · have hrel : r x y := by
          rcases hxy with ⟨-, -, hrel⟩ | ⟨-, rfl, -⟩ | ⟨rfl, -⟩
          · exact hrel
          · exact absurd rfl hy
          · exact absurd rfl hx
        exact hr x (TransGen.head' hrel hyx)
      · exact hcycle ((TransGen.tail' hfx hxy).trans_left hyf)

end Contraction

/-- The relation in which the successors of `d` come right after `p`. -/
def Bypassed {γ : Type} (r : γ → γ → Prop) (p d x y : γ) : Prop :=
  (r x y ∧ x ≠ d ∧ y ≠ d) ∨ (x = p ∧ r d y)

section Bypass

variable {γ : Type} {r : γ → γ → Prop} {p d : γ}

/-- Where `d` is behind `p`, what is joined after `d` was bypassed was connected before. -/
lemma Bypassed.transGen (hp : r p d) {x y : γ} (h : Bypassed r p d x y) : TransGen r x y := by
  rcases h with ⟨hxy, -, -⟩ | ⟨rfl, hdy⟩
  · exact .single hxy
  · exact .tail (.single hp) hdy

/-- Bypassing a point closes no cycle. -/
lemma Bypassed.acyclic (hr : ∀ x, ¬ TransGen r x x) (hp : r p d) (x : γ) : ¬ TransGen (Bypassed r p d) x x :=
  fun h => hr x (TransGen.closed (fun _ _ => transGen hp) x x h)

/-- Bypassing a point that only `p` comes before leaves it as it was which of the other points follow each other. -/
lemma Bypassed.path_iff (hp : ∀ z, r z d ↔ z = p) (hd : ¬ r d d) {x y : γ} (hx : x ≠ d) (hy : y ≠ d) :
    ReflTransGen (Bypassed r p d) x y ↔ ReflTransGen r x y := by
  constructor
  · intro h
    clear hy
    induction h with
    | refl => exact .refl
    | tail _ hzw ih => exact ih.trans (transGen ((hp p).2 rfl) hzw).to_reflTransGen
  · intro h
    -- A path that stands at `d` came there from `p`.
    have hpath : (y = d ∧ ReflTransGen (Bypassed r p d) x p) ∨ (y ≠ d ∧ ReflTransGen (Bypassed r p d) x y) := by
      clear hy
      induction h with
      | refl => exact .inr ⟨hx, .refl⟩
      | @tail z w _ hzw ih =>
        by_cases hw : w = d
        · subst hw
          obtain rfl := (hp z).1 hzw
          rcases ih with ⟨rfl, -⟩ | ⟨-, ih⟩
          · exact absurd hzw hd
          · exact .inl ⟨rfl, ih⟩
        · rcases ih with ⟨rfl, ih⟩ | ⟨hz, ih⟩
          · exact .inr ⟨hw, ih.tail (.inr ⟨rfl, hzw⟩)⟩
          · exact .inr ⟨hw, ih.tail (.inl ⟨hzw, hz, hw⟩)⟩
    exact (hpath.resolve_left fun h => hy h.1).2

end Bypass

end Digraph

end OpGraph
