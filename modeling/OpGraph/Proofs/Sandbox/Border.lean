import Mathlib
import OpGraph.Proofs.Sandbox.Edits

/-!
# Boundary nodes and records of a sandbox

What a sandbox has as its boundary are the boundary nodes of the graph, each replaced by what took its place. What it
has as its records are those of the graph that were not superseded, and those of the nodes fused here. A node that is
an output stays, for it can not be dropped; a node that is an input or has a record does not always.
-/

namespace OpGraph.Sandbox

variable {old new i : String} {g : Graph} {s : Sandbox} {names : List String} {fused : Node}

/-- A node of the sandbox, or a node of the graph outside of the region. -/
def Keeps (s : Sandbox) (g : Graph) (name : String) : Prop :=
  s.dag.hasVertex name ∨ (g.hasNode name ∧ name ∉ s.removedNodes)

instance (s : Sandbox) (g : Graph) (name : String) : Decidable (s.Keeps g name) :=
  inferInstanceAs (Decidable (_ ∨ _))

/-! ### The boundary -/

/-- The boundary of the sandbox is that of the graph under the new names. -/
structure Redirected (g : Graph) (s : Sandbox) : Prop where
  ins : ∀ x, s.ins.contains x ↔ ∃ i ∈ g.ins, s.boundary.getD i i = x
  outs : ∀ x, s.outs.contains x ↔ ∃ i ∈ g.outs, s.boundary.getD i i = x
  values : ∀ {i x}, s.boundary.get? i = some x → x ∉ g.dag.keys

/-- Between edits, what was replaced at the boundary is gone, and the outputs are there. -/
structure Bordered (g : Graph) (s : Sandbox) : Prop where
  redirected : Redirected g s
  gone : ∀ {i}, s.boundary.contains i → s.taken.contains i ∧ ¬ s.Keeps g i
  outs_kept : ∀ {x}, s.outs.contains x → s.Keeps g x

/-- After a name was replaced, the new one is there if the old one was, and the old one no longer is. -/
lemma contains_replaceName {names : NameSet} {x : String} :
    (replaceName names old new).contains x ↔ (names.contains x ∧ x ≠ old) ∨ (x = new ∧ names.contains old) := by
  unfold replaceName
  split
  · rename_i h
    simp only [NameSet.contains_add, Dict.contains_erase, h, and_true]
    tauto
  · rename_i h
    constructor
    · intro hx
      refine .inl ⟨hx, ?_⟩
      rintro rfl
      exact h hx
    · rintro (⟨hx, -⟩ | ⟨-, ho⟩)
      · exact hx
      · exact absurd ho h

/-- A boundary node of the graph whose place was taken by `old` goes to `new`. -/
lemma getD_redirectBoundary     (hvalues : ∀ {i x}, s.boundary.get? i = some x → x ∉ g.dag.keys)
    (hold : ¬ s.boundary.contains old)
    (hi : i ∈ g.dag.keys) : (s.redirectBoundary old new).boundary.getD i i =
      if s.boundary.getD i i = old then new else s.boundary.getD i i := by
  unfold redirectBoundary
  split
  · rename_i hany
    obtain ⟨⟨j, x⟩, hj, hx⟩ := List.any_eq_true.1 hany
    obtain rfl : x = old := by simpa using hx
    have hng : x ∉ g.dag.keys := hvalues ((Dict.get?_eq_some_iff _ j x).2 hj)
    have hget : (s.boundary.map fun _ y => if y = x then new else y).get? i =
        (s.boundary.get? i).map fun y => if y = x then new else y := Dict.get?_map _ _ i
    cases hi' : s.boundary.get? i with
    | some y =>
      rw [hi'] at hget
      rw [Dict.getD_of_some hget, Dict.getD_of_some hi']
    | none =>
      rw [hi'] at hget
      rw [Dict.getD_of_none hget, Dict.getD_of_none hi', if_neg (show i ≠ x from fun h => hng (h ▸ hi))]
  · rename_i hany
    have hget := Dict.get?_insert s.boundary old i new
    by_cases hio : i = old
    · subst hio
      rw [if_pos rfl] at hget
      rw [Dict.getD_of_some hget, Dict.getD_of_none (Dict.get?_eq_none_iff.2 hold), if_pos rfl]
    · rw [if_neg hio] at hget
      cases hi' : s.boundary.get? i with
      | none => rw [Dict.getD_of_none (hget.trans hi'), Dict.getD_of_none hi', if_neg hio]
      | some y =>
        have hne : y ≠ old := by
          rintro rfl
          exact hany (List.any_eq_true.2 ⟨(i, y), (Dict.get?_eq_some_iff _ i y).1 hi', by simp⟩)
        rw [Dict.getD_of_some (hget.trans hi'), Dict.getD_of_some hi', if_neg hne]

/-- The names that get a new place in the boundary. -/
lemma contains_redirectBoundary     (h : (s.redirectBoundary old new).boundary.contains i) :
    s.boundary.contains i ∨ i = old := by
  unfold redirectBoundary at h
  split at h
  · left
    obtain ⟨x, hx⟩ := Dict.contains_iff.1 h
    have hget := Dict.get?_map s.boundary (fun _ y => if y = old then new else y) i
    rw [show (s.boundary.map fun _ y => if y = old then new else y).get? i = some x from hx] at hget
    obtain ⟨y, hy, -⟩ := Option.map_eq_some_iff.1 hget.symm
    exact Dict.contains_iff.2 ⟨y, hy⟩
  · rcases Dict.contains_insert.1 h with rfl | h
    · exact .inr rfl
    · exact .inl h

/-- What stands in the boundary for another node is old or the new one. -/
lemma get?_redirectBoundary {x : String}
    (h : (s.redirectBoundary old new).boundary.get? i = some x) : s.boundary.get? i = some x ∨ x = new := by
  unfold redirectBoundary at h
  split at h
  · have hget := Dict.get?_map s.boundary (fun _ y => if y = old then new else y) i
    rw [show (s.boundary.map fun _ y => if y = old then new else y).get? i = some x from h] at hget
    obtain ⟨y, hy, hx⟩ := Option.map_eq_some_iff.1 hget.symm
    split at hx
    · exact .inr hx.symm
    · exact .inl (hx ▸ hy)
  · have hget := Dict.get?_insert s.boundary old i new
    rw [show (s.boundary.insert old new).get? i = some x from h] at hget
    split at hget
    · exact .inr (Option.some.inj hget)
    · exact .inl hget.symm

/-- What moving the part of a node in the boundary does. -/
structure BorderMoved (s : Sandbox) (old new : String) (t : Sandbox) : Prop where
  ins : ∀ x, t.ins.contains x ↔ (s.ins.contains x ∧ x ≠ old) ∨ (x = new ∧ s.ins.contains old)
  outs : ∀ x, t.outs.contains x ↔ (s.outs.contains x ∧ x ≠ old) ∨ (x = new ∧ s.outs.contains old)
  keys : ∀ i, t.boundary.contains i → s.boundary.contains i ∨ i = old
  values : ∀ i x, t.boundary.get? i = some x → s.boundary.get? i = some x ∨ x = new

/-- Moving the boundary from one node to another replaces its name at the boundary. -/
lemma borderMoved_moveBoundary (s : Sandbox) (old new : String) : BorderMoved s old new (s.moveBoundary old new) := by
  unfold moveBoundary
  split
  · set u : Sandbox := { s with ins := replaceName s.ins old new, outs := replaceName s.outs old new } with hu
    have hins : (u.redirectBoundary old new).ins = replaceName s.ins old new := by
      unfold redirectBoundary
      split <;> rfl
    have houts : (u.redirectBoundary old new).outs = replaceName s.outs old new := by
      unfold redirectBoundary
      split <;> rfl
    exact ⟨fun x => hins ▸ contains_replaceName, fun x => houts ▸ contains_replaceName,
      fun i hi => contains_redirectBoundary (s := u) hi, fun i x hx => get?_redirectBoundary (s := u) hx⟩
  · rename_i h
    rw [Bool.or_eq_true, not_or] at h
    refine ⟨fun x => ?_, fun x => ?_, fun i => .inl, fun i x => .inl⟩
    · constructor
      · intro hx
        exact .inl ⟨hx, fun he => h.1 (he ▸ hx)⟩
      · rintro (⟨hx, -⟩ | ⟨-, hx⟩)
        · exact hx
        · exact absurd hx h.1
    · constructor
      · intro hx
        exact .inl ⟨hx, fun he => h.2 (he ▸ hx)⟩
      · rintro (⟨hx, -⟩ | ⟨-, hx⟩)
        · exact hx
        · exact absurd hx h.2

namespace Redirected

variable {g : Graph} {s t : Sandbox} {new : String}

/-- Moving the part of a node in the boundary that was not moved before. -/
lemma moveBoundary (h : Redirected g s) (hg : g.Regular) (hnew : new ∉ g.dag.keys)
    (hold : ¬ s.boundary.contains old) : Redirected g (s.moveBoundary old new) := by
  have hmoved := borderMoved_moveBoundary s old new
  -- In either list of boundary nodes, those that `old` stands for now have `new` in their place.
  have hlist : ∀ {a b : NameSet} {names : List String}, (∀ i ∈ names, g.hasNode i) →
      (∀ x, a.contains x ↔ ∃ i ∈ names, s.boundary.getD i i = x) →
      (∀ x, b.contains x ↔ (a.contains x ∧ x ≠ old) ∨ (x = new ∧ a.contains old)) →
      ∀ x, b.contains x ↔ ∃ i ∈ names, (s.redirectBoundary old new).boundary.getD i i = x := by
    intro a b names hnames ha hb x
    replace hnames := fun i hi => Digraph.hasVertex_iff.1 (hnames i hi)
    rw [hb, ha, ha]
    constructor
    · rintro (⟨⟨i, hi, rfl⟩, hne⟩ | ⟨rfl, i, hi, he⟩)
      · exact ⟨i, hi, by rw [getD_redirectBoundary h.values hold (hnames i hi), if_neg hne]⟩
      · exact ⟨i, hi, by rw [getD_redirectBoundary h.values hold (hnames i hi), if_pos he]⟩
    · rintro ⟨i, hi, rfl⟩
      rw [getD_redirectBoundary h.values hold (hnames i hi)]
      split
      · exact .inr ⟨rfl, i, hi, ‹_›⟩
      · exact .inl ⟨⟨i, hi, rfl⟩, ‹_›⟩
  have hvalues : ∀ {i x}, (s.moveBoundary old new).boundary.get? i = some x → x ∉ g.dag.keys := by
    intro i x hx
    rcases hmoved.values i x hx with hx | rfl
    · exact h.values hx
    · exact hnew
  by_cases hany : (s.ins.contains old || s.outs.contains old) = true
  · have hb : (s.moveBoundary old new).boundary = (s.redirectBoundary old new).boundary := by
      rw [Sandbox.moveBoundary, if_pos hany]
      unfold redirectBoundary
      dsimp only
      split <;> rfl
    refine ⟨?_, ?_, hvalues⟩
    · rw [hb]
      exact hlist hg.sound.ins h.ins hmoved.ins
    · rw [hb]
      exact hlist hg.sound.outs h.outs hmoved.outs
  · rw [Sandbox.moveBoundary, if_neg hany]
    exact h

/-- Moving the parts of several nodes in the boundary to one node. -/
lemma foldl_moveBoundary (hg : g.Regular) (hnew : new ∉ g.dag.keys) :
    ∀ {names : List String} {s : Sandbox}, Redirected g s → names.Nodup → (∀ m ∈ names, ¬ s.boundary.contains m) →
      Redirected g (names.foldl (fun s m => s.moveBoundary m new) s)
  | [], _, h, _, _ => h
  | m :: names, s, h, hnd, hb => by
    rw [List.nodup_cons] at hnd
    rw [List.forall_mem_cons] at hb
    rw [List.foldl_cons]
    refine foldl_moveBoundary hg hnew (h.moveBoundary hg hnew hb.1) hnd.2 fun j hj hc => ?_
    rcases (borderMoved_moveBoundary s m new).keys j hc with hc | rfl
    · exact hb.2 j hj hc
    · exact hnd.1 hj

/-- What stands for an output of the graph after the part of a node was moved. -/
lemma getD_moveBoundary (h : Redirected g s) (hg : g.Regular) (hold : ¬ s.boundary.contains old) (hi : i ∈ g.outs) :
    (s.moveBoundary old new).boundary.getD i i = if s.boundary.getD i i = old then new else s.boundary.getD i i := by
  unfold Sandbox.moveBoundary
  split
  · have hlive := Digraph.hasVertex_iff.1 (hg.sound.outs i hi)
    exact getD_redirectBoundary (s := { s with ins := replaceName s.ins old new, outs := replaceName s.outs old new })
      h.values hold hlive
  · rename_i hno
    rw [Bool.or_eq_true, not_or] at hno
    have hout : s.outs.contains (s.boundary.getD i i) := (h.outs _).2 ⟨i, hi, rfl⟩
    have hne : s.boundary.getD i i ≠ old := fun he => hno.2 (he ▸ hout)
    rw [if_neg hne]

/-- What stands for an output of the graph after the parts of several nodes were moved. -/
lemma getD_foldl_moveBoundary (hg : g.Regular) (hnew : new ∉ g.dag.keys) (hi : i ∈ g.outs)
    (h : Redirected g s) (hnd : names.Nodup) (hb : ∀ m ∈ names, ¬ s.boundary.contains m) :
    (names.foldl (fun s m => s.moveBoundary m new) s).boundary.getD i i =
      if s.boundary.getD i i ∈ names then new else s.boundary.getD i i := by
  induction names generalizing s with
  | nil => rw [List.foldl_nil, if_neg List.not_mem_nil]
  | cons m names ih =>
    rw [List.nodup_cons] at hnd
    rw [List.forall_mem_cons] at hb
    have hrest : ∀ j ∈ names, ¬ (s.moveBoundary m new).boundary.contains j := by
      intro j hj hc
      rcases (borderMoved_moveBoundary s m new).keys j hc with hc | rfl
      · exact hb.2 j hj hc
      · exact hnd.1 hj
    rw [List.foldl_cons, ih (h.moveBoundary hg hnew hb.1) hnd.2 hrest, h.getD_moveBoundary hg hb.1 hi]
    by_cases he : s.boundary.getD i i = m
    · rw [if_pos he, if_pos (List.mem_cons.2 (.inl he)), ite_self]
    · simp [he]

/-- Only the boundary matters. -/
lemma of_border (h : Redirected g s) (he : t.border = s.border) : Redirected g t := by
  obtain ⟨hins, houts, hb⟩ := border_eq_iff.1 he
  exact ⟨by rw [hins, hb]; exact h.ins, by rw [houts, hb]; exact h.outs, by rw [hb]; exact h.values⟩

end Redirected

/-- What the parts of several nodes in the boundary become. -/
lemma foldl_moveBoundary_cases : ∀ {names : List String} {s : Sandbox},
      (∀ x, (names.foldl (fun s m => s.moveBoundary m new) s).outs.contains x →
        x = new ∨ s.outs.contains x ∧ x ∉ names) ∧
      ∀ i, (names.foldl (fun s m => s.moveBoundary m new) s).boundary.contains i → s.boundary.contains i ∨ i ∈ names
  | [], s => ⟨fun x hx => .inr ⟨hx, by simp⟩, fun i hi => .inl hi⟩
  | m :: names, s => by
    have hmoved := borderMoved_moveBoundary s m new
    obtain ⟨houts, hkeys⟩ := @foldl_moveBoundary_cases names (s.moveBoundary m new)
    refine ⟨fun x hx => ?_, fun i hi => ?_⟩
    · rcases houts x hx with rfl | ⟨hx, hn⟩
      · exact .inl rfl
      · rcases (hmoved.outs x).1 hx with ⟨hx, hne⟩ | ⟨rfl, -⟩
        · exact .inr ⟨hx, by rw [List.mem_cons, not_or]; exact ⟨hne, hn⟩⟩
        · exact .inl rfl
    · rcases hkeys i hi with hi | hi
      · exact (hmoved.keys i hi).imp_right (List.mem_cons.2 ∘ .inl)
      · exact .inr (List.mem_cons_of_mem _ hi)

/-- A node is kept if it is there or outside of the region. -/
lemma Tracks.keeps_iff {o : Sandbox} (h : Tracks g o s) {x : String} :
    s.Keeps g x ↔ x ∈ s.dag.keys ∨ x ∈ g.dag.keys ∧ x ∉ o.dag.keys := by
  rw [Keeps, Digraph.hasVertex_iff, Graph.hasNode, Digraph.hasVertex_iff]
  constructor
  · rintro (hx | ⟨hg, hr⟩)
    · exact .inl hx
    · by_cases ho : x ∈ o.dag.keys
      · exact .inl (h.present x ho hr)
      · exact .inr ⟨hg, ho⟩
  · rintro (hx | ⟨hg, ho⟩)
    · exact .inl hx
    · exact .inr ⟨hg, fun hr => ho (h.removed x hr).1⟩

namespace Bordered

variable {g : Graph} {o s t : Sandbox}

/-- A copy of a graph has its boundary. -/
lemma copy (hg : g.Regular) (region : Option (List String)) : Bordered g (Sandbox.copy g region) := by
  have hb : (Sandbox.copy g region).boundary = {} := rfl
  have hgetD : ∀ i : String, ({} : Dict String).getD i i = i := fun i => rfl
  refine ⟨⟨fun x => ?_, fun x => ?_, by simp [hb]⟩, by simp [hb], fun {x} hx => .inr ⟨?_, by simp [Sandbox.copy]⟩⟩
  · simp [hgetD, Sandbox.copy]
  · simp [hgetD, Sandbox.copy]
  · exact hg.sound.outs x (by simpa [Sandbox.copy] using hx)

/-- A merge moves the parts of the members in the boundary to the fused node. -/
lemma border_contract (hs : Roster g o s) (hm : s.Contractible names fused.name) (record : MergeRecord) :
    ∃ w : Sandbox, w.border = s.border ∧
      (s.contract names fused record).border = (names.foldl (fun s m => s.moveBoundary m fused.name) w).border := by
  refine ⟨(s.replaced names fused).rewireAll (s.crossings names fused), ?_, ?_⟩
  · obtain ⟨-, -, -, -, -, hb, -⟩ := replaced_eq hs hm
    rw [← hb]
    exact @foldl_eq_of_step _ _ _ _ border (fun s (m : Edge × Edge) => (s.rewire_frame m.1 m.2).1) _ _
  · rw [contract_eq]
    rfl

/-- A merge keeps what is noted at the boundary in step with the nodes. -/
lemma contract (h : Bordered g s) (hs : Tracks g o s) (hc : Copied g o)     (hm : s.Contractible names fused.name)
    (haf : ArrowFree fused.name) (record : MergeRecord) :
    Bordered g (s.contract names fused record) := by
  have ht := hs.contract hc hm haf record
  obtain ⟨w, hborder, heq⟩ := border_contract hs.toRoster hm record
  obtain ⟨-, houts, hbound⟩ := border_eq_iff.1 hborder
  obtain ⟨-, houts', hbound'⟩ := border_eq_iff.1 heq
  obtain ⟨hcases, hkeys⟩ := @foldl_moveBoundary_cases fused.name names w
  refine ⟨?_, ?_, ?_⟩
  · refine Redirected.of_border (Redirected.foldl_moveBoundary hc.regular (fun hk => hm.free (hs.taken _ hk))
      (h.redirected.of_border hborder) hm.nodup fun m hmem hb => ?_) heq
    rw [hbound] at hb
    exact (h.gone hb).2 (.inl (Digraph.hasVertex_iff.2 (hm.live m hmem)))
  · intro i hi
    rw [hbound'] at hi
    rw [ht.keeps_iff, mem_keys_contract hs.toRoster hm, taken_contract hs.toRoster hm, NameSet.contains_add]
    rcases hkeys i hi with hi | hi
    · rw [hbound] at hi
      obtain ⟨htaken, hk⟩ := h.gone hi
      rw [hs.keeps_iff, not_or] at hk
      refine ⟨.inr htaken, ?_⟩
      rintro ((rfl | ⟨hi, -⟩) | hi)
      · exact hm.free htaken
      · exact hk.1 hi
      · exact hk.2 hi
    · have hlive := hm.live i hi
      refine ⟨.inr (hs.live_taken i hlive), ?_⟩
      rintro ((rfl | ⟨-, hn⟩) | ⟨hg, ho⟩)
      · exact hm.free (hs.live_taken _ hlive)
      · exact hn hi
      · exact ho ((hs.live hlive).resolve_left (hs.not_mem_added hg))
  · intro x hx
    rw [houts'] at hx
    rw [ht.keeps_iff, mem_keys_contract hs.toRoster hm]
    rcases hcases x hx with rfl | ⟨hx, hn⟩
    · exact .inl (.inl rfl)
    · rw [houts] at hx
      exact (hs.keeps_iff.1 (h.outs_kept hx)).imp_left fun hk => .inr ⟨hk, hn⟩

/-- After a merge the fused node stands for an output of the graph if a member did. -/
lemma getD_contract (h : Bordered g s) (hs : Tracks g o s) (hc : Copied g o)     (hm : s.Contractible names fused.name)
    (record : MergeRecord) (hi : i ∈ g.outs) :
    (s.contract names fused record).boundary.getD i i =
      if s.boundary.getD i i ∈ names then fused.name else s.boundary.getD i i := by
  obtain ⟨w, hborder, heq⟩ := border_contract hs.toRoster hm record
  have hbound := (border_eq_iff.1 hborder).2.2
  have hnew : fused.name ∉ g.dag.keys := fun hk => hm.free (hs.taken _ hk)
  have hunmoved : ∀ m ∈ names, ¬ w.boundary.contains m := by
    intro m hmem hb
    rw [hbound] at hb
    exact (h.gone hb).2 (.inl (Digraph.hasVertex_iff.2 (hm.live m hmem)))
  rw [(border_eq_iff.1 heq).2.2,
    Redirected.getD_foldl_moveBoundary hc.regular hnew hi (h.redirected.of_border hborder) hm.nodup
    hunmoved, hbound]

/-- A drop leaves the boundary as it is, and what it drops is no output. -/
lemma drop (h : Bordered g s) (hs : Tracks g o s) (hc : Copied g o) {name : String} {src : Edge}
    (hd : s.Droppable name src) :
    Bordered g ((s.outEdges name).foldl (bypass src) (s.removeNode name)).pruneRenames := by
  obtain ⟨hkeys, htaken, hborder, -⟩ := drop_frame hs.toRoster name src
  have ht : Tracks g o ((s.outEdges name).foldl (bypass src) (s.removeNode name)).pruneRenames :=
    ((hs.removeNode hc hd.live (hs.anchors ▸ hd.inside)).foldl_bypass fun e he =>
      hs.not_hasArc_past hc hd he).of_topology rfl
  obtain ⟨-, houts, hbound⟩ := border_eq_iff.1 hborder
  refine ⟨h.redirected.of_border hborder, ?_, ?_⟩
  · intro i hi
    rw [hbound] at hi
    refine ⟨htaken ▸ (h.gone hi).1, fun hk => (h.gone hi).2 (hs.keeps_iff.2 ?_)⟩
    exact (ht.keeps_iff.1 hk).imp_left fun hk => ((hkeys i).1 hk).1
  · intro x hx
    rw [houts] at hx
    rw [ht.keeps_iff, hkeys]
    refine (hs.keeps_iff.1 (h.outs_kept hx)).imp_left fun hk => ⟨hk, ?_⟩
    rintro rfl
    exact hd.notOutput hx

/-- An edit keeps the boundary. -/
lemma edit (h : Bordered g s) (hs : Tracks g o s) (hc : Copied g o) {e : Edit} (haf : e.ArrowFree)
    (he : s.edit e = .ok t) : Bordered g t := by
  cases e with
  | merge names f type pattern =>
    obtain ⟨n, rfl, hm, -, rfl⟩ := edit_merge_ok he
    exact h.contract hs hc hm haf _
  | drop name =>
    obtain ⟨src, hd, rfl⟩ := drop_ok_iff.1 he
    exact h.drop hs hc hd
  | update n =>
    have ht := hs.updateNode he
    obtain ⟨dag, hdag, -, rfl⟩ := updateNode_ok_iff.1 he
    have hkeys := Digraph.keys_setVertex hdag
    refine ⟨h.redirected.of_border rfl, fun hi => ⟨(h.gone hi).1, ?_⟩, fun hx => ?_⟩
    · rw [ht.keeps_iff]
      exact hkeys.symm ▸ fun hk => (h.gone hi).2 (hs.keeps_iff.2 hk)
    · rw [ht.keeps_iff]
      exact hkeys.symm ▸ hs.keeps_iff.1 (h.outs_kept hx)

end Bordered

/-! ### Records -/

/-- The record that counts of those a graph has for a fused node. -/
def lastRecord? (g : Graph) (fused : String) : Option MergeRecord :=
  g.merges.reverse.find? (·.fused == fused)

/-- The last record of a fused node is a record of the graph about that node. -/
lemma fused_of_lastRecord? {f : String} {r : MergeRecord} (h : lastRecord? g f = some r) : r ∈ g.merges ∧ r.fused = f :=
  ⟨List.mem_reverse.1 (List.mem_of_find?_eq_some h), by simpa using List.find?_some h⟩

/-- There is a last record of a fused node exactly if the graph has any record of it. -/
lemma lastRecord?_isSome {f : String} : (lastRecord? g f).isSome ↔ ∃ r ∈ g.merges, r.fused = f := by
  simp [lastRecord?]

/-- The records after a merge. -/
lemma records_contract {o : Sandbox} (hs : Roster g o s)     (hm : s.Contractible names fused.name)
    (record : MergeRecord) :
    let t := s.contract names fused record
    let r := names.foldl Sandbox.retire s
    t.merges = r.merges.insert fused.name record ∧ t.newMerges = r.newMerges ++ [fused.name] ∧
      t.supersedes = r.supersedes := by
  have hrec : (names.foldl (fun s m => s.moveBoundary m fused.name)
      ((s.replaced names fused).rewireAll (s.crossings names fused))).records =
        (names.foldl Sandbox.retire s).records := by
    obtain ⟨-, -, -, -, -, -, hrec⟩ := replaced_eq hs hm
    rw [← hrec]
    refine (@foldl_eq_of_step _ _ _ _ records (fun s name => (s.moveBoundary_frame name fused.name).2.2) _ _).trans ?_
    exact @foldl_eq_of_step _ _ _ _ records (fun s (m : Edge × Edge) => (s.rewire_frame m.1 m.2).2) _ _
  obtain ⟨hmerges, hnew, hsup⟩ := records_eq_iff.1 hrec
  dsimp only
  rw [contract_eq, ← hmerges, ← hnew, ← hsup]
  exact ⟨rfl, rfl, rfl⟩

/-- The records of the sandbox are those of the graph that were not superseded and those made here. -/
structure Recorded (g : Graph) (s : Sandbox) : Prop where
  new_nodup : s.newMerges.Nodup
  new_taken : ∀ f ∈ s.newMerges, s.taken.contains f ∧ f ∉ g.dag.keys
  new : ∀ f ∈ s.newMerges, ∃ r, s.merges.get? f = some r ∧ r.fused = f
  old : ∀ f, f ∉ s.newMerges → s.merges.get? f = if f ∈ s.supersedes then none else lastRecord? g f

namespace Recorded

variable {g : Graph} {o s t : Sandbox}

lemma copy (g : Graph) (region : Option (List String)) : Recorded g (Sandbox.copy g region) where
  new_nodup := List.nodup_nil
  new_taken := by simp [Sandbox.copy]
  new := by simp [Sandbox.copy]
  old := by
    intro f _
    have hm : (Sandbox.copy g region).merges = Dict.ofList (g.merges.map fun r => (r.fused, r)) := rfl
    have hs : (Sandbox.copy g region).supersedes = [] := rfl
    rw [hm, hs, if_neg List.not_mem_nil, Dict.ofList, List.foldl_map,
      Dict.get?_foldl_insert (fun r : MergeRecord => r.fused) (fun r => r)]
    simp [lastRecord?]

/-- The records of a copy are those of the graph. -/
lemma get?_copy (g : Graph) (region : Option (List String)) (f : String) :
    (Sandbox.copy g region).merges.get? f = lastRecord? g f := by
  have hnone : f ∉ (Sandbox.copy g region).supersedes := List.not_mem_nil
  rw [(copy g region).old f List.not_mem_nil, if_neg hnone]

/-- Only the records and the taken names matter. -/
lemma of_records (h : Recorded g s) (he : t.records = s.records)
    (htaken : ∀ k, s.taken.contains k → t.taken.contains k) : Recorded g t := by
  obtain ⟨hm, hn, hs⟩ := records_eq_iff.1 he
  exact ⟨by rw [hn]; exact h.new_nodup, fun f hf => ⟨htaken f (h.new_taken f (hn ▸ hf)).1, (h.new_taken f (hn ▸ hf)).2⟩,
    by rw [hn, hm]; exact h.new, by rw [hn, hm, hs]; exact h.old⟩

/-- Retiring the record of a node of the graph or of a node made here. -/
lemma retire (h : Recorded g s) (hg : g.Sound) {name : String} (hadd : name ∈ s.added ↔ name ∉ g.dag.keys) :
    Recorded g (s.retire name) := by
  unfold Sandbox.retire
  split
  · exact h
  · rename_i hm
    have hm : s.merges.contains name := by simpa using hm
    dsimp only
    rw [List.contains_eq_mem]
    by_cases ha : name ∈ s.added
    · have hng := hadd.1 ha
      have hnone : lastRecord? g name = none := by
        rw [Option.eq_none_iff_forall_ne_some]
        intro r hr
        obtain ⟨hmem, rfl⟩ := fused_of_lastRecord? hr
        exact hng (Digraph.hasVertex_iff.1 (hg.merges r hmem))
      simp only [ha, decide_true, ↓reduceIte]
      refine ⟨h.new_nodup.filter _, fun f hf => h.new_taken f (List.mem_of_mem_filter hf), ?_, ?_⟩
      · intro f hf
        obtain ⟨hf, hne⟩ := List.mem_filter.1 hf
        obtain ⟨r, hr, hrf⟩ := h.new f hf
        exact ⟨r, by rw [Dict.get?_erase, if_neg (by simpa using hne), hr], hrf⟩
      · intro f hf
        rw [Dict.get?_erase]
        by_cases hfn : f = name
        · subst hfn
          simp [hnone]
        · rw [if_neg hfn, h.old f fun hmem => hf (List.mem_filter.2 ⟨hmem, by simpa using hfn⟩)]
    · have hg' : name ∈ g.dag.keys := by
        by_contra hn
        exact ha (hadd.2 hn)
      simp only [ha, decide_false, Bool.false_eq_true, ↓reduceIte]
      refine ⟨h.new_nodup, h.new_taken, ?_, ?_⟩
      · intro f hf
        obtain ⟨r, hr, hrf⟩ := h.new f hf
        have hne : f ≠ name := by
          rintro rfl
          exact (h.new_taken f hf).2 hg'
        exact ⟨r, by rw [Dict.get?_erase, if_neg hne, hr], hrf⟩
      · intro f hf
        rw [Dict.get?_erase, h.old f hf]
        by_cases hfn : f = name <;> simp [hfn]

/-- Retiring the records of several nodes. -/
lemma foldl_retire (hg : g.Sound) :
    ∀ {names : List String} {s : Sandbox}, Recorded g s → (∀ m ∈ names, m ∈ s.added ↔ m ∉ g.dag.keys) →
      Recorded g (names.foldl Sandbox.retire s)
  | [], _, h, _ => h
  | m :: names, s, h, hadd => by
    rw [List.forall_mem_cons] at hadd
    have htop : (s.retire m).added = s.added := congrArg (·.2.2.2.2.2.2.2.2.1) (s.retire_frame m).1
    rw [List.foldl_cons]
    exact foldl_retire hg (h.retire hg hadd.1) (htop ▸ hadd.2)

/-- A merge retires the records of its members and adds its own. -/
lemma contract (h : Recorded g s) (hs : Roster g o s) (hg : g.Sound)     (hm : s.Contractible names fused.name)
    {record : MergeRecord} (hr : record.fused = fused.name) :
    Recorded g (s.contract names fused record) := by
  have hadd : ∀ m ∈ names, m ∈ s.added ↔ m ∉ g.dag.keys := by
    intro m hmem
    refine ⟨fun ha => (hs.added m ha).2, fun hn => ?_⟩
    exact (hs.live (hm.live m hmem)).resolve_right fun ho => hn (hs.within m ho)
  have hret := h.foldl_retire hg hadd
  have hrt : (names.foldl Sandbox.retire s).taken = s.taken := congrArg (·.2.2.2.2.1) (topology_foldl_retire s names)
  obtain ⟨hmerges, hnewm, hsup⟩ := records_contract hs hm record
  have htaken := taken_contract hs hm record
  have hnew : fused.name ∉ (names.foldl Sandbox.retire s).newMerges := fun hmem =>
    hm.free (hrt ▸ (hret.new_taken _ hmem).1)
  refine ⟨?_, ?_, ?_, ?_⟩
  · rw [hnewm]
    refine List.nodup_append.2 ⟨hret.new_nodup, List.nodup_singleton _, ?_⟩
    rintro a ha b hb rfl
    exact hnew (List.mem_singleton.1 hb ▸ ha)
  · intro f hf
    rw [hnewm] at hf
    rw [htaken, NameSet.contains_add]
    rcases List.mem_append.1 hf with hf | hf
    · exact ⟨.inr (hrt ▸ (hret.new_taken f hf).1), (hret.new_taken f hf).2⟩
    · rw [List.mem_singleton.1 hf]
      exact ⟨.inl rfl, fun hk => hm.free (hs.taken _ hk)⟩
  · intro f hf
    rw [hnewm] at hf
    rw [hmerges, Dict.get?_insert]
    rcases List.mem_append.1 hf with hf | hf
    · obtain ⟨r, hr, hrf⟩ := hret.new f hf
      refine ⟨r, ?_, hrf⟩
      rw [if_neg, hr]
      rintro rfl
      exact hnew hf
    · rw [List.mem_singleton.1 hf]
      exact ⟨record, if_pos rfl, hr⟩
  · intro f hf
    rw [hnewm, List.mem_append, List.mem_singleton, not_or] at hf
    rw [hmerges, Dict.get?_insert, if_neg hf.2, hsup]
    exact hret.old f hf.1

/-- An edit keeps account of the records. -/
lemma edit (h : Recorded g s) (hs : Roster g o s) (hg : g.Sound) {e : Edit} (he : s.edit e = .ok t) :
    Recorded g t := by
  cases e with
  | merge names f type pattern =>
    obtain ⟨n, rfl, hm, -, rfl⟩ := edit_merge_ok he
    exact h.contract hs hg hm rfl
  | drop name =>
    obtain ⟨src, hd, rfl⟩ := drop_ok_iff.1 he
    obtain ⟨-, htaken, -, hrec⟩ := drop_frame hs name src
    exact h.of_records hrec fun k hk => htaken ▸ hk
  | update n =>
    obtain ⟨dag, -, -, rfl⟩ := updateNode_ok_iff.1 he
    exact h.of_records rfl fun k hk => hk

end Recorded

/-- The fused nodes of the copy whose records were superseded are gone. -/
def Retired (o s : Sandbox) : Prop :=
  ∀ f ∈ s.supersedes, f ∈ o.dag.keys ∧ f ∉ s.dag.keys

/-- Retiring records supersedes, beyond what was superseded, only nodes that were not added here. -/
lemma supersedes_foldl_retire {f : String} :
    ∀ {names : List String} {s : Sandbox}, f ∈ (names.foldl Sandbox.retire s).supersedes →
      f ∈ s.supersedes ∨ f ∈ names ∧ f ∉ s.added
  | [], _, h => .inl h
  | m :: names, s, h => by
    rw [List.foldl_cons] at h
    have htop : (s.retire m).added = s.added := congrArg (·.2.2.2.2.2.2.2.2.1) (s.retire_frame m).1
    have hstep : f ∈ (s.retire m).supersedes → f ∈ s.supersedes ∨ f = m ∧ f ∉ s.added := by
      unfold Sandbox.retire
      dsimp only
      rw [List.contains_eq_mem]
      split_ifs with hm ha
      · exact .inl
      · exact .inl
      · intro hf
        refine (List.mem_append.1 hf).imp_right fun hf => ?_
        rw [List.mem_singleton.1 hf]
        exact ⟨rfl, by simpa using ha⟩
    rcases supersedes_foldl_retire h with h | ⟨h, hn⟩
    · exact (hstep h).imp_right fun ⟨he, hn⟩ => ⟨he ▸ List.mem_cons_self, hn⟩
    · exact .inr ⟨List.mem_cons_of_mem _ h, htop ▸ hn⟩

/-- An edit takes out the nodes whose records it supersedes. -/
lemma Retired.edit {o t : Sandbox} (h : Retired o s) (hs : Roster g o s) {e : Edit}
    (he : s.edit e = .ok t) : Retired o t := by
  cases e with
  | merge names f type pattern =>
    obtain ⟨n, rfl, hm, -, rfl⟩ := edit_merge_ok he
    intro f hf
    rw [(records_contract hs hm _).2.2] at hf
    rw [mem_keys_contract hs hm]
    rcases supersedes_foldl_retire hf with hf | ⟨hf, hadd⟩
    · obtain ⟨ho, hk⟩ := h f hf
      refine ⟨ho, ?_⟩
      rintro (rfl | ⟨hk', -⟩)
      · exact hm.free (hs.taken _ (hs.within _ ho))
      · exact hk hk'
    · have hlive := hm.live f hf
      refine ⟨(hs.live hlive).resolve_left hadd, ?_⟩
      rintro (rfl | ⟨-, hn⟩)
      · exact hm.free (hs.live_taken _ hlive)
      · exact hn hf
  | drop name =>
    obtain ⟨src, hd, rfl⟩ := drop_ok_iff.1 he
    obtain ⟨hkeys, -, -, hrec⟩ := drop_frame hs name src
    intro f hf
    rw [(records_eq_iff.1 hrec).2.2] at hf
    exact ⟨(h f hf).1, fun hk => (h f hf).2 ((hkeys f).1 hk).1⟩
  | update n =>
    obtain ⟨dag, hdag, -, rfl⟩ := updateNode_ok_iff.1 he
    exact fun f hf => ⟨(h f hf).1, (Digraph.keys_setVertex hdag).symm ▸ (h f hf).2⟩

end OpGraph.Sandbox
