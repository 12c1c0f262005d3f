import Mathlib
import OpGraph.Proofs.Sandbox.Notes
import OpGraph.Proofs.Schedule

/-!
# What edits do

A merge contracts its members to the fused node; a drop joins the consumers of a node to its producer. What either of
them leaves behind is stated by look-ups, so that nothing else has to follow them step by step.
-/

namespace OpGraph.Sandbox

variable {x y : String} {s : Sandbox} {src e : Edge} {a : Arc Edge}

/-! ### Moving edges -/

/-- What moving edges one after the other leaves behind. -/
structure Crossed (s : Sandbox) (ms : List (Edge × Edge)) (t : Sandbox) : Prop where
  kept : ∀ a ∈ s.dag.arcs, a ∈ t.dag.arcs
  arcs : ∀ a ∈ t.dag.arcs, a ∈ s.dag.arcs ∨ ∃ m ∈ ms, a = m.2.toArc
  placed : ∀ m ∈ ms, t.dag.hasArc m.2.src m.2.dst
  registered : t.registered = ms.foldl (fun r m => Graph.moveRegistration r m.1.id m.2.id) s.registered
  noted : Apart ms → Noted s ms t
  called : Movable s ms → Called s ms t

namespace Crossed

variable {s t u : Sandbox} {ms ms' : List (Edge × Edge)}

/-- Moving edges takes no arc away. -/
lemma hasArc_of_hasArc (h : Crossed s ms t) (hxy : s.dag.hasArc x y) : t.dag.hasArc x y := by
  obtain ⟨a, ha, rfl, rfl⟩ := Digraph.hasArc_iff.1 hxy
  exact Digraph.hasArc_of_mem (h.kept a ha)

/-- The edges after some were moved are those from before and those in the new places. -/
lemma hasArc_iff (h : Crossed s ms t) : t.dag.hasArc x y ↔ s.dag.hasArc x y ∨ ∃ m ∈ ms, m.2.src = x ∧ m.2.dst = y := by
  constructor
  · intro hxy
    obtain ⟨a, ha, rfl, rfl⟩ := Digraph.hasArc_iff.1 hxy
    rcases h.arcs a ha with ha | ⟨m, hm, rfl⟩
    · exact .inl (Digraph.hasArc_of_mem ha)
    · exact .inr ⟨m, hm, rfl, rfl⟩
  · rintro (hxy | ⟨m, hm, rfl, rfl⟩)
    · exact h.hasArc_of_hasArc hxy
    · exact h.placed m hm

lemma trans (h : Crossed s ms t) (h' : Crossed t ms' u) : Crossed s (ms ++ ms') u := by
  refine ⟨fun a ha => h'.kept a (h.kept a ha), ?_, ?_, ?_,
    fun ha => (h.noted ha.left).trans (h'.noted ha.right) ha, fun hm => ?_⟩
  · intro a ha
    rcases h'.arcs a ha with ha | ⟨m, hm, rfl⟩
    · exact (h.arcs a ha).imp_right fun ⟨m, hm, he⟩ => ⟨m, List.mem_append_left _ hm, he⟩
    · exact .inr ⟨m, List.mem_append_right _ hm, rfl⟩
  · intro m hm
    rcases List.mem_append.1 hm with hm | hm
    · exact h'.hasArc_of_hasArc (h.placed m hm)
    · exact h'.placed m hm
  · rw [List.foldl_append, ← h.registered]
    exact h'.registered
  · have hcalled := h.called hm.left
    exact hcalled.trans (h.noted hm.toApart.left) (h'.called (hm.right hcalled)) hm h.hasArc_of_hasArc h.placed

/-- Where edges and the notes on them stay as they are. -/
lemma of_eq (harcs : t.dag.arcs = s.dag.arcs) (hmoves : t.moves = s.moves) : Crossed s [] t :=
  ⟨fun a ha => harcs ▸ ha, fun a ha => .inl (harcs ▸ ha), by simp, (moves_eq_iff.1 hmoves).1, fun _ => .of_moves hmoves,
    fun _ => .of_moves (fun a ha => harcs ▸ ha) hmoves⟩

end Crossed

/-- Moving one edge to where it lands. -/
lemma crossed_rewire {new : Edge} (hl : s.Lands new) (old : Edge) : Crossed s [(old, new)] (s.rewire old new) := by
  have hrew := rewired_rewire hl old
  have hnoted : Noted s [(old, new)] (s.rewire old new) := .of_rewired hrew
  rcases rewire_eq s old new with ⟨dag, hdag, he⟩ | ⟨hex, he⟩ | ⟨hno, hnex, -⟩
  · have harcs := Digraph.arcs_addArc hdag
    rw [he] at hrew hnoted ⊢
    refine ⟨?_, ?_, ?_, rfl, fun _ => hnoted, fun hm => .of_rewired hm hrew fun a ha => ?_⟩
    · intro a ha
      rw [harcs]
      exact List.mem_append_left _ ha
    · intro a ha
      rw [harcs, List.mem_append, List.mem_singleton] at ha
      exact ha.imp_right fun ha => ⟨_, List.mem_singleton_self _, ha⟩
    · simpa using (Digraph.hasArc_addArc hdag).2 (.inl ⟨rfl, rfl⟩)
    · rw [harcs, List.mem_append, List.mem_singleton] at ha
      exact ha.imp_right fun ha => ⟨ha, (Digraph.addArc_ok_iff.1 hdag).2.2.2.1⟩
  · have hplaced : s.dag.hasArc new.src new.dst := by
      rcases hl with ⟨harc, -⟩ | ⟨-, dag, hok⟩
      · exact harc
      · rw [hok] at hex
        cases hex
    rw [he] at hrew hnoted ⊢
    exact ⟨fun a ha => ha, fun a ha => .inl ha, by simpa using hplaced, rfl, fun _ => hnoted,
      fun hm => .of_rewired hm hrew fun a ha => .inl ha⟩
  · rcases hl with ⟨-, hex⟩ | ⟨-, dag, hok⟩
    · exact absurd hex hnex
    · exact absurd hok (hno dag)

/-- Moving an edge keeps the digraph well-formed. -/
lemma wellFormed_rewire (wf : s.dag.WellFormed) (old new : Edge) : (s.rewire old new).dag.WellFormed := by
  rcases rewire_eq s old new with ⟨dag, hdag, he⟩ | ⟨-, he⟩ | ⟨-, -, he⟩
  · rw [he]
    exact wf.addArc hdag
  · rw [he]
    exact wf
  · rw [he]
    exact wf

/-- Moving edges whose new places fit into a relation without cycles. -/
lemma crossed_rewireAll {r : String → String → Prop} (hr : ∀ x, ¬ Relation.TransGen r x x) :
    ∀ {ms : List (Edge × Edge)} {s : Sandbox}, s.dag.WellFormed → (∀ x y, s.dag.hasArc x y → r x y) →
      (∀ m ∈ ms, m.2.src ∈ s.dag.keys ∧ m.2.dst ∈ s.dag.keys ∧ r m.2.src m.2.dst) → Crossed s ms (s.rewireAll ms)
  | [], s, _, _, _ => .of_eq rfl rfl
  | m :: ms, s, wf, hsub, hms => by
    rw [List.forall_mem_cons] at hms
    obtain ⟨⟨hsrc, hdst, hrm⟩, hms⟩ := hms
    have hl : s.Lands m.2 := wf.addArc_of_acyclic hr hsub (Digraph.hasVertex_iff.2 hsrc) (Digraph.hasVertex_iff.2 hdst)
      hrm m.2
    have hone := crossed_rewire hl m.1
    refine hone.trans (crossed_rewireAll hr (wellFormed_rewire wf m.1 m.2) ?_ ?_)
    · intro x y hxy
      rcases hone.hasArc_iff.1 hxy with hxy | ⟨m', hm', rfl, rfl⟩
      · exact hsub x y hxy
      · rw [List.mem_singleton.1 hm']
        exact hrm
    · rw [(keys_rewire s m.1 m.2).1]
      exact hms

/-- Feeding consumers past a node, when that fits into a relation without cycles. -/
lemma crossed_foldl_bypass {r : String → String → Prop} (hr : ∀ x, ¬ Relation.TransGen r x x) :
    ∀ {es : List Edge} {s : Sandbox}, s.dag.WellFormed → (∀ x y, s.dag.hasArc x y → r x y) → src.src ∈ s.dag.keys →
      (∀ e ∈ es, e.dst ∈ s.dag.keys ∧ r src.src e.dst) →
      Crossed s (es.map fun e => (e, movedPast src e)) (es.foldl (bypass src) s)
  | [], s, _, _, _, _ => .of_eq rfl rfl
  | e :: es, s, wf, hsub, hsrc, hes => by
    rw [List.forall_mem_cons] at hes
    obtain ⟨⟨hdst, hre⟩, hes⟩ := hes
    obtain ⟨hkeys, harcs, -, -, hmoves, -⟩ := reread_frame src s e
    have hread : Crossed s [] (reread src s e) := .of_eq harcs hmoves
    have hwf : (reread src s e).dag.WellFormed := by
      refine reread_induct (P := fun t => t.dag.WellFormed) (fun c t _ ht => ?_) wf
      obtain ⟨dag, hdag, -, rfl⟩ := updateNode_ok_iff.1 ht
      exact wf.setVertex hdag
    have hsub₁ : ∀ x y, (reread src s e).dag.hasArc x y → r x y := by
      intro x y hxy
      simpa using (hread.hasArc_iff.1 hxy).imp_left (hsub x y)
    have hl : (reread src s e).Lands (movedPast src e) := hwf.addArc_of_acyclic hr hsub₁
      (Digraph.hasVertex_iff.2 (hkeys ▸ hsrc)) (Digraph.hasVertex_iff.2 (hkeys ▸ hdst)) hre _
    have hone : Crossed s [(e, movedPast src e)] (bypass src s e) := by
      rw [bypass_eq]
      exact hread.trans (crossed_rewire hl e)
    have hkeys₁ : (bypass src s e).dag.keys = s.dag.keys := by
      rw [bypass_eq, (keys_rewire _ _ _).1, hkeys]
    have hwf₁ : (bypass src s e).dag.WellFormed := by
      rw [bypass_eq]
      exact wellFormed_rewire hwf e _
    refine hone.trans (crossed_foldl_bypass hr hwf₁ ?_ (hkeys₁ ▸ hsrc) (hkeys₁ ▸ hes))
    intro x y hxy
    rcases hone.hasArc_iff.1 hxy with hxy | ⟨m', hm', rfl, rfl⟩
    · exact hsub x y hxy
    · rw [List.mem_singleton.1 hm']
      exact hre

/-! ### Payloads -/

/-- Moving an edge leaves the vertices as they are. -/
lemma vertices_rewire (s : Sandbox) (old new : Edge) : (s.rewire old new).dag.vertices = s.dag.vertices := by
  rcases rewire_eq s old new with ⟨dag, hdag, he⟩ | ⟨-, he⟩ | ⟨-, -, he⟩
  · rw [he]
    exact Digraph.vertices_addArc hdag
  · rw [he]
  · rw [he]

/-- Moving edges leaves the vertices as they are. -/
lemma vertices_rewireAll (s : Sandbox) (ms : List (Edge × Edge)) : (s.rewireAll ms).dag.vertices = s.dag.vertices :=
  @foldl_eq_of_step _ _ _ _ (fun s : Sandbox => s.dag.vertices)
    (fun (s : Sandbox) (m : Edge × Edge) => s.vertices_rewire m.1 m.2) ms s

/-- Feeding a consumer past a node replaces what the consumer reads. -/
lemma vertex?_bypass (hn : ∀ v ∈ s.dag.vertices, v.val.name = v.key) (hi : ¬ s.anchors.contains e.dst) (k : String) :
    (bypass src s e).dag.vertex? k =
      if k = e.dst then (s.dag.vertex? k).map fun v => { v with val := readInstead e.var src.var v.val }
      else s.dag.vertex? k := by
  have hread : (bypass src s e).dag.vertex? k = (reread src s e).dag.vertex? k := by
    rw [bypass_eq, Digraph.vertex?, vertices_rewire, ← Digraph.vertex?]
  rw [hread]
  cases hv : s.dag.vertex? e.dst with
  | none =>
    have hnode : s.node? e.dst = none := by rw [node?, Digraph.val?, hv]; rfl
    simp only [reread, hnode]
    split
    · rename_i hk
      rw [hk, hv]
      rfl
    · rfl
  | some v =>
    have hnode : s.node? e.dst = some v.val := by rw [node?, Digraph.val?, hv]; rfl
    have hname : (readInstead e.var src.var v.val).name = e.dst :=
      (hn v (Digraph.mem_of_vertex? hv)).trans (Digraph.key_of_vertex? hv)
    obtain ⟨dag, hdag⟩ :
      ∃ dag, s.dag.setVertex (readInstead e.var src.var v.val).name (readInstead e.var src.var v.val) =
        .ok dag := ⟨_, Digraph.setVertex_ok_iff.2 ⟨hname ▸ Digraph.hasVertex_iff_exists.2 ⟨v, hv⟩, rfl⟩⟩
    have hup := updateNode_ok_iff.2 ⟨dag, hdag, hname ▸ hi, rfl⟩
    simp only [reread, hnode, hup]
    rw [Digraph.vertex?_setVertex hdag, hname, hv]
    split
    · rename_i hk
      rw [hk, hv]
      rfl
    · rfl

/-- After a consumer was joined past a node, nodes still go by their names. -/
lemma named_bypass (hn : ∀ v ∈ s.dag.vertices, v.val.name = v.key) :
    ∀ v ∈ (bypass src s e).dag.vertices, v.val.name = v.key := by
  rw [bypass_eq, vertices_rewire]
  refine reread_induct (P := fun t => ∀ v ∈ t.dag.vertices, v.val.name = v.key) (fun c t _ ht => ?_) hn
  obtain ⟨dag, hdag, -, rfl⟩ := updateNode_ok_iff.1 ht
  obtain ⟨-, rfl⟩ := Digraph.setVertex_ok_iff.1 hdag
  rw [List.forall_mem_map]
  intro v hv
  split
  · rename_i hk
    exact hk.symm
  · exact hn v hv

/-- What does not depend on the variables a node reads stays when consumers are fed past a node. -/
lemma map_node?_bypass {α : Type} {f : Node → α} (hf : ∀ v inputs, f { v with inputs } = f v)
    (hn : ∀ v ∈ s.dag.vertices, v.val.name = v.key) (k : String) :
    ((bypass src s e).node? k).map f = (s.node? k).map f := by
  have hread : (bypass src s e).node? k = (reread src s e).node? k := by
    rw [node?, node?, Digraph.val?, Digraph.val?, bypass_eq, Digraph.vertex?, vertices_rewire, ← Digraph.vertex?]
  rw [hread]
  unfold reread
  split
  · rfl
  · rename_i c hc
    split
    · rename_i t ht
      obtain ⟨dag, hdag, -, rfl⟩ := updateNode_ok_iff.1 ht
      obtain ⟨v, hv, rfl⟩ := Option.map_eq_some_iff.1 hc
      have hname : (readInstead e.var src.var v.val).name = e.dst :=
        (hn v (Digraph.mem_of_vertex? hv)).trans (Digraph.key_of_vertex? hv)
      show (dag.val? k).map f = (s.dag.val? k).map f
      rw [Digraph.val?, Digraph.val?, Digraph.vertex?_setVertex hdag, hname]
      split
      · rename_i hk
        rw [hk, hv]
        exact congrArg some (hf v.val _)
      · rfl
    · rfl

/-- Joining consumers past a node changes nothing of a node but what it reads. -/
lemma map_node?_foldl_bypass {α : Type} {f : Node → α} (hf : ∀ v inputs, f { v with inputs } = f v)
    (k : String) {es : List Edge} (hn : ∀ v ∈ s.dag.vertices, v.val.name = v.key) :
    ((es.foldl (bypass src) s).node? k).map f = (s.node? k).map f := by
  induction es generalizing s with
  | nil => rfl
  | cons e es ih =>
    rw [List.foldl_cons, ih (named_bypass hn)]
    exact map_node?_bypass hf hn k

/-- Joining a consumer past a node leaves the anchors as they are. -/
lemma anchors_bypass (src : Edge) (s : Sandbox) (e : Edge) : (bypass src s e).anchors = s.anchors := by
  have hread : (reread src s e).anchors = s.anchors := by
    refine reread_induct (P := fun t => t.anchors = s.anchors) (fun c t _ ht => ?_) rfl
    obtain ⟨dag, -, -, rfl⟩ := updateNode_ok_iff.1 ht
    rfl
  rw [bypass_eq, ← hread]
  rcases rewire_eq (reread src s e) e (movedPast src e) with ⟨_, -, he⟩ | ⟨-, he⟩ | ⟨-, -, he⟩
  all_goals rw [he]

/-- Feeding several consumers past a node replaces what each of them reads. -/
lemma vertex?_foldl_bypass (k : String) :
    ∀ {es : List Edge} {s : Sandbox}, (es.map (·.dst)).Nodup → (∀ v ∈ s.dag.vertices, v.val.name = v.key) →
      (∀ e ∈ es, ¬ s.anchors.contains e.dst) →
      (es.foldl (bypass src) s).dag.vertex? k = match es.find? (·.dst == k) with
        | none => s.dag.vertex? k
        | some e => (s.dag.vertex? k).map fun v => { v with val := readInstead e.var src.var v.val }
  | [], s, _, _, _ => rfl
  | e :: es, s, hnd, hn, hi => by
    rw [List.map_cons, List.nodup_cons] at hnd
    rw [List.forall_mem_cons] at hi
    rw [List.foldl_cons, vertex?_foldl_bypass k hnd.2 (named_bypass hn) (by rw [anchors_bypass]; exact hi.2),
      vertex?_bypass hn hi.1, List.find?_cons]
    by_cases hk : e.dst = k
    · -- No other edge leads to the same consumer.
      have hnone : es.find? (·.dst == k) = none := by
        rw [List.find?_eq_none]
        intro e' he' heq
        exact hnd.1 (List.mem_map.2 ⟨e', he', (beq_iff_eq.1 heq).trans hk.symm⟩)
      rw [hnone, if_pos hk.symm, beq_iff_eq.2 hk]
    · rw [if_neg (Ne.symm hk), beq_eq_false_iff_ne.2 hk]

/-! ### Merges -/

/-- What a merge of `names` to the node `fused` leaves behind. -/
structure Merged (s : Sandbox) (names : List String) (fused : Node) (record : MergeRecord) (t : Sandbox) : Prop where
  vertex : ∀ k, t.dag.vertex? k =
    if k = fused.name then some ⟨k, fused, (names.head?.bind s.dag.seq?).getD 0⟩
    else if k ∈ names then none else s.dag.vertex? k
  hasArc : ∀ {x y}, t.dag.hasArc x y ↔ Digraph.Contracted s.dag.Adj (· ∈ names) fused.name x y
  kept : ∀ a ∈ s.dag.arcs, a.src ∉ names → a.dst ∉ names → a ∈ t.dag.arcs
  arcs : ∀ a ∈ t.dag.arcs, (a ∈ s.dag.arcs ∧ a.src ∉ names ∧ a.dst ∉ names) ∨
    (∃ e ∈ s.inbound names, a = (movedIn fused e).toArc) ∨ ∃ e ∈ s.outbound names, a = (movedOut fused e).toArc
  registered : ∀ {x y}, ArrowFree x → x ∉ names → y ∉ names → (t.registered.contains (EdgeId.arc x y) ↔
    (s.registered.contains (EdgeId.arc x y)) ∨
      (y = fused.name ∧ ∃ m ∈ names, s.dag.hasArc x m ∧ s.registered.contains (EdgeId.arc x m)) ∨
      (x = fused.name ∧ ∃ m ∈ names, s.dag.hasArc m y ∧ s.registered.contains (EdgeId.arc m y)))
  ins : ∀ x, t.ins.contains x ↔ (s.ins.contains x ∧ x ∉ names) ∨ (x = fused.name ∧ ∃ m ∈ names, s.ins.contains m)
  outs : ∀ x, t.outs.contains x ↔ (s.outs.contains x ∧ x ∉ names) ∨ (x = fused.name ∧ ∃ m ∈ names, s.outs.contains m)
  merges : ∀ k, t.merges.get? k =
    if k = fused.name then some record else if k ∈ names then none else s.merges.get? k
  taken : ∀ k, t.taken.contains k ↔ k = fused.name ∨ s.taken.contains k
  renamed : ∀ {b id}, t.renamed.get? b = some id →
    s.renamed.get? b = some id ∨ ∃ m ∈ s.crossings names fused, s.baseId m.1 = b ∧ m.2.id = id
  noted : ∀ m ∈ s.crossings names fused, t.renamed.get? (s.baseId m.1) = some m.2.id
  still : ∀ {b id}, (∀ m ∈ s.crossings names fused, s.baseId m.1 ≠ b) → s.renamed.get? b = some id → t.hasEdge id →
    t.renamed.get? b = some id
  called : Called s (s.crossings names fused) t

/-- What the parts of nodes in the boundary become when they are moved to one node that has none. -/
lemma contains_foldl_moveBoundary {new : String} :
    ∀ {names : List String} {s : Sandbox}, new ∉ names →
      (∀ x, (names.foldl (fun s m => s.moveBoundary m new) s).ins.contains x ↔
        (s.ins.contains x ∧ x ∉ names) ∨ (x = new ∧ ∃ m ∈ names, s.ins.contains m)) ∧
      ∀ x, (names.foldl (fun s m => s.moveBoundary m new) s).outs.contains x ↔
        (s.outs.contains x ∧ x ∉ names) ∨ (x = new ∧ ∃ m ∈ names, s.outs.contains m)
  | [], s, _ => by simp
  | m :: names, s, hnew => by
    rw [List.mem_cons, not_or] at hnew
    have hmoved := borderMoved_moveBoundary s m new
    obtain ⟨hins, houts⟩ := @contains_foldl_moveBoundary new names (s.moveBoundary m new) hnew.2
    -- Of the other members the part is what it was, for the new node is none of them.
    have hrest : ∀ {p q : String → Prop}, (∀ x, q x ↔ (p x ∧ x ≠ m) ∨ (x = new ∧ p m)) → ∀ x,
        ((q x ∧ x ∉ names) ∨ (x = new ∧ ∃ k ∈ names, q k)) ↔
          (p x ∧ x ∉ m :: names) ∨ (x = new ∧ ∃ k ∈ m :: names, p k) := by
      intro p q hq x
      simp only [hq, List.mem_cons, not_or, exists_eq_or_imp]
      constructor
      · rintro (⟨⟨hx, hne⟩ | ⟨rfl, hm⟩, hn⟩ | ⟨rfl, k, hk, ⟨hp, -⟩ | ⟨rfl, -⟩⟩)
        · exact .inl ⟨hx, hne, hn⟩
        · exact .inr ⟨rfl, .inl hm⟩
        · exact .inr ⟨rfl, .inr ⟨k, hk, hp⟩⟩
        · exact absurd hk hnew.2
      · rintro (⟨hx, hne, hn⟩ | ⟨rfl, hm | ⟨k, hk, hp⟩⟩)
        · exact .inl ⟨.inl ⟨hx, hne⟩, hn⟩
        · exact .inl ⟨.inr ⟨rfl, hm⟩, hnew.2⟩
        · by_cases hkm : k = m
          · exact .inl ⟨.inr ⟨rfl, hkm ▸ hp⟩, hnew.2⟩
          · exact .inr ⟨rfl, k, hk, .inl ⟨hp, hkm⟩⟩
    exact ⟨fun x => (hins x).trans (hrest hmoved.ins x), fun x => (houts x).trans (hrest hmoved.outs x)⟩

/-- Retiring a record takes away that of the node and no other one. -/
lemma get?_merges_retire (s : Sandbox) (name k : String) :
    (s.retire name).merges.get? k = if k = name then none else s.merges.get? k := by
  unfold retire
  split
  · rename_i hno
    have hnone : s.merges.get? name = none := Dict.get?_eq_none_iff.2 (by simpa using hno)
    split
    · rename_i hk
      rw [hk, hnone]
    · rfl
  · dsimp only
    split
    all_goals exact Dict.get?_erase _ _ _

/-- Retiring records takes away those of the nodes and no other ones. -/
lemma get?_merges_foldl_retire (k : String) :
    ∀ (names : List String) (s : Sandbox),
      (names.foldl retire s).merges.get? k = if k ∈ names then none else s.merges.get? k
  | [], s => by simp
  | name :: names, s => by
    rw [List.foldl_cons, get?_merges_foldl_retire k names, get?_merges_retire]
    by_cases hk : k = name <;> simp [hk]

namespace Roster

variable {g : Graph} {o s : Sandbox} {names : List String} {fused : Node}

/-- The digraph after a merge is that in which the members were replaced and the crossings moved. -/
lemma dag_contract (s : Sandbox) (names : List String) (fused : Node) (record : MergeRecord) :
    (s.contract names fused record).dag = ((s.replaced names fused).rewireAll (s.crossings names fused)).dag := by
  obtain ⟨htop, -⟩ := foldl_moveBoundary_frame names fused.name
    ((s.replaced names fused).rewireAll (s.crossings names fused))
  rw [contract_eq]
  exact congrArg (·.2.2.1) htop

/-- A merge replaces its members by the fused node and leaves all other nodes as they are. -/
lemma vertex?_contract (hs : Roster g o s) (hm : s.Contractible names fused.name) (record : MergeRecord) (k : String) :
    (s.contract names fused record).dag.vertex? k =
      if k = fused.name then some ⟨k, fused, (names.head?.bind s.dag.seq?).getD 0⟩
      else if k ∈ names then none else s.dag.vertex? k := by
  obtain ⟨dag, hok, hrep, -⟩ := replaced_eq hs hm
  rw [dag_contract, Digraph.vertex?, vertices_rewireAll, ← Digraph.vertex?, hrep, Digraph.vertex?_addVertexAt hok,
    Digraph.vertex?_foldl_dropVertex]
  split
  · rename_i hk
    rw [hk]
  · rfl

/-- The edges across the border of the members of a merge are moved to the fused node. -/
lemma crossed_contract (hs : Roster g o s) (hm : s.Contractible names fused.name) :
    Crossed (s.replaced names fused) (s.crossings names fused)
      ((s.replaced names fused).rewireAll (s.crossings names fused)) := by
  have hkeys : ∀ k ∈ s.dag.keys, k ∉ names → k ∈ (s.replaced names fused).dag.keys := fun k hk hn =>
    (mem_keys_replaced hs hm).2 (.inr ⟨hk, hn⟩)
  have hfused : fused.name ∈ (s.replaced names fused).dag.keys := (mem_keys_replaced hs hm).2 (.inl rfl)
  refine crossed_rewireAll (hs.contracted_acyclic hm) (hs.replaced hm).wellFormed ?_ ?_
  · intro x y hxy
    obtain ⟨hxy, hx, hy⟩ := (hasArc_replaced hs hm).1 hxy
    exact .inl ⟨hx, hy, hxy⟩
  · intro m hmem
    rcases mem_crossings.1 hmem with ⟨e, he, rfl⟩ | ⟨e, he, rfl⟩
    · obtain ⟨ha, hsrc, hdst⟩ := hs.mem_inbound.1 he
      exact ⟨hkeys _ (hs.wellFormed.src_mem _ ha) hsrc, hfused,
        .inr (.inl ⟨hsrc, rfl, e.dst, hdst, Digraph.hasArc_of_mem ha⟩)⟩
    · obtain ⟨ha, hsrc, hdst⟩ := hs.mem_outbound.1 he
      exact ⟨hfused, hkeys _ (hs.wellFormed.dst_mem _ ha) hdst,
        .inr (.inr ⟨rfl, hdst, e.src, hsrc, Digraph.hasArc_of_mem ha⟩)⟩

/-- After the members were replaced, the arcs between other nodes are left with what they hold. -/
lemma mem_arcs_replaced (hs : Roster g o s) (hm : s.Contractible names fused.name) :
    a ∈ (s.replaced names fused).dag.arcs ↔ a ∈ s.dag.arcs ∧ a.src ∉ names ∧ a.dst ∉ names := by
  obtain ⟨dag, hok, hrep, -⟩ := replaced_eq hs hm
  rw [hrep, Digraph.arcs_addVertexAt hok, hs.wellFormed.mem_arcs_foldl_dropVertex]

/-- A merge joins the fused node to whatever one of its members was joined to, and leaves all other edges. -/
lemma hasArc_contract (hs : Roster g o s) (hm : s.Contractible names fused.name) (record : MergeRecord) :
    (s.contract names fused record).dag.hasArc x y ↔ Digraph.Contracted s.dag.Adj (· ∈ names) fused.name x y := by
  rw [dag_contract, (hs.crossed_contract hm).hasArc_iff, hasArc_replaced hs hm]
  constructor
  · rintro (⟨hxy, hx, hy⟩ | ⟨m, hmem, rfl, rfl⟩)
    · exact .inl ⟨hx, hy, hxy⟩
    · rcases mem_crossings.1 hmem with ⟨e, he, rfl⟩ | ⟨e, he, rfl⟩
      · obtain ⟨ha, hsrc, hdst⟩ := hs.mem_inbound.1 he
        exact .inr (.inl ⟨hsrc, rfl, e.dst, hdst, Digraph.hasArc_of_mem ha⟩)
      · obtain ⟨ha, hsrc, hdst⟩ := hs.mem_outbound.1 he
        exact .inr (.inr ⟨rfl, hdst, e.src, hsrc, Digraph.hasArc_of_mem ha⟩)
  · rintro (⟨hx, hy, hxy⟩ | ⟨hx, rfl, m, hmem, hxm⟩ | ⟨rfl, hy, m, hmem, hmy⟩)
    · exact .inl ⟨hxy, hx, hy⟩
    · obtain ⟨a, ha, rfl, rfl⟩ := Digraph.hasArc_iff.1 hxm
      have hin := hs.val_mem_inbound ha hx hmem
      exact .inr ⟨_, List.mem_append_left _ (List.mem_map_of_mem hin), (hs.payload a ha).1, rfl⟩
    · obtain ⟨a, ha, rfl, rfl⟩ := Digraph.hasArc_iff.1 hmy
      have hout := hs.val_mem_outbound ha hmem hy
      exact .inr ⟨_, List.mem_append_right _ (List.mem_map_of_mem hout), rfl, (hs.payload a ha).2⟩

/-- The edges after a merge: those away from its members, and those across their border in their new places. -/
lemma arcs_contract (hs : Roster g o s) (hm : s.Contractible names fused.name) (record : MergeRecord)
    (ha : a ∈ (s.contract names fused record).dag.arcs) : (a ∈ s.dag.arcs ∧ a.src ∉ names ∧ a.dst ∉ names) ∨
      (∃ e ∈ s.inbound names, a = (movedIn fused e).toArc) ∨ ∃ e ∈ s.outbound names, a = (movedOut fused e).toArc := by
  rw [dag_contract] at ha
  rcases (hs.crossed_contract hm).arcs a ha with ha | ⟨m, hmem, rfl⟩
  · exact .inl ((hs.mem_arcs_replaced hm).1 ha)
  · rcases mem_crossings.1 hmem with ⟨e, he, rfl⟩ | ⟨e, he, rfl⟩
    · exact .inr (.inl ⟨e, he, rfl⟩)
    · exact .inr (.inr ⟨e, he, rfl⟩)

/-- A merge leaves the edges away from its members as they are. -/
lemma kept_contract (hs : Roster g o s) (hm : s.Contractible names fused.name) (record : MergeRecord)
    (ha : a ∈ s.dag.arcs) (hsrc : a.src ∉ names) (hdst : a.dst ∉ names) :
    a ∈ (s.contract names fused record).dag.arcs := by
  rw [dag_contract]
  exact (hs.crossed_contract hm).kept a ((hs.mem_arcs_replaced hm).2 ⟨ha, hsrc, hdst⟩)

/-- A merge replaces the records of its members by its own. -/
lemma get?_merges_contract (hs : Roster g o s) (hm : s.Contractible names fused.name) (record : MergeRecord)
    (k : String) :
    (s.contract names fused record).merges.get? k =
      if k = fused.name then some record else if k ∈ names then none else s.merges.get? k := by
  rw [(records_contract hs hm record).1, Dict.get?_insert, get?_merges_foldl_retire]

/-- Dropping a node leaves the others as they are, but for the variables they read. -/
lemma map_node?_drop {α : Type} {f : Node → α} (hf : ∀ v inputs, f { v with inputs } = f v) (hs : Roster g o s)
    {name k : String} (hk : k ≠ name) (src : Edge) :
    (((s.outEdges name).foldl (bypass src) (s.removeNode name)).pruneRenames.node? k).map f = (s.node? k).map f := by
  have hn : ∀ v ∈ (s.removeNode name).dag.vertices, v.val.name = v.key := by
    rw [dag_removeNode hs.wellFormed]
    exact fun v hv => hs.named v (Digraph.mem_of_mem_vertices_dropVertex hv)
  refine (map_node?_foldl_bypass hf k hn).trans ?_
  rw [node?, node?, Digraph.val?, Digraph.val?, dag_removeNode hs.wellFormed, Digraph.vertex?_dropVertex, if_neg hk]

end Roster

namespace Edited

variable {g : Graph} {o s t : Sandbox}

section Merge

variable {names : List String} {fused : Node}

/-- A merge moves edges to a node that was not there. -/
lemma not_hasArc_crossing (h : Edited g o s) (hm : s.Contractible names fused.name) {m : Edge × Edge}
    (hmem : m ∈ s.crossings names fused) : ¬ s.dag.hasArc m.2.src m.2.dst := by
  have hfresh : fused.name ∉ s.dag.keys := fun hk => hm.free (h.tracks.live_taken _ hk)
  intro harc
  rcases mem_crossings.1 hmem with ⟨e, -, rfl⟩ | ⟨e, -, rfl⟩
  · exact hfresh (Digraph.hasVertex_iff.1 (h.tracks.wellFormed.hasVertex_dst harc))
  · exact hfresh (Digraph.hasVertex_iff.1 (h.tracks.wellFormed.hasVertex_src harc))

/-- What crosses the border of the members is an edge of the sandbox. -/
lemma hasArc_crossing (h : Edited g o s) {m : Edge × Edge} (hmem : m ∈ s.crossings names fused) :
    s.dag.hasArc m.1.src m.1.dst := by
  rcases mem_crossings.1 hmem with ⟨e, he, rfl⟩ | ⟨e, he, rfl⟩
  · exact Digraph.hasArc_of_mem (h.tracks.mem_inbound.1 he).1
  · exact Digraph.hasArc_of_mem (h.tracks.mem_outbound.1 he).1

/-- What crosses the border of the members comes to start at a name without an arrow. -/
lemma arrowFree_crossing (h : Edited g o s) (haf : ArrowFree fused.name) {m : Edge × Edge}
    (hmem : m ∈ s.crossings names fused) : ArrowFree m.2.src := by
  rcases mem_crossings.1 hmem with ⟨e, he, rfl⟩ | ⟨e, -, rfl⟩
  · exact h.tracks.arrowFree_live (h.tracks.wellFormed.src_mem _ (h.tracks.mem_inbound.1 he).1)
  · exact haf

/-- The edges across the border of the members of a merge can be told apart. -/
lemma apart_crossings (h : Edited g o s) (hm : s.Contractible names fused.name) (haf : ArrowFree fused.name) :
    Apart (s.crossings names fused) := by
  have hs := h.tracks
  refine ⟨?_, fun m hmem m' hmem' he => ?_⟩
  · have hfst : ((s.crossings names fused).map fun m => m.1.id) =
      (s.inbound names ++ s.outbound names).map Edge.id := by
      simp [crossings, Function.comp_def]
    rw [hfst]
    exact hs.nodup_border hm.nodup
  · have hlive := h.hasArc_crossing hmem'
    have hsrc : m'.1.src ∈ s.dag.keys := Digraph.hasVertex_iff.1 (hs.wellFormed.hasVertex_src hlive)
    obtain ⟨h₁, h₂⟩ := (EdgeId.arc_inj (hs.arrowFree_live hsrc) (h.arrowFree_crossing haf hmem)).1 he
    exact h.not_hasArc_crossing hm hmem (h₁ ▸ h₂ ▸ hlive)

/-- The registered edges after a merge: those across the border of the members are registered in their new places. -/
lemma registered_contract (h : Edited g o s) (hm : s.Contractible names fused.name) (haf : ArrowFree fused.name)
    (record : MergeRecord) {id : EdgeId} :
    (s.contract names fused record).registered.contains id ↔
      (s.registered.contains id ∧ ∀ m ∈ s.crossings names fused, m.1.id ≠ id) ∨
        ∃ m ∈ s.crossings names fused, m.2.id = id ∧ s.registered.contains m.1.id := by
  have hs := h.tracks
  obtain ⟨-, -, -, -, hmoves, -⟩ := replaced_eq hs.toRoster hm
  have hmov := @foldl_eq_of_step _ _ _ _ moves (fun s name => (s.moveBoundary_frame name fused.name).2.1) names
    ((s.replaced names fused).rewireAll (s.crossings names fused))
  have hreg : (s.contract names fused record).registered =
      ((s.crossings names fused).map fun m => (m.1.id, m.2.id)).foldl
        (fun r p => Graph.moveRegistration r p.1 p.2) s.registered := by
    rw [List.foldl_map, ← (moves_eq_iff.1 hmoves).1, ← (h.tracks.crossed_contract hm).registered,
      ← (moves_eq_iff.1 hmov).1,
      contract_eq]
    rfl
  have hapart := h.apart_crossings hm haf
  rw [hreg, Graph.contains_foldl_moveRegistration]
  · rw [List.forall_mem_map]
    simp only [List.mem_map, exists_exists_and_eq_and]
  · rw [List.map_map]
    exact hapart.nodup
  · simp only [List.forall_mem_map]
    exact fun m hmem m' hmem' heq => hapart.old_ne m hmem m' hmem' heq.symm

/-- What a merge notes on the edges it moves: it notes them one after the other, and forgets what is no longer there. -/
lemma exists_noted_contract (h : Edited g o s) (hm : s.Contractible names fused.name) (haf : ArrowFree fused.name)
    (record : MergeRecord) : ∃ r, Noted s (s.crossings names fused) r ∧
      ∀ {b id}, (s.contract names fused record).renamed.get? b = some id ↔
        r.renamed.get? b = some id ∧ (r.origin.get? id = some b → (s.contract names fused record).hasEdge id) := by
  obtain ⟨-, -, -, -, hmoves, -⟩ := replaced_eq h.tracks.toRoster hm
  have hmov := @foldl_eq_of_step _ _ _ _ moves (fun s name => (s.moveBoundary_frame name fused.name).2.1) names
    ((s.replaced names fused).rewireAll (s.crossings names fused))
  have hapart := h.apart_crossings hm haf
  have hfirst : Noted s [] (s.replaced names fused) := .of_moves hmoves
  refine ⟨_, hfirst.trans ((h.tracks.crossed_contract hm).noted hapart) hapart, fun {b id} => ?_⟩
  rw [contract_eq, get?_renamed_pruneRenames]
  dsimp only
  rw [(moves_eq_iff.1 hmov).2.1, (moves_eq_iff.1 hmov).2.2]
  rfl

/-- The edges across the border of the members of a merge are called after different edges. -/
lemma nodup_baseId_crossings (h : Edited g o s) (hm : s.Contractible names fused.name) (haf : ArrowFree fused.name) :
    ((s.crossings names fused).map fun m => s.baseId m.1).Nodup := by
  have hnodup := (h.apart_crossings hm haf).nodup
  rw [List.Nodup, List.pairwise_map] at hnodup ⊢
  refine hnodup.imp_of_mem fun hm hm' hne hbase => hne ?_
  exact h.baseId_inj (h.hasArc_crossing hm) (h.hasArc_crossing hm') hbase

/-- The edges across the border of the members of a merge can be told apart from those away from them. -/
lemma movable_crossings (h : Edited g o s) (hm : s.Contractible names fused.name) (haf : ArrowFree fused.name) :
    Movable (s.replaced names fused) (s.crossings names fused) := by
  have hs := h.tracks
  refine ⟨h.apart_crossings hm haf, fun a ha => ?_, fun a ha m hmem hid => ?_,
    fun m hmem => h.arrowFree_crossing haf hmem⟩
  · obtain ⟨ha, -, -⟩ := (hs.mem_arcs_replaced hm).1 ha
    exact ⟨hs.toArc_val ha, hs.arrowFree_live (hs.wellFormed.src_mem a ha)⟩
  · obtain ⟨ha, hsrc, hdst⟩ := (hs.mem_arcs_replaced hm).1 ha
    obtain ⟨hes, hed⟩ := hs.payload a ha
    have hsrc' := Digraph.hasVertex_iff.1 (hs.wellFormed.hasVertex_src (h.hasArc_crossing hmem))
    obtain ⟨h₁, h₂⟩ := (EdgeId.arc_inj (hs.arrowFree_live hsrc')
      (hes ▸ hs.arrowFree_live (hs.wellFormed.src_mem a ha))).1 hid
    rcases mem_crossings.1 hmem with ⟨e, he, rfl⟩ | ⟨e, he, rfl⟩
    · exact hdst (hed ▸ h₂ ▸ (hs.mem_inbound.1 he).2.2)
    · exact hsrc (hes ▸ h₁ ▸ (hs.mem_outbound.1 he).2.1)

/-- After a merge edges are called what they were called before. -/
lemma called_contract (h : Edited g o s) (hm : s.Contractible names fused.name) (haf : ArrowFree fused.name)
    (record : MergeRecord) : Called s (s.crossings names fused) (s.contract names fused record) := by
  have hs := h.tracks
  obtain ⟨-, -, -, -, hmoves, -⟩ := replaced_eq hs.toRoster hm
  have hrewired : Called s (s.crossings names fused) ((s.replaced names fused).rewireAll (s.crossings names fused)) :=
    ((hs.crossed_contract hm).called (h.movable_crossings hm haf)).of_fewer
      (fun a ha => ((hs.mem_arcs_replaced hm).1 ha).1) hmoves fun m hmem => h.not_hasArc_crossing hm hmem
  obtain ⟨htop, hmov⟩ := foldl_moveBoundary_frame names fused.name
    ((s.replaced names fused).rewireAll (s.crossings names fused))
  rw [contract_eq]
  exact (hrewired.congr (congrArg (·.2.2.1) htop) hmov).pruneRenames ((hs.crossed h.copied hm haf).of_topology htop)

/-- A merge does what it should. -/
lemma merged_contract (h : Edited g o s) (hm : s.Contractible names fused.name) (haf : ArrowFree fused.name)
    (record : MergeRecord) : Merged s names fused record (s.contract names fused record) := by
  have hs := h.tracks
  have hfresh : fused.name ∉ s.dag.keys := fun hk => hm.free (hs.live_taken _ hk)
  have hfnames : fused.name ∉ names := fun hmem => hfresh (hm.live _ hmem)
  obtain ⟨dag, hok, hrep, -, -, hborder, -⟩ := replaced_eq hs.toRoster hm
  obtain ⟨hins, houts⟩ := @contains_foldl_moveBoundary fused.name names
    ((s.replaced names fused).rewireAll (s.crossings names fused)) hfnames
  have hb : ((s.replaced names fused).rewireAll (s.crossings names fused)).border = s.border :=
    (@foldl_eq_of_step _ _ _ _ border (fun s (m : Edge × Edge) => (s.rewire_frame m.1 m.2).1) _ _).trans hborder
  obtain ⟨hbi, hbo, -⟩ := border_eq_iff.1 hb
  obtain ⟨r, hnoted, hrenamed⟩ := h.exists_noted_contract hm haf record
  refine ⟨hs.vertex?_contract hm record, hs.hasArc_contract hm record, fun a => hs.kept_contract hm record,
    fun a => hs.arcs_contract hm record, ?_, ?_, ?_, ?_, ?_, fun hb => hnoted.renamed (hrenamed.1 hb).1,
      fun m hmem => ?_,
    fun hb hid hedge => hrenamed.2 ⟨(hnoted.still hb).trans hid, fun _ => hedge⟩, h.called_contract hm haf record⟩
  · intro x y hax hx hy
    rw [h.registered_contract hm haf]
    constructor
    · rintro (⟨hreg, -⟩ | ⟨m, hmem, hid, hreg⟩)
      · exact .inl hreg
      · rcases mem_crossings.1 hmem with ⟨e, he, rfl⟩ | ⟨e, he, rfl⟩
        · obtain ⟨ha, hsrc, hdst⟩ := hs.mem_inbound.1 he
          obtain ⟨rfl, rfl⟩ := (EdgeId.arc_inj (hs.arrowFree_live (hs.wellFormed.src_mem _ ha)) hax).1 hid
          exact .inr (.inl ⟨rfl, e.dst, hdst, Digraph.hasArc_of_mem ha, hreg⟩)
        · obtain ⟨ha, hsrc, hdst⟩ := hs.mem_outbound.1 he
          obtain ⟨rfl, rfl⟩ := (EdgeId.arc_inj haf hax).1 hid
          exact .inr (.inr ⟨rfl, e.src, hsrc, Digraph.hasArc_of_mem ha, hreg⟩)
    · rintro (hreg | ⟨rfl, m, hmem, hxm, hreg⟩ | ⟨rfl, m, hmem, hmy, hreg⟩)
      · refine .inl ⟨hreg, fun m hmem hid => ?_⟩
        rcases mem_crossings.1 hmem with ⟨e, he, rfl⟩ | ⟨e, he, rfl⟩
        · obtain ⟨ha, hsrc, hdst⟩ := hs.mem_inbound.1 he
          exact hy (((EdgeId.arc_inj (hs.arrowFree_live (hs.wellFormed.src_mem _ ha)) hax).1 hid).2 ▸ hdst)
        · obtain ⟨ha, hsrc, hdst⟩ := hs.mem_outbound.1 he
          exact hx (((EdgeId.arc_inj (hs.arrowFree_live (hs.wellFormed.src_mem _ ha)) hax).1 hid).1 ▸ hsrc)
      · obtain ⟨a, ha, rfl, rfl⟩ := Digraph.hasArc_iff.1 hxm
        have hid : a.val.id = EdgeId.arc a.src a.dst := by rw [Edge.id, (hs.payload a ha).1, (hs.payload a ha).2]
        refine .inr ⟨_, List.mem_append_left _ (List.mem_map_of_mem (hs.val_mem_inbound ha hx hmem)), ?_, hid ▸ hreg⟩
        exact congrArg (EdgeId.arc · fused.name) (hs.payload a ha).1
      · obtain ⟨a, ha, rfl, rfl⟩ := Digraph.hasArc_iff.1 hmy
        have hid : a.val.id = EdgeId.arc a.src a.dst := by rw [Edge.id, (hs.payload a ha).1, (hs.payload a ha).2]
        refine .inr ⟨_, List.mem_append_right _ (List.mem_map_of_mem (hs.val_mem_outbound ha hmem hy)), ?_, hid ▸ hreg⟩
        exact congrArg (EdgeId.arc fused.name ·) (hs.payload a ha).2
  · intro x
    rw [contract_eq, ← hbi]
    exact hins x
  · intro x
    rw [contract_eq, ← hbo]
    exact houts x
  · exact hs.toRoster.get?_merges_contract hm record
  · intro k
    rw [taken_contract hs.toRoster hm, NameSet.contains_add]
  · refine hrenamed.2 ⟨hnoted.moved (h.nodup_baseId_crossings hm haf) m hmem, fun _ => ?_⟩
    have hplaced := (hs.crossed_contract hm).placed m hmem
    rw [← Roster.dag_contract s names fused record] at hplaced
    exact (hs.contract h.copied hm haf record).hasEdge_iff.2 ⟨_, _, hplaced, rfl⟩

end Merge

end Edited

/-! ### Drops -/

/-- What dropping the node `name`, which only `src` leads to, leaves behind. -/
structure Dropped (s : Sandbox) (name : String) (src : Edge) (t : Sandbox) : Prop where
  vertex : ∀ k, t.dag.vertex? k = if k = name then none else
    match (s.outEdges name).find? (·.dst == k) with
    | none => s.dag.vertex? k
    | some e => (s.dag.vertex? k).map fun v => { v with val := readInstead e.var src.var v.val }
  hasArc : ∀ {x y}, t.dag.hasArc x y ↔ Digraph.Bypassed s.dag.Adj src.src name x y
  kept : ∀ a ∈ s.dag.arcs, a.src ≠ name → a.dst ≠ name → a ∈ t.dag.arcs
  arcs : ∀ a ∈ t.dag.arcs, (a ∈ s.dag.arcs ∧ a.src ≠ name ∧ a.dst ≠ name) ∨
    ∃ e ∈ s.outEdges name, a = (movedPast src e).toArc
  registered : t.registered = s.registered
  border : t.border = s.border
  records : t.records = s.records
  taken : t.taken = s.taken
  renamed : ∀ {b id}, t.renamed.get? b = some id →
    s.renamed.get? b = some id ∨ ∃ e ∈ s.outEdges name, s.baseId e = b ∧ (movedPast src e).id = id
  still : ∀ {b id}, (∀ e ∈ s.outEdges name, s.baseId e ≠ b) → s.renamed.get? b = some id → t.hasEdge id →
    t.renamed.get? b = some id
  called : Called s ((s.outEdges name).map fun e => (e, movedPast src e)) t

/-- Moving edges that are not registered leaves the registered ones as they are. -/
lemma foldl_moveRegistration_of_not {ps : List (Edge × Edge)} {r : NameSet} (h : ∀ p ∈ ps, ¬ r.contains p.1.id) :
    ps.foldl (fun r p => Graph.moveRegistration r p.1.id p.2.id) r = r := by
  induction ps with
  | nil => rfl
  | cons p ps ih =>
    rw [List.forall_mem_cons] at h
    rw [List.foldl_cons, Graph.moveRegistration, if_neg h.1]
    exact ih h.2

section Drop

variable {g : Graph} {o s : Sandbox} {name : String} {src : Edge}

namespace Roster

/-- What leads to a node that can be dropped. -/
lemma hasArc_source (hs : Roster g o s) (hd : s.Droppable name src) {z : String} :
    s.dag.hasArc z name ↔ z = src.src := by
  obtain ⟨hsrc, hdst⟩ := hs.mem_inEdges.1 (hd.source ▸ List.mem_singleton_self src)
  constructor
  · intro hz
    obtain ⟨a, ha, rfl, rfl⟩ := Digraph.hasArc_iff.1 hz
    have hmem : a.val ∈ s.inEdges a.dst := List.mem_map_of_mem (hs.wellFormed.mem_inArcs.2 ⟨ha, rfl⟩)
    rw [hd.source, List.mem_singleton] at hmem
    rw [← hmem, (hs.payload a ha).1]
  · rintro rfl
    exact hdst ▸ Digraph.hasArc_of_mem hsrc

/-- An edge out of a node leads to its consumer. -/
lemma hasArc_consumer (hs : Roster g o s) (he : e ∈ s.outEdges name) : s.dag.hasArc name e.dst := by
  obtain ⟨ha, rfl⟩ := hs.mem_outEdges.1 he
  exact Digraph.hasArc_of_mem ha

/-- Each successor of a node is the consumer of one of its edges. -/
lemma exists_consumer (hs : Roster g o s) {k : String} (h : s.dag.hasArc name k) :
    ∃ e ∈ s.outEdges name, e.dst = k := by
  obtain ⟨a, ha, hsrc, rfl⟩ := Digraph.hasArc_iff.1 h
  exact ⟨a.val, List.mem_map_of_mem (hs.wellFormed.mem_outArcs.2 ⟨ha, hsrc⟩), (hs.payload a ha).2⟩

/-- No two edges out of a node lead to one consumer. -/
lemma nodup_consumers (hs : Roster g o s) (name : String) : ((s.outEdges name).map (·.dst)).Nodup := by
  have heq : (s.outEdges name).map (·.dst) = s.dag.succs name := by
    rw [outEdges, ← hs.wellFormed.map_dst_outArcs, List.map_map]
    refine List.map_congr_left fun a ha => ?_
    exact (hs.payload a (hs.wellFormed.mem_outArcs.1 ha).1).2
  rw [heq]
  exact hs.wellFormed.succs_nodup name

/-- The edges out of a dropped node are moved to its producer. -/
lemma crossed_drop (hs : Roster g o s) (hd : s.Droppable name src) :
    Crossed (s.removeNode name) ((s.outEdges name).map fun e => (e, movedPast src e))
      ((s.outEdges name).foldl (bypass src) (s.removeNode name)) := by
  have hadj : s.dag.hasArc src.src name := (hs.hasArc_source hd).2 rfl
  have hkeys : ∀ {k}, s.dag.hasVertex k → k ≠ name → k ∈ (s.removeNode name).dag.keys := by
    intro k hk hne
    rw [dag_removeNode hs.wellFormed]
    exact Digraph.mem_keys_dropVertex.2 ⟨hne, Digraph.hasVertex_iff.1 hk⟩
  have hsrc : src.src ≠ name := fun heq => hs.acyclic name (.single (heq ▸ hadj))
  refine crossed_foldl_bypass (Digraph.Bypassed.acyclic hs.acyclic hadj)
    (hs.removeNode hd.live (hs.anchors ▸ hd.inside)).wellFormed (fun x y hxy => ?_)
    (hkeys (hs.wellFormed.hasVertex_src hadj) hsrc) fun e he => ?_
  · rw [dag_removeNode hs.wellFormed] at hxy
    exact .inl (hs.wellFormed.hasArc_dropVertex.1 hxy)
  · have harc := hs.hasArc_consumer he
    have hdst : e.dst ≠ name := fun heq => hs.acyclic name (.single (heq ▸ harc))
    exact ⟨hkeys (hs.wellFormed.hasVertex_dst harc) hdst, .inr ⟨rfl, harc⟩⟩

/-- Dropping a node replaces what its consumers read. -/
lemma vertex?_drop (hs : Roster g o s) (hd : s.Droppable name src) (k : String) :
    ((s.outEdges name).foldl (bypass src) (s.removeNode name)).dag.vertex? k = if k = name then none else
      match (s.outEdges name).find? (·.dst == k) with
      | none => s.dag.vertex? k
      | some e => (s.dag.vertex? k).map fun v => { v with val := readInstead e.var src.var v.val } := by
  have hs₁ := hs.removeNode hd.live (hs.anchors ▸ hd.inside)
  have hinside : ∀ e ∈ s.outEdges name, ¬ (s.removeNode name).anchors.contains e.dst := by
    rw [hs₁.anchors, ← hs.anchors]
    exact fun e he => (hd.consumers e he).1
  rw [vertex?_foldl_bypass k (hs.nodup_consumers name) hs₁.named hinside, dag_removeNode hs.wellFormed,
    Digraph.vertex?_dropVertex]
  by_cases hk : k = name
  · simp only [if_pos hk, Option.map_none]
    split <;> rfl
  · simp only [if_neg hk]

/-- Dropping a node joins its consumers to its producer, and leaves all other edges. -/
lemma hasArc_drop (hs : Roster g o s) (hd : s.Droppable name src) :
    ((s.outEdges name).foldl (bypass src) (s.removeNode name)).dag.hasArc x y ↔
      Digraph.Bypassed s.dag.Adj src.src name x y := by
  rw [(hs.crossed_drop hd).hasArc_iff, dag_removeNode hs.wellFormed, hs.wellFormed.hasArc_dropVertex]
  refine or_congr Iff.rfl ?_
  constructor
  · rintro ⟨m, hm, rfl, rfl⟩
    obtain ⟨e, he, rfl⟩ := List.mem_map.1 hm
    have harc := hs.hasArc_consumer he
    exact ⟨rfl, harc⟩
  · rintro ⟨rfl, hxy⟩
    obtain ⟨e, he, rfl⟩ := hs.exists_consumer hxy
    exact ⟨_, List.mem_map_of_mem he, rfl, rfl⟩

/-- Dropping a node leaves the arcs between other nodes. -/
lemma kept_drop (hs : Roster g o s) (hd : s.Droppable name src) (ha : a ∈ s.dag.arcs) (hsrc : a.src ≠ name)
    (hdst : a.dst ≠ name) : a ∈ ((s.outEdges name).foldl (bypass src) (s.removeNode name)).dag.arcs := by
  refine (hs.crossed_drop hd).kept a ?_
  rw [dag_removeNode hs.wellFormed]
  exact hs.wellFormed.mem_arcs_dropVertex.2 ⟨ha, hsrc, hdst⟩

/-- The edges after a node was dropped: those away from it, and those out of it in their new places. -/
lemma arcs_drop (hs : Roster g o s) (hd : s.Droppable name src)
    (ha : a ∈ ((s.outEdges name).foldl (bypass src) (s.removeNode name)).dag.arcs) :
    (a ∈ s.dag.arcs ∧ a.src ≠ name ∧ a.dst ≠ name) ∨ ∃ e ∈ s.outEdges name, a = (movedPast src e).toArc := by
  rcases (hs.crossed_drop hd).arcs a ha with ha | ⟨m, hm, rfl⟩
  · rw [dag_removeNode hs.wellFormed] at ha
    exact .inl (hs.wellFormed.mem_arcs_dropVertex.1 ha)
  · obtain ⟨e, he, rfl⟩ := List.mem_map.1 hm
    exact .inr ⟨e, he, rfl⟩

/-- Dropping a node leaves the registered edges as they are. -/
lemma registered_drop (hs : Roster g o s) (hd : s.Droppable name src) :
    ((s.outEdges name).foldl (bypass src) (s.removeNode name)).registered = s.registered := by
  rw [(hs.crossed_drop hd).registered, (moves_eq_iff.1 (s.removeNode_frame name).1).1]
  refine foldl_moveRegistration_of_not ?_
  rw [List.forall_mem_map]
  exact fun e he => (hd.consumers e he).2.1

end Roster

/-- The edges out of a node that can be dropped can be told apart. -/
lemma Edited.apart_outEdges (h : Edited g o s) (hd : s.Droppable name src) :
    Apart ((s.outEdges name).map fun e => (e, movedPast src e)) := by
  have hs := h.tracks
  have hadj : s.dag.hasArc src.src name := (hs.hasArc_source hd).2 rfl
  have haf : ArrowFree src.src := hs.arrowFree_live (Digraph.hasVertex_iff.1 (hs.wellFormed.hasVertex_src hadj))
  refine ⟨?_, ?_⟩
  · rw [List.map_map]
    exact hs.nodup_ids hs.nodup_outEdges fun e he => (hs.mem_outEdges.1 he).1
  · simp only [List.forall_mem_map]
    intro e _ e' he' heq
    obtain ⟨ha, hsrc'⟩ := hs.mem_outEdges.1 he'
    obtain ⟨heq, -⟩ := (EdgeId.arc_inj (hs.arrowFree_live (hs.wellFormed.src_mem _ ha)) haf).1 heq
    -- The producer of the dropped node would be the node itself.
    have hself : src.src = name := heq.symm.trans hsrc'
    exact hs.acyclic name (.single (hself ▸ hadj))

/-- A drop does what it should. -/
lemma Edited.dropped_drop (h : Edited g o s) (hd : s.Droppable name src) :
    Dropped s name src ((s.outEdges name).foldl (bypass src) (s.removeNode name)).pruneRenames := by
  have hs := h.tracks
  obtain ⟨hmoves, -, -⟩ := s.removeNode_frame name
  obtain ⟨-, htaken, hborder, hrecords⟩ := drop_frame hs.toRoster name src
  have hcr := hs.crossed_drop hd
  have hapart := h.apart_outEdges hd
  have hfirst : Noted s [] (s.removeNode name) := .of_moves hmoves
  have hnoted := hfirst.trans (hcr.noted hapart) hapart
  rw [List.nil_append] at hnoted
  refine ⟨hs.vertex?_drop hd, hs.hasArc_drop hd, fun a => hs.kept_drop hd, fun a => hs.arcs_drop hd,
    hs.registered_drop hd, hborder, hrecords, htaken, ?_, ?_, ?_⟩
  · intro b id hb
    simpa only [List.mem_map, exists_exists_and_eq_and] using hnoted.renamed (get?_renamed_pruneRenames.1 hb).1
  · intro b id hb hid hedge
    refine get?_renamed_pruneRenames.2 ⟨(hnoted.still ?_).trans hid, fun _ => hedge⟩
    rwa [List.forall_mem_map]
  · have hmem : ∀ {a}, a ∈ (s.removeNode name).dag.arcs → a ∈ s.dag.arcs ∧ a.src ≠ name ∧ a.dst ≠ name := by
      intro a ha
      rw [dag_removeNode hs.wellFormed] at ha
      exact hs.wellFormed.mem_arcs_dropVertex.1 ha
    have hmov : Movable (s.removeNode name) ((s.outEdges name).map fun e => (e, movedPast src e)) := by
      refine ⟨hapart, fun a ha => ?_, fun a ha => ?_, ?_⟩
      · exact ⟨hs.toArc_val (hmem ha).1, hs.arrowFree_live (hs.wellFormed.src_mem a (hmem ha).1)⟩
      · rw [List.forall_mem_map]
        intro e he hid
        obtain ⟨hae, hes⟩ := hs.mem_outEdges.1 he
        have hsrc' := hs.arrowFree_live (hs.wellFormed.src_mem a (hmem ha).1)
        obtain ⟨h₁, -⟩ := (EdgeId.arc_inj (hs.arrowFree_live (hs.wellFormed.src_mem _ hae))
          ((hs.payload a (hmem ha).1).1 ▸ hsrc')).1 hid
        exact (hmem ha).2.1 ((hs.payload a (hmem ha).1).1.symm.trans (h₁.symm.trans hes))
      · rw [List.forall_mem_map]
        have hadj : s.dag.hasArc src.src name := (hs.hasArc_source hd).2 rfl
        exact fun e _ => hs.arrowFree_live (Digraph.hasVertex_iff.1 (hs.wellFormed.hasVertex_src hadj))
    have hs₁ := hs.removeNode h.copied hd.live (hs.anchors ▸ hd.inside)
    refine Called.pruneRenames ?_ (hs₁.foldl_bypass fun e he => hs.not_hasArc_past h.copied hd he)
    refine (hcr.called hmov).of_fewer (fun a ha => (hmem ha).1) hmoves ?_
    rw [List.forall_mem_map]
    exact fun e he => (hd.consumers e he).2.2

end Drop

/-! ### Properties of all nodes -/

section Nodes

variable {P : Node → Prop} {s t : Sandbox}

/-- All nodes have a property. -/
def AllNodes (P : Node → Prop) (s : Sandbox) : Prop :=
  ∀ n ∈ s.nodes, P n

namespace AllNodes

lemma of_vertices (h : AllNodes P s) (hv : t.dag.vertices = s.dag.vertices) : AllNodes P t := by
  intro n hn
  rw [nodes, hv] at hn
  exact h n hn

lemma of_topology (h : AllNodes P s) (ht : t.topology = s.topology) : AllNodes P t :=
  h.of_vertices (congrArg (·.2.2.1.vertices) ht)

lemma of_node? (h : AllNodes P s) {k : String} {n : Node} (hn : s.node? k = some n) : P n := by
  obtain ⟨v, hv, rfl⟩ := Option.map_eq_some_iff.1 hn
  exact h v.val (List.mem_map_of_mem (Digraph.mem_of_vertex? hv))

lemma copy {g : Graph} (h : ∀ n ∈ g.nodes, P n) (region : Option (List String)) :
    AllNodes P (Sandbox.copy g region) := by
  intro n hn
  obtain ⟨v, hv, rfl⟩ := List.mem_map.1 hn
  exact h v.val (List.mem_map_of_mem (List.mem_of_mem_filter hv))

/-- Removing a node leaves none without the property. -/
lemma removeNode (h : AllNodes P s) (k : String) : AllNodes P (s.removeNode k) := by
  have hdrop : ∀ u : Sandbox, u.dag = s.dag.dropVertex k → AllNodes P u := by
    intro u hu n hn
    rw [nodes, hu] at hn
    obtain ⟨v, hv, rfl⟩ := List.mem_map.1 hn
    exact h v.val (List.mem_map_of_mem (Digraph.mem_of_mem_vertices_dropVertex hv))
  by_cases hk : k ∈ s.dag.keys
  · obtain ⟨base, removed, he, -⟩ := removeNode_eq hk
    rw [he]
    split
    · exact hdrop _ rfl
    · exact hdrop _ rfl
  · rwa [removeNode_of_not_mem hk]

/-- Adding a node with the property leaves none without it. -/
lemma addNode (h : AllNodes P s) {f : Node} (hf : P f) (seq : UInt64) : AllNodes P (s.addNode f seq) := by
  intro n hn
  unfold nodes Sandbox.addNode at hn
  cases hadd : s.dag.addVertexAt f.name f seq with
  | error e =>
    rw [hadd] at hn
    exact h n hn
  | ok dag =>
    rw [hadd] at hn
    obtain ⟨-, rfl⟩ := Digraph.addVertexAt_ok_iff.1 hadd
    obtain ⟨v, hv, rfl⟩ := List.mem_map.1 hn
    rcases List.mem_cons.1 ((Digraph.place_perm _ _).mem_iff.1 hv) with rfl | hv
    · exact hf
    · exact h v.val (List.mem_map_of_mem hv)

/-- Moving an edge leaves no node without the property. -/
lemma rewire (h : AllNodes P s) (old new : Edge) : AllNodes P (s.rewire old new) := by
  rcases rewire_eq s old new with ⟨dag, hdag, he⟩ | ⟨-, he⟩ | ⟨-, -, he⟩
  · rw [he]
    exact h.of_vertices (Digraph.vertices_addArc hdag)
  · rw [he]
    exact h.of_vertices rfl
  · rwa [he]

/-- Updating a node to one with the property leaves none without it. -/
lemma updateNode (h : AllNodes P s) {m : Node} (hm : P m) (hok : s.updateNode m = .ok t) : AllNodes P t := by
  obtain ⟨dag, hdag, -, rfl⟩ := updateNode_ok_iff.1 hok
  obtain ⟨-, rfl⟩ := Digraph.setVertex_ok_iff.1 hdag
  intro n hn
  obtain ⟨v', hv', rfl⟩ := List.mem_map.1 hn
  obtain ⟨v, hv, rfl⟩ := List.mem_map.1 hv'
  split
  · exact hm
  · exact h v.val (List.mem_map_of_mem hv)

/-- Merging nodes into one with the property leaves none without it. -/
lemma contract (h : AllNodes P s) {f : Node} (hf : P f) (names : List String) (record : MergeRecord) :
    AllNodes P (s.contract names f record) := by
  have hretire : AllNodes P (names.foldl retire s) := h.of_topology (topology_foldl_retire s names)
  have hreplaced : AllNodes P (s.replaced names f) :=
    (List.foldlRecOn names Sandbox.removeNode hretire fun _ h name _ => h.removeNode name).addNode hf _
  have hrewired : AllNodes P ((s.replaced names f).rewireAll (s.crossings names f)) :=
    List.foldlRecOn _ _ hreplaced fun _ h m _ => h.rewire m.1 m.2
  have hmoved := hrewired.of_topology
    (@foldl_eq_of_step _ _ _ _ topology (fun s name => (s.moveBoundary_frame name f.name).1) names _)
  rw [contract_eq]
  exact hmoved.of_vertices rfl

/-- A drop changes nothing of a node but what it reads. -/
lemma drop (h : AllNodes P s) (hP : ∀ n inputs, P n → P { n with inputs }) {name : String} (hok : s.drop name = .ok t) :
    AllNodes P t := by
  obtain ⟨src, -, rfl⟩ := drop_ok_iff.1 hok
  have hbypass : AllNodes P ((s.outEdges name).foldl (bypass src) (s.removeNode name)) := by
    apply List.foldlRecOn _ _ (h.removeNode name)
    intro u hu e _
    rw [bypass_eq]
    apply AllNodes.rewire
    apply reread_induct _ hu
    intro c t hc ht
    exact hu.updateNode (hP c _ (hu.of_node? hc)) ht
  exact hbypass.of_vertices rfl

end AllNodes

end Nodes

end OpGraph.Sandbox
