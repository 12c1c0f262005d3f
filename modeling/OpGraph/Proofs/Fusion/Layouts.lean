import Mathlib
import OpGraph.Fusion.Layouts
import OpGraph.Proofs.Fusion.Convergence

/-!
# Pins and layouts

Respelling the pins of the nodes replaces each payload by its respelled form and nothing else. A fused node is pinned
only if one of its members was, by the same text, so a run invents no pins.
-/

namespace OpGraph

namespace Layout

/-- A layout that can be given by a name is read back from its text, and it is valid. -/
lemma parse_text {s : String} {l : Layout} (h : parse s = .ok l) : parse l.text = .ok l ∧ l ≠ .invalid := by
  have hall : ∀ e ∈ aliases, parse? e.2.text = some e.2 ∧ e.2 ≠ .invalid := by decide +kernel
  unfold parse at h
  split at h
  · rename_i l' hl
    obtain rfl : l' = l := by simpa using h
    obtain ⟨_, _, heq, -⟩ := List.lookup_eq_some_iff.1 hl
    obtain ⟨hparse, hvalid⟩ := hall (_, l') (heq ▸ List.mem_append_right _ List.mem_cons_self)
    exact ⟨by rw [parse, hparse], hvalid⟩
  · cases h

end Layout

namespace Sandbox

/-! ### Respelled nodes -/

/-- The text a node is pinned by can be read. -/
def Legible (n : Node) : Prop :=
  ∀ text, pin? n = some text → ∃ l, Layout.parse text = .ok l

instance (n : Node) : Decidable (Legible n) :=
  decidable_of_iff (∀ text ∈ pin? n, (Layout.parse text).isOk) (forall₂_congr fun text _ => by
    cases Layout.parse text with
    | ok l => exact iff_of_true rfl ⟨l, rfl⟩
    | error f => exact iff_of_false Bool.false_ne_true fun ⟨_, h⟩ => by cases h)

/-- A node with its pin in the usual spelling. -/
def respelled (n : Node) : Node :=
  match pin? n with
  | none => n
  | some text =>
    match Layout.parse text with
    | .error _ => n
    | .ok l => if text = l.text then n else repin n l.text

/-- A node that was pinned to a text is pinned to it. -/
lemma pin?_repin (n : Node) (text : String) : pin? (repin n text) = some text := by
  simp [pin?, repin, Attribute.Store.get, Attribute.Value.asString]

/-- A respelled node has the same attributes but for a text. -/
lemma respelled_cases (n : Node) :
    respelled n = n ∨ ∃ old l, pin? n = some old ∧ Layout.parse old = .ok l ∧ respelled n = repin n l.text := by
  unfold respelled
  split
  · exact .inl rfl
  · rename_i text htext
    split
    · exact .inl rfl
    · rename_i l hl
      split
      · exact .inl rfl
      · exact .inr ⟨text, l, htext, hl, rfl⟩

/-- The layout a node is pinned to. -/
def pinned? (n : Node) : Option Layout :=
  (pin? n).bind fun text => (Layout.parse text).toOption

/-- The layout of what a node writes: the one it is pinned to, or the usual one for its type. -/
def nodeLayout (n : Node) : Layout :=
  (pinned? n).getD (usualLayout n.type)

/-- Respelling a pin does not matter to the layout. -/
lemma nodeLayout_respelled (n : Node) : nodeLayout (respelled n) = nodeLayout n := by
  rcases respelled_cases n with h | ⟨old, l, hold, hl, h⟩
  · rw [h]
  · rw [h, nodeLayout, nodeLayout, pinned?, pinned?, pin?_repin, hold, Option.bind_some, Option.bind_some, hl,
      (Layout.parse_text hl).1]
    rfl

/-- Respelling the layout of a node leaves its name. -/
lemma respelled_name (n : Node) : (respelled n).name = n.name := by
  rcases respelled_cases n with h | ⟨_, _, -, -, h⟩ <;> rw [h]; rfl

/-- Respelling the layout of a node leaves its type. -/
lemma respelled_type (n : Node) : (respelled n).type = n.type := by
  rcases respelled_cases n with h | ⟨_, _, -, -, h⟩ <;> rw [h]; rfl

/-- Respelling a respelled node changes nothing. -/
lemma respelled_respelled (n : Node) : respelled (respelled n) = respelled n := by
  rcases respelled_cases n with h | ⟨old, l, -, hl, h⟩
  · rw [h, h]
  · rw [h, respelled, pin?_repin]
    simp only [(Layout.parse_text hl).1, ite_true]

/-- A layout that can be read can still be read when it is respelled. -/
lemma legible_respelled {n : Node} (h : Legible n) : Legible (respelled n) := by
  rcases respelled_cases n with he | ⟨old, l, -, hl, he⟩
  · rwa [he]
  · intro text htext
    rw [he, pin?_repin] at htext
    cases htext
    exact ⟨l, (Layout.parse_text hl).1⟩

/-- What respelling the pins of some nodes leaves behind. -/
structure Respells (s : Sandbox) (names : List String) (t : Sandbox) : Prop where
  vertex : ∀ k, t.dag.vertex? k =
    (s.dag.vertex? k).map fun v => if k ∈ names then { v with val := respelled v.val } else v
  keys : t.dag.keys = s.dag.keys
  arcs : t.dag.arcs = s.dag.arcs
  moves : t.moves = s.moves
  border : t.border = s.border
  records : t.records = s.records
  taken : t.taken = s.taken

namespace Respells

variable {s t u : Sandbox} {names : List String} {name : String}

/-- Where the pin of a node is spelled in the usual way, there is nothing to do. -/
lemma refl_of (h : ∀ v, s.dag.vertex? name = some v → respelled v.val = v.val) : Respells s [name] s := by
  refine ⟨fun k => ?_, rfl, rfl, rfl, rfl, rfl, rfl⟩
  cases hk : s.dag.vertex? k with
  | none => rfl
  | some v =>
    rw [Option.map_some, Option.some.injEq]
    split
    · rename_i hmem
      rw [h v (List.mem_singleton.1 hmem ▸ hk)]
    · rfl

/-- Respelling one more node before others. -/
lemma cons (h : Respells s [name] t) (h' : Respells t names u) (hn : name ∉ names) : Respells s (name :: names) u := by
  refine ⟨fun k => ?_, h'.keys.trans h.keys, h'.arcs.trans h.arcs, h'.moves.trans h.moves, h'.border.trans h.border,
    h'.records.trans h.records, h'.taken.trans h.taken⟩
  rw [h'.vertex, h.vertex, Option.map_map]
  congr 1
  funext v
  by_cases hk : k = name
  · subst hk
    simp [hn]
  · simp [hk]

/-- Replacing the payload of a node by its respelled form. -/
lemma of_updateNode {v : Vertex Node} (hv : s.dag.vertex? name = some v) (hname : v.val.name = name)
    (h : s.updateNode (respelled v.val) = .ok t) : Respells s [name] t := by
  obtain ⟨dag, hdag, -, rfl⟩ := updateNode_ok_iff.1 h
  rw [respelled_name, hname] at hdag
  refine ⟨fun k => ?_, Digraph.keys_setVertex hdag, Digraph.arcs_setVertex hdag, rfl, rfl, rfl, rfl⟩
  show dag.vertex? k = _
  rw [Digraph.vertex?_setVertex hdag]
  by_cases hk : k = name
  · subst hk
    simp [hv]
  · simp [hk]

end Respells

/-- The layouts that nodes are pinned to are valid. -/
lemma valid_readPins :
    ∀ {ns : List Node} {s t : Sandbox} {pinned pinned' : Dict Layout},
      (∀ {k l}, pinned.get? k = some l → l ≠ .invalid) →
      s.readPins pinned ns = (t, .ok pinned') → ∀ {k l}, pinned'.get? k = some l → l ≠ .invalid
  | [], s, t, pinned, pinned', hp, h => by
    cases h
    exact hp
  | n :: ns, s, t, pinned, pinned', hp, h => by
    unfold readPins at h
    split at h
    · exact valid_readPins hp h
    · split at h
      · cases h
      · rename_i hl
        refine valid_readPins (fun {k l} hk => ?_) h
        rw [Dict.get?_insert] at hk
        split at hk
        · cases hk
          exact (Layout.parse_text hl).2
        · exact hp hk

/-- Reading the pins of nodes gives the layouts they are pinned to. -/
lemma get?_readPins :
    ∀ {ns : List Node} {s t : Sandbox} {pinned pinned' : Dict Layout}, (ns.map (·.name)).Nodup →
      s.readPins pinned ns = (t, .ok pinned') →
      (∀ n ∈ ns, pinned'.get? n.name = (pinned? n).or (pinned.get? n.name)) ∧
        ∀ k, k ∉ ns.map (·.name) → pinned'.get? k = pinned.get? k
  | [], s, t, pinned, pinned', _, h => by
    cases h
    exact ⟨fun n hn => absurd hn List.not_mem_nil, fun _ _ => rfl⟩
  | n :: ns, s, t, pinned, pinned', hnd, h => by
    rw [List.map_cons, List.nodup_cons] at hnd
    have hrest : ∀ {s' : Sandbox} {pinned₁ : Dict Layout}, s'.readPins pinned₁ ns = (t, .ok pinned') →
        pinned₁.get? n.name = (pinned? n).or (pinned.get? n.name) →
        (∀ k, k ≠ n.name → pinned₁.get? k = pinned.get? k) →
        (∀ m ∈ n :: ns, pinned'.get? m.name = (pinned? m).or (pinned.get? m.name)) ∧
          ∀ k, k ∉ (n :: ns).map (·.name) → pinned'.get? k = pinned.get? k := by
      intro s' pinned₁ hread hown hother
      obtain ⟨hin, hout⟩ := get?_readPins hnd.2 hread
      refine ⟨List.forall_mem_cons.2 ⟨(hout _ hnd.1).trans hown, fun m hm => ?_⟩, fun k hk => ?_⟩
      · rw [hin m hm, hother _ fun he => hnd.1 (he ▸ List.mem_map_of_mem hm)]
      · rw [List.map_cons, List.mem_cons, not_or] at hk
        rw [hout k hk.2, hother k hk.1]
    rw [readPins] at h
    cases hpin : pin? n with
    | none =>
      rw [hpin] at h
      refine hrest h ?_ fun _ _ => rfl
      rw [pinned?, hpin, Option.bind_none, Option.none_or]
    | some text =>
      rw [hpin] at h
      dsimp only at h
      cases hl : Layout.parse text with
      | error f =>
        rw [hl] at h
        cases h
      | ok l =>
        rw [hl] at h
        refine hrest h ?_ fun k hk => ?_
        · rw [Dict.get?_insert, if_pos rfl, pinned?, hpin, Option.bind_some, hl]
          rfl
        · rw [Dict.get?_insert, if_neg hk]

/-- Reading the pins of nodes respells them, and all of them can be read if none fails. -/
lemma readPins_ok {g : Graph} {o : Sandbox} :
    ∀ {ns : List Node} {s t : Sandbox} {pinned pinned' : Dict Layout}, Edited g o s → (∀ k, ¬ s.anchors.contains k) →
      (ns.map (·.name)).Nodup → (∀ n ∈ ns, ∃ v, s.dag.vertex? n.name = some v ∧ v.val = n) →
      s.readPins pinned ns = (t, .ok pinned') →
      Edited g o t ∧ Respells s (ns.map (·.name)) t ∧ ∀ n ∈ ns, Legible n
  | [], s, t, pinned, pinned', hs, _, _, _, h => by
    rw [readPins] at h
    cases h
    exact ⟨hs, ⟨fun k => by simp, rfl, rfl, rfl, rfl, rfl, rfl⟩, by simp⟩
  | n :: ns, s, t, pinned, pinned', hs, hanch, hnd, hns, h => by
    rw [List.map_cons, List.nodup_cons] at hnd
    rw [List.forall_mem_cons] at hns
    obtain ⟨⟨v, hv, hvn⟩, hns⟩ := hns
    have hne : ∀ m ∈ ns, m.name ≠ n.name := fun m hm heq => hnd.1 (heq ▸ List.mem_map_of_mem hm)
    -- Once the node is respelled, the others are still as they were.
    have hrest : ∀ {s' pinned₁}, Edited g o s' → Respells s [n.name] s' → s'.readPins pinned₁ ns = (t, .ok pinned') →
        Legible n → Edited g o t ∧ Respells s ((n :: ns).map (·.name)) t ∧ ∀ m ∈ n :: ns, Legible m := by
      intro s' pinned₁ hs' hone hread hlegible
      have hanch' : ∀ k, ¬ s'.anchors.contains k := by
        rw [hs'.tracks.anchors, ← hs.tracks.anchors]
        exact hanch
      obtain ⟨ht, hresp, hleg⟩ := readPins_ok hs' hanch' hnd.2 (fun m hm => by
        obtain ⟨w, hw, hwm⟩ := hns m hm
        refine ⟨w, ?_, hwm⟩
        rw [hone.vertex, hw]
        simp [hne m hm]) hread
      exact ⟨ht, hone.cons hresp hnd.1, List.forall_mem_cons.2 ⟨hlegible, hleg⟩⟩
    rw [readPins] at h
    cases hpin : pin? n with
    | none =>
      rw [hpin] at h
      refine hrest hs (.refl_of fun w hw => ?_) h fun text htext => ?_
      · obtain rfl : v = w := Option.some.inj (hv.symm.trans hw)
        rw [hvn, respelled, hpin]
      · rw [hpin] at htext
        cases htext
    | some text =>
      rw [hpin] at h
      dsimp only at h
      cases hl : Layout.parse text with
      | error f =>
        rw [hl] at h
        cases h
      | ok l =>
        rw [hl] at h
        dsimp only at h
        have hlegible : Legible n := by
          intro text' htext
          rw [hpin] at htext
          cases htext
          exact ⟨l, hl⟩
        by_cases heq : text = l.text
        · rw [if_pos heq] at h
          refine hrest hs (.refl_of fun w hw => ?_) h hlegible
          obtain rfl : v = w := Option.some.inj (hv.symm.trans hw)
          rw [hvn, respelled, hpin]
          simp only [hl]
          rw [if_pos heq]
        · rw [if_neg heq] at h
          have hresp : respelled v.val = repin n l.text := by
            rw [hvn, respelled, hpin]
            simp only [hl]
            rw [if_neg heq]
          have hname : v.val.name = n.name := by rw [hvn]
          obtain ⟨dag, hdag⟩ : ∃ dag, s.dag.setVertex (repin n l.text).name (repin n l.text) = .ok dag :=
            ⟨_, Digraph.setVertex_ok_iff.2 ⟨Digraph.hasVertex_iff_exists.2 ⟨v, hv⟩, rfl⟩⟩
          have hup := updateNode_ok_iff.2 ⟨dag, hdag, hanch _, rfl⟩
          rw [hup] at h
          exact hrest (hs.edit (e := .update _) trivial hup) (.of_updateNode hv hname (hresp ▸ hup)) h hlegible

/-- Pins that can be read are respelled without fail. -/
lemma exists_readPins :
    ∀ {ns : List Node} (s : Sandbox) (pinned : Dict Layout), (∀ n ∈ ns, Legible n) →
      ∃ t pinned', s.readPins pinned ns = (t, .ok pinned')
  | [], s, pinned, _ => ⟨s, pinned, rfl⟩
  | n :: ns, s, pinned, h => by
    rw [List.forall_mem_cons] at h
    rw [readPins]
    cases hpin : pin? n with
    | none => exact exists_readPins s pinned h.2
    | some text =>
      obtain ⟨l, hl⟩ := h.1 text hpin
      simp only [hl]
      exact exists_readPins _ _ h.2

/-- Where all pins are spelled in the usual way, reading them changes nothing. -/
lemma readPins_of_respelled :
    ∀ {ns : List Node} {s t : Sandbox} {pinned pinned' : Dict Layout}, (∀ n ∈ ns, respelled n = n) →
      s.readPins pinned ns = (t, .ok pinned') → t = s
  | [], s, t, _, _, _, h => by
    rw [readPins] at h
    cases h
    rfl
  | n :: ns, s, t, pinned, pinned', hns, h => by
    rw [List.forall_mem_cons] at hns
    rw [readPins] at h
    cases hpin : pin? n with
    | none =>
      rw [hpin] at h
      exact readPins_of_respelled hns.2 h
    | some text =>
      rw [hpin] at h
      dsimp only at h
      cases hl : Layout.parse text with
      | error f =>
        rw [hl] at h
        cases h
      | ok l =>
        rw [hl] at h
        dsimp only at h
        have heq : text = l.text := by
          by_contra hne
          have hresp := hns.1
          rw [respelled, hpin] at hresp
          simp only [hl] at hresp
          rw [if_neg hne] at hresp
          have hpin' := pin?_repin n l.text
          rw [hresp, hpin] at hpin'
          exact hne (Option.some.inj hpin')
        rw [if_pos heq] at h
        exact readPins_of_respelled hns.2 h

/-! ### Assigning layouts -/

/-- What respelling all pins and assigning layouts leaves behind. -/
structure Normalized (g : Graph) (s : Sandbox) (known : Dict Layout) (t : Sandbox) (layouts : Dict Layout) : Prop where
  edited : Edited g (Sandbox.copy g none) t
  respells : Respells s s.dag.keys t
  legible : ∀ n ∈ s.nodes, Legible n
  valid : ∀ {id l}, layouts.get? id = some l → l ≠ .invalid
  assigned : ∀ {id}, layouts.contains id ↔ ¬ known.contains id ∧ ∃ e ∈ t.edges, e.id = id
  given : ∀ e ∈ t.edges, ¬ known.contains e.id → layouts.get? e.id = (s.node? e.src).map nodeLayout

section Normalize

variable {g : Graph} {s t : Sandbox} {known layouts : Dict Layout}

/-- The nodes of a sandbox have the names that are listed. -/
lemma Edited.names_nodes (h : Edited g (Sandbox.copy g none) s) : s.nodes.map (·.name) = s.dag.keys := by
  rw [nodes, Digraph.keys, List.map_map]
  exact List.map_congr_left fun v hv => h.tracks.named v hv

/-- The layouts that are assigned are valid. -/
lemma valid_normalize (he : s.normalize known = (t, .ok layouts)) {id : EdgeId} {l : Layout}
    (hl : layouts.get? id = some l) : l ≠ .invalid := by
  unfold normalize at he
  split at he
  · cases he
  · rename_i s' pinned hread
    cases he
    have hempty : ∀ k, ({} : Dict Layout).get? k = none := fun _ => rfl
    have hpinned : ∀ {k l}, pinned.get? k = some l → l ≠ .invalid := valid_readPins (fun {k l} hk => by cases hk) hread
    rw [Dict.get?_foldl_insert, hempty, Option.or_none] at hl
    obtain ⟨e, -, rfl⟩ := Option.map_eq_some_iff.1 hl
    unfold producerLayout
    split
    · exact hpinned ‹_›
    · unfold usualLayout
      split <;> decide

/-- Layouts are assigned to the edges that have none. -/
lemma contains_normalize (he : s.normalize known = (t, .ok layouts)) {id : EdgeId} :
    layouts.contains id ↔ ¬ known.contains id ∧ ∃ e ∈ t.edges, e.id = id := by
  unfold normalize at he
  split at he
  · cases he
  · cases he
    have hempty : ∀ k, ({} : Dict Layout).get? k = none := fun _ => rfl
    rw [Dict.contains, Dict.get?_foldl_insert, hempty, Option.or_none, Option.isSome_map, List.find?_isSome]
    simp only [List.mem_reverse, List.mem_filter, beq_iff_eq, Bool.not_eq_true']
    constructor
    · rintro ⟨e, ⟨he, hk⟩, rfl⟩
      exact ⟨by rw [hk]; exact Bool.false_ne_true, e, he, rfl⟩
    · rintro ⟨hk, e, he, rfl⟩
      exact ⟨e, ⟨he, Bool.eq_false_iff.2 hk⟩, rfl⟩

/-- Once the pins are read, the layout of an edge is that of the node that writes it. -/
lemma producerLayout_readPins (h : Edited g (Sandbox.copy g none) s) (hresp : Respells s s.dag.keys t)
    {pinned : Dict Layout} (hread : s.readPins {} s.nodes = (t, .ok pinned)) {e : Edge} {n : Node}
    (hn : s.node? e.src = some n) : t.producerLayout pinned e = nodeLayout n := by
  obtain ⟨v, hv, rfl⟩ := Option.map_eq_some_iff.1 hn
  have hkey := Digraph.key_of_vertex? hv
  have hname : v.val.name = e.src := (h.tracks.named v (Digraph.mem_of_vertex? hv)).trans hkey
  have hmem : v.val ∈ s.nodes := List.mem_map_of_mem (Digraph.mem_of_vertex? hv)
  have hpinned : pinned.get? e.src = pinned? v.val := by
    have hget := (get?_readPins (h.names_nodes ▸ h.tracks.wellFormed.keys_nodup) hread).1 _ hmem
    rwa [hname, show ({} : Dict Layout).get? e.src = none from rfl, Option.or_none] at hget
  have htype : ((t.node? e.src).map (·.type)).getD "" = v.val.type := by
    rw [node?, Digraph.val?, hresp.vertex, hv]
    have htype := respelled_type v.val
    simp only [Option.map_some, Option.getD_some]
    split
    · exact htype
    · rfl
  rw [producerLayout, hpinned, htype, nodeLayout]
  cases pinned? v.val <;> rfl

/-- If normalizing succeeds, it does what it should. -/
lemma normalize_ok (h : Edited g (Sandbox.copy g none) s) (he : s.normalize known = (t, .ok layouts)) :
    Normalized g s known t layouts := by
  have hvalid : ∀ {id l}, layouts.get? id = some l → l ≠ .invalid := valid_normalize he
  have hassigned : ∀ {id}, layouts.contains id ↔ ¬ known.contains id ∧ ∃ e ∈ t.edges, e.id = id := contains_normalize he
  unfold normalize at he
  split at he
  · cases he
  · rename_i s' pinned hread
    obtain ⟨hs', hresp, hleg⟩ := readPins_ok h h.not_anchor
      (h.names_nodes ▸ h.tracks.wellFormed.keys_nodup) (fun n hn => (Engine.mem_nodes_iff h).1 hn) hread
    cases he
    have hresp := h.names_nodes ▸ hresp
    have hempty : ∀ k, ({} : Dict Layout).get? k = none := fun _ => rfl
    refine ⟨hs', hresp, hleg, hvalid, hassigned, fun e he hk => ?_⟩
    have hsrc : ∀ {e : Edge}, e ∈ t.edges → e.src ∈ t.dag.keys := by
      intro e he
      obtain ⟨a, ha, rfl⟩ := List.mem_map.1 he
      have ha := hs'.tracks.wellFormed.mem_arcsBySource.1 ha
      exact (hs'.tracks.payload a ha).1 ▸ hs'.tracks.wellFormed.src_mem a ha
    rw [Dict.get?_foldl_insert, hempty, Option.or_none]
    -- The edge that the layout was given to last has the same identifier, so the same producer.
    have hfound : ((t.edges.filter fun f => !known.contains f.id).reverse.find? fun f => f.id == e.id).isSome :=
      List.find?_isSome.2 ⟨e, by simp [he, hk], beq_self_eq_true _⟩
    obtain ⟨f, hf⟩ := Option.isSome_iff_exists.1 hfound
    have hmem := (List.mem_filter.1 (List.mem_reverse.1 (List.mem_of_find?_eq_some hf))).1
    have hid : f.id = e.id := by simpa using List.find?_some hf
    obtain ⟨hfe, -⟩ := (EdgeId.arc_inj (hs'.tracks.arrowFree_live (hsrc hmem))
      (hs'.tracks.arrowFree_live (hsrc he))).1 hid
    obtain ⟨v, hv⟩ := Digraph.hasVertex_iff_exists.1 (Digraph.hasVertex_iff.2 (hresp.keys ▸ hsrc hmem))
    have hnode : s.node? f.src = some v.val := Option.map_eq_some_iff.2 ⟨v, hv, rfl⟩
    rw [hf, Option.map_some, producerLayout_readPins h hresp hread hnode, ← hfe, hnode]
    rfl

/-- Layouts are assigned without fail exactly if all pins can be read. -/
lemma exists_normalize_iff (h : Edited g (Sandbox.copy g none) s) (known : Dict Layout) :
    (∃ t layouts, s.normalize known = (t, .ok layouts)) ↔ ∀ n ∈ s.nodes, Legible n := by
  constructor
  · rintro ⟨t, layouts, he⟩
    exact (normalize_ok h he).legible
  · intro hleg
    obtain ⟨t, pinned, hread⟩ := exists_readPins s {} hleg
    unfold normalize
    rw [hread]
    exact ⟨_, _, rfl⟩

end Normalize

end Sandbox

end OpGraph
