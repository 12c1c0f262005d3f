import Mathlib
import OpGraph.Proofs.Fusion.Layouts
import OpGraph.Proofs.Fusion.Steps

/-!
# Attributes of fused nodes

Whether the attributes of nodes go together depends on their names only and on which of them are valid. A fused node
has an attribute with a plain name only if one of its members had it. So the layout a fused node is pinned to is that of
a member, and the steps of a run keep the pins legible.
-/

namespace OpGraph

namespace Attribute.Store

/-- The names of a store, each with whether its value is valid. -/
def shape (a : Store) : Dict Bool :=
  a.map fun _ v => v.isValid

/-- The shape of a store says which of its values are valid. -/
lemma get?_shape (a : Store) (k : String) : a.shape.get? k = (a.get? k).map Value.isValid :=
  Dict.get?_map a _ k

/-- The shape of a store has the names of the store. -/
lemma contains_shape (a : Store) (k : String) : a.shape.contains k = a.contains k := by
  rw [Dict.contains, Dict.contains, get?_shape, Option.isSome_map]

/-- Setting a value sets what the shape says of it. -/
lemma shape_insert (a : Store) (k : String) (v : Value) :
    shape (a.insert k v) = a.shape.insert k v.isValid := by
  refine Dict.ext_get? fun j => ?_
  rw [get?_shape, Dict.get?_insert, Dict.get?_insert, get?_shape]
  split <;> rfl

/-- The name of an entry with whether its value is valid. -/
def outline (e : String × Value) : String × Bool :=
  (e.1, e.2.isValid)

/-- The entries of a shape are the outlines of the entries. -/
lemma entries_shape (a : Store) : a.shape.entries = a.entries.map outline := rfl

/-- Whether a value can be set, and the shape afterwards, depends on shapes only. -/
lemma set_shape {a b : Store} (h : a.shape = b.shape) {e e' : String × Value} (he : outline e = outline e') :
    (a.set e.1 e.2).map shape = (b.set e'.1 e'.2).map shape := by
  obtain ⟨hk, hv⟩ := Prod.mk.inj he
  unfold set
  rw [hk, hv]
  split
  · rfl
  · split
    · rfl
    · show Except.ok (shape _) = Except.ok (shape _)
      rw [shape_insert, shape_insert, h, hv]

/-- Whether an attribute of a member is taken over, and the shape afterwards, depends on shapes only. -/
lemma adopt_shape (q : String) {a b : Store} (h : a.shape = b.shape) {e e' : String × Value}
    (he : outline e = outline e') :
    (adopt q a e.1 e.2).map shape = (adopt q b e'.1 e'.2).map shape := by
  obtain ⟨hk, hv⟩ := Prod.mk.inj he
  have hcontains (own : String) : a.contains own = b.contains own := by
    rw [← contains_shape, h, contains_shape]
  unfold adopt
  dsimp only
  rw [hk, hcontains]
  split
  · rfl
  · have hown : outline (qualified q e'.1, e.2) = outline (qualified q e'.1, e'.2) := Prod.ext rfl hv
    exact set_shape h hown

/-- Taking over the attributes of a member depends on shapes only, also in where it stops. -/
lemma adoptAll_shape (q : String) :
    ∀ {es es' : List (String × Value)} {a b : Store}, a.shape = b.shape → es.map outline = es'.map outline →
      (adoptAll q a es).1.shape = (adoptAll q b es').1.shape ∧ (adoptAll q a es).2 = (adoptAll q b es').2
  | [], [], _, _, h, _ => ⟨h, rfl⟩
  | [], _ :: _, _, _, _, he => by cases he
  | _ :: _, [], _, _, _, he => by cases he
  | e :: es, e' :: es', a, b, h, he => by
    rw [List.map_cons, List.map_cons, List.cons.injEq] at he
    have hone := adopt_shape q h he.1
    rw [adoptAll, adoptAll]
    cases ha : adopt q a e.1 e.2 with
    | error err =>
      cases hb : adopt q b e'.1 e'.2 with
      | error err' =>
        rw [ha, hb] at hone
        cases hone
        exact ⟨h, rfl⟩
      | ok b' =>
        rw [ha, hb] at hone
        cases hone
    | ok a' =>
      cases hb : adopt q b e'.1 e'.2 with
      | error err' =>
        rw [ha, hb] at hone
        cases hone
      | ok b' =>
        rw [ha, hb] at hone
        exact adoptAll_shape q (Except.ok.inj hone) he.2

/-- What is in a store after attributes were added. -/
lemma get?_adoptAll {q : String} {k : String} {v : Value} :
    ∀ {es : List (String × Value)} {a b : Store}, adoptAll q a es = (b, none) → b.get? k = some v →
      a.get? k = some v ∨ ∃ e ∈ es, qualified q e.1 = k ∧ e.2 = v
  | [], a, b, h, hk => by
    cases h
    exact .inl hk
  | e :: es, a, b, h, hk => by
    rw [adoptAll] at h
    cases ha : adopt q a e.1 e.2 with
    | error err =>
      rw [ha] at h
      cases h
    | ok a' =>
      rw [ha] at h
      rcases get?_adoptAll h hk with hk | ⟨e', he', hq⟩
      · unfold adopt at ha
        dsimp only at ha
        split at ha
        · cases ha
        · unfold set at ha
          split at ha
          · cases ha
          · split at ha
            · cases ha
            · cases ha
              rw [Dict.get?_insert] at hk
              split at hk
              · rename_i hkq
                cases hk
                exact .inr ⟨e, List.mem_cons_self, hkq.symm, rfl⟩
              · exact .inl hk
      · exact .inr ⟨e', List.mem_cons_of_mem _ he', hq⟩

end Attribute.Store

namespace Sandbox

open Attribute

/-- Taking over attributes with their full names depends on shapes only. -/
lemma adoptQualified_shape :
    ∀ {es es' : List (String × Value)} {a b : Store}, a.shape = b.shape →
      es.map Store.outline = es'.map Store.outline →
      (adoptQualified a es).map Store.shape = (adoptQualified b es').map Store.shape
  | [], [], _, _, h, _ => congrArg Except.ok h
  | [], _ :: _, _, _, _, he => by cases he
  | _ :: _, [], _, _, _, he => by cases he
  | e :: es, e' :: es', a, b, h, he => by
    rw [List.map_cons, List.map_cons, List.cons.injEq] at he
    have hone := Store.set_shape h he.1
    have hk : e.1 = e'.1 := (Prod.mk.inj he.1).1
    have hcontains : a.contains e.1 = b.contains e'.1 := by
      rw [← Store.contains_shape, h, Store.contains_shape, hk]
    rw [adoptQualified, adoptQualified, hcontains]
    split
    · rw [hk]
    · cases ha : Store.set a e.1 e.2 with
      | error err =>
        cases hb : Store.set b e'.1 e'.2 with
        | error err' =>
          rw [ha, hb] at hone
          cases hone
          rfl
        | ok b' =>
          rw [ha, hb] at hone
          cases hone
      | ok a' =>
        cases hb : Store.set b e'.1 e'.2 with
        | error err' =>
          rw [ha, hb] at hone
          cases hone
        | ok b' =>
          rw [ha, hb] at hone
          exact adoptQualified_shape (Except.ok.inj hone) he.2

/-- Adding the attributes of a member works the same for a node of the same name and shape. -/
lemma adoptMember_shape {s t : Sandbox} {a b : Store} {n m : Node} (h : a.shape = b.shape) (hname : m.name = n.name)
    (hattrs : m.attrs.shape = n.attrs.shape) (hfused : t.merges.contains n.name = s.merges.contains n.name) :
    (t.adoptMember b m).map Store.shape = (s.adoptMember a n).map Store.shape := by
  have hentries : m.attrs.entries.map Store.outline = n.attrs.entries.map Store.outline := by
    rw [← Store.entries_shape, ← Store.entries_shape, hattrs]
  unfold adoptMember
  rw [hname, hfused]
  split
  · exact adoptQualified_shape h.symm hentries
  · obtain ⟨hs, herr⟩ := Store.adoptAll_shape n.name h.symm hentries
    unfold Store.merge
    cases hm : Store.adoptAll n.name b m.attrs.entries with
    | mk b' errb =>
      cases hn : Store.adoptAll n.name a n.attrs.entries with
      | mk a' erra =>
        rw [hm, hn] at hs herr
        cases errb with
        | none =>
          cases erra with
          | none => exact congrArg Except.ok hs
          | some e => cases herr
        | some e =>
          cases erra with
          | none => cases herr
          | some e' =>
            cases herr
            rfl

/-- Whether the attributes of nodes go together depends on their names and shapes and on which of them are fused. -/
lemma fusedAttrs_shape {s t : Sandbox} {f : Node → Node} (hname : ∀ n, (f n).name = n.name)
    (hattrs : ∀ n, (f n).attrs.shape = n.attrs.shape) {names : List String}
    (hnode : ∀ m ∈ names, t.node? m = (s.node? m).map f)
    (hfused : ∀ n ∈ s.nodesOf names, t.merges.contains n.name = s.merges.contains n.name) :
    (t.fusedAttrs names).map Store.shape = (s.fusedAttrs names).map Store.shape := by
  have hnodes : t.nodesOf names = (s.nodesOf names).map f := by
    rw [nodesOf, nodesOf, List.map_filterMap]
    exact List.filterMap_congr hnode
  have hfold : ∀ {ns : List Node} {a b : Store}, (∀ n ∈ ns, t.merges.contains n.name = s.merges.contains n.name) →
      a.shape = b.shape →
      ((ns.map f).foldlM t.adoptMember b).map Store.shape = (ns.foldlM s.adoptMember a).map Store.shape := by
    intro ns
    induction ns with
    | nil => exact fun _ h => congrArg Except.ok h.symm
    | cons n ns ih =>
      intro a b hns h
      rw [List.forall_mem_cons] at hns
      have hone := adoptMember_shape (t := t) (s := s) h (hname n) (hattrs n) hns.1
      rw [List.map_cons, List.foldlM_cons, List.foldlM_cons]
      cases ha : s.adoptMember a n with
      | error err =>
        cases hb : t.adoptMember b (f n) with
        | error err' =>
          rw [ha, hb] at hone
          exact hone
        | ok b' =>
          rw [ha, hb] at hone
          cases hone
      | ok a' =>
        cases hb : t.adoptMember b (f n) with
        | error err' =>
          rw [ha, hb] at hone
          cases hone
        | ok b' =>
          rw [ha, hb] at hone
          exact ih hns.2 (Except.ok.inj hone).symm
  rw [fusedAttrs, fusedAttrs, hnodes]
  exact hfold hfused rfl

/-- Whether a computation succeeds is not changed by what is done with its result. -/
lemma exists_ok_of_map {ε α β γ : Type} {x : Except ε α} {y : Except ε β} {f : α → γ} {h : β → γ}
    (heq : x.map f = y.map h) : (∃ a, x = .ok a) ↔ ∃ b, y = .ok b := by
  cases x <;> cases y <;> simp_all [Except.map]

/-! ### Plain names -/

/-- An attribute after others were taken over was there before or was taken over. -/
lemma get?_adoptQualified {k : String} {v : Value} :
    ∀ {es : List (String × Value)} {a b : Store}, adoptQualified a es = .ok b → b.get? k = some v →
      a.get? k = some v ∨ (k, v) ∈ es
  | [], a, b, h, hk => by
    cases h
    exact .inl hk
  | e :: es, a, b, h, hk => by
    rw [adoptQualified] at h
    split at h
    · cases h
    · cases ha : Store.set a e.1 e.2 with
      | error err =>
        rw [ha] at h
        cases h
      | ok a' =>
        rw [ha] at h
        rcases get?_adoptQualified h hk with hk | hmem
        · unfold Store.set at ha
          split at ha
          · cases ha
          · split at ha
            · cases ha
            · cases ha
              rw [Dict.get?_insert] at hk
              split at hk
              · rename_i hke
                cases hk
                exact .inr (hke ▸ List.mem_cons_self)
              · exact .inl hk
        · exact .inr (List.mem_cons_of_mem _ hmem)

/-- A name without a dot is not a qualified one. -/
lemma eq_of_qualified {q name plain : String} (hp : '.' ∉ plain.toList) (h : Store.qualified q name = plain) :
    name = plain := by
  unfold Store.qualified at h
  split at h
  · exact h
  · exfalso
    apply hp
    rw [← h, String.toList_append, String.toList_append]
    simp

/-- A fused node has an attribute with a plain name only if one of its members had it. -/
lemma get?_fusedAttrs {s : Sandbox} {names : List String} {attrs : Store} (h : s.fusedAttrs names = .ok attrs)
    {plain : String} (hp : '.' ∉ plain.toList) {v : Value} (hv : attrs.get? plain = some v) :
    ∃ n ∈ s.nodesOf names, n.attrs.get? plain = some v := by
  refine foldlM_ok_induct (P := fun a : Store => ∀ v, a.get? plain = some v →
    ∃ n ∈ s.nodesOf names, n.attrs.get? plain = some v) ?_ ?_ h v hv
  · intro a n b hn ha hb v hv
    unfold adoptMember at hb
    split at hb
    · rcases get?_adoptQualified hb hv with hv | hmem
      · exact ha v hv
      · exact ⟨n, hn, (Dict.get?_eq_some_iff _ _ _).2 hmem⟩
    · split at hb
      · rename_i b' hmerge
        cases hb
        rcases Store.get?_adoptAll hmerge hv with hv | ⟨e, he, hq, rfl⟩
        · exact ha v hv
        · obtain rfl := eq_of_qualified hp hq
          exact ⟨n, hn, (Dict.get?_eq_some_iff _ _ _).2 he⟩
      · cases hb
  · intro v hv
    cases hv

/-! ### Pins -/

/-- The text a node is pinned by is that of an attribute. -/
lemma pin?_eq_some_iff {n : Node} {text : String} :
    pin? n = some text ↔ ∃ v, n.attrs.get? layoutAttr = some v ∧ v.asString = .ok text := by
  unfold pin? Store.get
  cases n.attrs.get? layoutAttr with
  | none => simp
  | some v => cases hv : v.asString <;> simp [hv]

/-- Whether the layout of a node can be read depends on its attributes only. -/
lemma legible_congr {n m : Node} (h : n.attrs = m.attrs) : Legible n ↔ Legible m := by
  simp only [Legible, pin?_eq_some_iff, h]

end Sandbox

namespace Engine

open Sandbox

/-- The steps of a run keep the pins of all nodes legible. -/
lemma Effect.legible {e : Engine} {s t : Sandbox} (h : e.Effect s t) (hs : ∀ {k n}, s.node? k = some n → Legible n)
    {k : String} {n : Node} (hn : t.node? k = some n) : Legible n := by
  obtain ⟨v, hv, rfl⟩ := Option.map_eq_some_iff.1 hn
  cases h with
  | dropped _ h =>
    rw [h.vertex] at hv
    split at hv
    · cases hv
    · split at hv
      · exact hs (Option.map_eq_some_iff.2 ⟨v, hv, rfl⟩)
      · obtain ⟨w, hw, rfl⟩ := Option.map_eq_some_iff.1 hv
        have hleg : Legible w.val := hs (Option.map_eq_some_iff.2 ⟨w, hw, rfl⟩)
        exact (legible_congr rfl).2 hleg
  | fused _ h =>
    rw [h.merged.vertex] at hv
    split at hv
    · cases hv
      obtain ⟨attrs, hattrs, hnode⟩ := fusedNode_ok_iff.1 h.node
      intro text htext
      obtain ⟨v, hv, hstring⟩ := pin?_eq_some_iff.1 htext
      rw [hnode] at hv
      obtain ⟨m, hm, hmv⟩ := get?_fusedAttrs hattrs (by decide) hv
      obtain ⟨name, -, hname⟩ := List.mem_filterMap.1 hm
      exact hs hname text (pin?_eq_some_iff.2 ⟨v, hmv, hstring⟩)
    · split at hv
      · cases hv
      · exact hs (Option.map_eq_some_iff.2 ⟨v, hv, rfl⟩)

end Engine

end OpGraph
