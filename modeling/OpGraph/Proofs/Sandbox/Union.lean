import Mathlib
import OpGraph.Proofs.Sandbox.Histories

/-!
# The attributes of a fused node

A fused node has the attributes of its members, under names that tell them apart: that of a fused member as it is, that
of any other behind the name of the member. A merge that is allowed otherwise fails exactly if two of these names are
the same, and if it does not fail then nothing is lost and nothing is added.
-/

namespace OpGraph

variable {k q : String} {a : Store} {v : Value} {es : List (String × Value)} {s : Sandbox}

/-! ### Stores -/

/-- A new entry is added to those that are there. -/
lemma Dict.entries_insert_perm {α : Type} {d : Dict α} (hk : ¬ d.contains k) (v : α) :
    (d.insert k v).entries.Perm (d.entries ++ [(k, v)]) := by
  have hnodup : ∀ d : Dict α, d.entries.Nodup := fun d => .of_map _ (Dict.keys_nodup d)
  refine (List.perm_ext_iff_of_nodup (hnodup _) ?_).2 fun e => ?_
  · rw [List.nodup_append]
    refine ⟨hnodup d, List.nodup_singleton _, fun e he e' he' hee => hk ?_⟩
    obtain rfl := List.mem_singleton.1 he'
    exact Dict.contains_iff.2 ⟨v, (Dict.get?_eq_some_iff d k v).2 (hee ▸ he)⟩
  · rw [← Dict.get?_eq_some_iff _ e.1 e.2, Dict.get?_insert, List.mem_append, List.mem_singleton,
      ← Dict.get?_eq_some_iff _ e.1 e.2]
    split
    · rename_i hek
      rw [hek, Dict.get?_eq_none_iff.2 hk]
      constructor
      · intro h
        exact .inr (Prod.ext hek (Option.some.inj h).symm)
      · rintro (h | h)
        · cases h
        · rw [h]
    · rename_i hek
      exact ⟨.inl, fun h => h.resolve_right fun he => hek (congrArg (·.1) he)⟩

namespace Attribute.Store

/-- The stores that come of setting and of deleting attributes. -/
inductive Filled : Store → Prop where
  | empty : Filled {}
  | set {a b : Store} {name : String} {v : Value} (h : Filled a) (he : a.set name v = .ok b) : Filled b
  | erase {a : Store} (h : Filled a) (name : String) : Filled (a.erase name)

/-- Setting an attribute succeeds exactly if it has a name and a value that is valid. -/
lemma set_ok_iff {b : Store} {name : String} :
    a.set name v = .ok b ↔ (name ≠ "" ∧ v.isValid) ∧ b = a.insert name v := by
  unfold set
  by_cases hname : name = ""
  · simp [hname]
  · cases hv : v.isValid with
    | false => simp [hname]
    | true => simp [hname, eq_comm]

namespace Filled

variable {a b : Store}

/-- A store holds valid values under names that are not empty. -/
lemma valid (h : Filled a) (hk : a.get? k = some v) : k ≠ "" ∧ v.isValid := by
  induction h with
  | empty => cases hk
  | set _ he ih =>
    obtain ⟨hvalid, rfl⟩ := set_ok_iff.1 he
    rw [Dict.get?_insert] at hk
    split at hk
    · rename_i heq
      cases hk
      exact heq ▸ hvalid
    · exact ih hk
  | erase _ name ih =>
    rw [Dict.get?_erase] at hk
    split at hk
    · cases hk
    · exact ih hk

/-- The attributes of a filled store have names and valid values. -/
lemma valid_entries (h : Filled a) : ∀ e ∈ a.entries, e.1 ≠ "" ∧ e.2.isValid :=
  fun e he => h.valid ((Dict.get?_eq_some_iff a e.1 e.2).2 he)

/-- Adopting an attribute keeps a store filled. -/
lemma adopt (h : Filled a) {name : String} (he : Store.adopt q a name v = .ok b) : Filled b := by
  unfold Store.adopt at he
  dsimp only at he
  split at he
  · cases he
  · exact h.set he

/-- Adopting attributes keeps a store filled, even if one of them is refused. -/
lemma adoptAll (h : Filled a) : Filled (Store.adoptAll q a es).1 := by
  induction es generalizing a with
  | nil => exact h
  | cons e es ih =>
    rw [Store.adoptAll]
    cases he : Store.adopt q a e.1 e.2 with
    | ok b => exact ih (h.adopt he)
    | error cause => exact h

end Filled

end Attribute.Store

namespace Sandbox

open Attribute

lemma filled_adoptQualified {b : Store} (h : a.Filled) (he : adoptQualified a es = .ok b) : b.Filled := by
  induction es generalizing a with
  | nil =>
    cases he
    exact h
  | cons e es ih =>
    rw [adoptQualified] at he
    split at he
    · cases he
    · cases hset : Store.set a e.1 e.2 with
      | ok c =>
        rw [hset] at he
        exact ih (h.set hset) he
      | error cause =>
        rw [hset] at he
        cases he

/-- The attributes of a fused node are set one by one. -/
lemma filled_fusedAttrs {names : List String} {attrs : Store} (h : s.fusedAttrs names = .ok attrs) : attrs.Filled := by
  refine foldlM_ok_induct (P := Store.Filled) (fun a n b _ ha hb => ?_) .empty h
  unfold adoptMember at hb
  split at hb
  · exact filled_adoptQualified ha hb
  · have hall : (Store.merge a n.name n.attrs).1.Filled := ha.adoptAll
    cases hm : Store.merge a n.name n.attrs with
    | mk c cause =>
      rw [hm] at hb hall
      cases cause with
      | none =>
        cases hb
        exact hall
      | some cause => cases hb

/-- Edits leave only nodes behind the attributes of which were set one by one, if that holds of the nodes that are
given. -/
lemma AllNodes.filled_edit {t : Sandbox} {e : Edit} (h : AllNodes (fun n => n.attrs.Filled) s)
    (hn : ∀ n, e = .update n → n.attrs.Filled) (he : s.edit e = .ok t) : AllNodes (fun n => n.attrs.Filled) t := by
  cases e with
  | merge names fused type pattern =>
    obtain ⟨⟨u, n⟩, hok, rfl⟩ := map_eq_ok.1 he
    obtain ⟨-, hnode, rfl⟩ := merge_ok_iff.1 hok
    obtain ⟨attrs, hattrs, rfl⟩ := fusedNode_ok_iff.1 hnode
    exact h.contract (filled_fusedAttrs hattrs) names _
  | drop name => exact h.drop (fun _ _ hn => hn) he
  | update n => exact h.updateNode (hn n rfl) he

/-! ### Attributes that go together -/

/-- What comes of adding attributes to a store: it has these too, or the name of one of them was there already. -/
inductive Adopts (a : Store) (es : List (String × Value)) : Except Error Store → Prop where
  | fits {b : Store} (h : b.entries.Perm (a.entries ++ es)) : Adopts a es (.ok b)
  | clashes {err : Error} {q : String} (he : err = .attributeTwice q ∨ err = .badAttribute (.taken q))
      (hq : List.Duplicate q ((a.entries ++ es).map (·.1))) : Adopts a es (.error err)

namespace Adopts

variable {a : Store} {es es' : List (String × Value)}

lemma none (a : Store) : Adopts a [] (.ok a) :=
  .fits (.of_eq (List.append_nil _).symm)

/-- Attributes that are added after others. -/
lemma bind {x : Except Error Store} {f : Store → Except Error Store} (h : Adopts a es x)
    (hf : ∀ b, Adopts b es' (f b)) :
    Adopts a (es ++ es') (x >>= f) := by
  cases h with
  | @fits b hb =>
    have hperm : (b.entries ++ es').Perm (a.entries ++ (es ++ es')) := by
      rw [← List.append_assoc]
      exact hb.append_right es'
    change Adopts a (es ++ es') (f b)
    have hrest := hf b
    generalize f b = r at hrest
    cases hrest with
    | fits hc => exact .fits (hc.trans hperm)
    | clashes he hq =>
      rw [List.duplicate_iff_two_le_count, (hperm.map _).count_eq, ← List.duplicate_iff_two_le_count] at hq
      exact .clashes he hq
  | clashes he hq =>
    refine .clashes he (hq.mono_sublist (List.Sublist.map _ ?_))
    rw [← List.append_assoc]
    exact List.sublist_append_left _ _

/-- One attribute. -/
lemma one (a : Store) {err : Error} (he : err = .attributeTwice k ∨ err = .badAttribute (.taken k)) (v : Value) :
    Adopts a [(k, v)] (if a.contains k then .error err else .ok (a.insert k v)) := by
  split
  · rename_i hk
    refine .clashes he ?_
    rw [List.map_append, List.duplicate_iff_two_le_count, List.count_append, List.map_singleton,
      List.count_singleton_self]
    have hpos : 0 < a.keys.count k := List.count_pos_iff.2 (Dict.mem_keys.2 hk)
    exact Nat.add_le_add_right hpos 1
  · rename_i hk
    exact .fits (Dict.entries_insert_perm hk v)

end Adopts

/-- Attributes that are qualified already are adopted unless a name is there twice. -/
lemma adopts_adoptQualified (hes : ∀ e ∈ es, e.1 ≠ "" ∧ e.2.isValid) : Adopts a es (adoptQualified a es) := by
  induction es generalizing a with
  | nil => exact .none a
  | cons e es ih =>
    rw [List.forall_mem_cons] at hes
    have heq : adoptQualified a (e :: es) =
        (if a.contains e.1 then .error (.attributeTwice e.1) else .ok (a.insert e.1 e.2)) >>=
          fun b => adoptQualified b es := by
      rw [adoptQualified, Store.set_ok_iff.2 ⟨hes.1, rfl⟩]
      split <;> rfl
    rw [heq]
    exact (Adopts.one a (.inl rfl) e.2).bind fun b => ih hes.2

/-- A qualified name is not empty if the name is not. -/
lemma qualified_ne_empty {name : String} (h : name ≠ "") : Store.qualified q name ≠ "" := by
  unfold Store.qualified
  split
  · exact h
  · intro hempty
    have hlength := congrArg (fun t => t.toList.length) hempty
    simp [String.toList_append] at hlength

/-- The outcome of adding attributes behind a qualifier, as that of a merge. -/
def adoptionOf (r : Store × Option Attribute.Error) : Except Error Store :=
  r.2.elim (.ok r.1) fun cause => .error (.badAttribute cause)

/-- Attributes are adopted under their qualified names unless a name is there twice. -/
lemma adopts_adoptAll (q : String) (hes : ∀ e ∈ es, e.1 ≠ "" ∧ e.2.isValid) :
    Adopts a (es.map fun e => (Store.qualified q e.1, e.2)) (adoptionOf (Store.adoptAll q a es)) := by
  induction es generalizing a with
  | nil => exact .none a
  | cons e es ih =>
    rw [List.forall_mem_cons] at hes
    have heq : adoptionOf (Store.adoptAll q a (e :: es)) =
        (if a.contains (Store.qualified q e.1) then .error (.badAttribute (.taken (Store.qualified q e.1)))
          else .ok (a.insert (Store.qualified q e.1) e.2)) >>= fun b => adoptionOf (Store.adoptAll q b es) := by
      rw [Store.adoptAll, Store.adopt, Store.set_ok_iff.2 ⟨⟨qualified_ne_empty hes.1.1, hes.1.2⟩, rfl⟩]
      by_cases hc : a.contains (Store.qualified q e.1) = true
      · simp only [hc]
        rfl
      · simp only [hc]
        rfl
    rw [heq]
    exact (Adopts.one a (.inr rfl) e.2).bind fun b => ih hes.2

/-- The name that an attribute of a node has in a fused node: that of a fused one is qualified already. -/
def adoptedName (s : Sandbox) (m k : String) : String :=
  if s.merges.contains m then k else Store.qualified m k

/-- The attributes of a node as a fused node has them. -/
def adoptedAttrs (s : Sandbox) (n : Node) : List (String × Value) :=
  n.attrs.entries.map fun e => (s.adoptedName n.name e.1, e.2)

/-- The attributes of one member are adopted unless a name is there twice. -/
lemma adopts_adoptMember (s : Sandbox) (a : Store) {n : Node} (hn : n.attrs.Filled) :
    Adopts a (s.adoptedAttrs n) (s.adoptMember a n) := by
  unfold adoptMember adoptedAttrs adoptedName
  split
  · rw [List.map_id']
    exact adopts_adoptQualified hn.valid_entries
  · have hall := adopts_adoptAll n.name (a := a) hn.valid_entries
    rw [Store.merge]
    cases hm : Store.adoptAll n.name a n.attrs.entries with
    | mk b cause =>
      rw [hm] at hall
      cases cause with
      | none => exact hall
      | some cause => exact hall

/-- The attributes of members are adopted unless a name is there twice. -/
lemma adopts_foldlM (s : Sandbox) {ns : List Node} (hns : ∀ n ∈ ns, n.attrs.Filled) :
    Adopts a (ns.flatMap s.adoptedAttrs) (ns.foldlM s.adoptMember a) := by
  induction ns generalizing a with
  | nil => exact .none a
  | cons n ns ih =>
    rw [List.forall_mem_cons] at hns
    rw [List.flatMap_cons, List.foldlM_cons]
    exact (adopts_adoptMember s a hns.1).bind fun b => ih hns.2

/-! ### Attributes that clash -/

/-- The node `m` has an attribute `k`. -/
def HasAttr (s : Sandbox) (m k : String) : Prop :=
  ∃ n, s.node? m = some n ∧ n.attrs.contains k

/-- Two attributes of the given nodes have the one name `q` in a fused node. -/
def Clash (s : Sandbox) (names : List String) (q : String) : Prop :=
  ∃ m ∈ names, ∃ m' ∈ names, ∃ k k', s.HasAttr m k ∧ s.HasAttr m' k' ∧ (m, k) ≠ (m', k') ∧
    s.adoptedName m k = q ∧ s.adoptedName m' k' = q

/-- The attributes of the given nodes, each with the node it belongs to. -/
def attributes (s : Sandbox) (names : List String) : List (String × String) :=
  (s.nodesOf names).flatMap fun n => n.attrs.keys.map fun k => (n.name, k)

/-- A name that comes up twice comes from two elements. -/
lemma exists_ne_of_duplicate {α β : Type} {f : α → β} {q : β} {xs : List α} (hnd : xs.Nodup)
    (h : List.Duplicate q (xs.map f)) : ∃ x ∈ xs, ∃ y ∈ xs, x ≠ y ∧ f x = q ∧ f y = q := by
  induction xs with
  | nil => exact absurd h (List.not_duplicate_nil q)
  | cons x xs ih =>
    rw [List.nodup_cons] at hnd
    rw [List.map_cons, List.duplicate_cons_iff] at h
    rcases h with ⟨hx, hmem⟩ | h
    · obtain ⟨y, hy, hq⟩ := List.mem_map.1 hmem
      exact ⟨x, List.mem_cons_self, y, List.mem_cons_of_mem _ hy, fun hxy => hnd.1 (hxy ▸ hy), hx, hq⟩
    · obtain ⟨y, hy, z, hz, hyz⟩ := ih hnd.2 h
      exact ⟨y, List.mem_cons_of_mem _ hy, z, List.mem_cons_of_mem _ hz, hyz⟩

namespace Roster

variable {g : Graph} {o s : Sandbox} {names : List String}

/-- A node that is found under a name has that name. -/
lemma name_of_node? (hs : Roster g o s) {m : String} {n : Node} (h : s.node? m = some n) : n.name = m := by
  obtain ⟨v, hv, rfl⟩ := Option.map_eq_some_iff.1 h
  exact (hs.named v (Digraph.mem_of_vertex? hv)).trans (Digraph.key_of_vertex? hv)

/-- The attributes of members are those that the members have. -/
lemma mem_attributes (hs : Roster g o s) {m : String} : (m, k) ∈ s.attributes names ↔ m ∈ names ∧ s.HasAttr m k := by
  simp only [attributes, nodesOf, List.mem_flatMap, List.mem_filterMap, List.mem_map, Prod.mk.injEq]
  constructor
  · rintro ⟨n, ⟨m', hm', hn⟩, k', hk', rfl, rfl⟩
    obtain rfl := hs.name_of_node? hn
    exact ⟨hm', n, hn, Dict.mem_keys.1 hk'⟩
  · rintro ⟨hm, n, hn, hk⟩
    exact ⟨n, ⟨m, hm, hn⟩, k, Dict.mem_keys.2 hk, hs.name_of_node? hn, rfl⟩

/-- The attributes of distinct members are listed once each. -/
lemma nodup_attributes (hs : Roster g o s) (hnd : names.Nodup) : (s.attributes names).Nodup := by
  refine List.nodup_flatMap.2 ⟨fun n _ => (Dict.keys_nodup _).map fun k k' h => (Prod.mk.inj h).2, ?_⟩
  refine List.pairwise_filterMap.2 (hnd.imp fun {m m'} hne n hn n' hn' p hp hp' => hne ?_)
  obtain ⟨k, -, rfl⟩ := List.mem_map.1 hp
  obtain ⟨k', -, heq⟩ := List.mem_map.1 hp'
  rw [← hs.name_of_node? hn, ← hs.name_of_node? hn']
  exact (Prod.mk.inj heq).1.symm

/-- What is adopted from members are their attributes with their values, under the names they are adopted by. -/
lemma mem_adoptedAttrs (hs : Roster g o s) : (k, v) ∈ (s.nodesOf names).flatMap s.adoptedAttrs ↔
      ∃ m ∈ names, ∃ n j, s.node? m = some n ∧ n.attrs.get? j = some v ∧ s.adoptedName m j = k := by
  simp only [nodesOf, adoptedAttrs, List.mem_flatMap, List.mem_filterMap, List.mem_map, Prod.mk.injEq]
  constructor
  · rintro ⟨n, ⟨m, hm, hn⟩, e, he, rfl, rfl⟩
    obtain rfl := hs.name_of_node? hn
    exact ⟨n.name, hm, n, e.1, hn, (Dict.get?_eq_some_iff _ _ _).2 he, rfl⟩
  · rintro ⟨m, hm, n, j, hn, hj, rfl⟩
    obtain rfl := hs.name_of_node? hn
    exact ⟨n, ⟨n.name, hm, hn⟩, (j, v), (Dict.get?_eq_some_iff _ _ _).1 hj, rfl, rfl⟩

/-- The attributes of nodes go together exactly if no two of them clash. -/
lemma fusedAttrs_cases (hs : Roster g o s) (hattrs : AllNodes (fun n => n.attrs.Filled) s) (hnd : names.Nodup) :
    (∃ attrs, s.fusedAttrs names = .ok attrs ∧ attrs.entries.Perm ((s.nodesOf names).flatMap s.adoptedAttrs) ∧
        ∀ q, ¬ s.Clash names q) ∨
      ∃ err q, s.fusedAttrs names = .error err ∧ s.Clash names q ∧
        (err = .attributeTwice q ∨ err = .badAttribute (.taken q)) := by
  have hns : ∀ n ∈ s.nodesOf names, n.attrs.Filled := by
    intro n hn
    obtain ⟨m, -, hm⟩ := List.mem_filterMap.1 hn
    exact hattrs.of_node? hm
  have hadopts : Adopts {} ((s.nodesOf names).flatMap s.adoptedAttrs) (s.fusedAttrs names) := adopts_foldlM s hns
  have hnames : ((s.nodesOf names).flatMap s.adoptedAttrs).map (·.1) =
      (s.attributes names).map fun p => s.adoptedName p.1 p.2 := by
    simp only [attributes, adoptedAttrs, Dict.keys, List.map_flatMap, List.map_map]
    rfl
  generalize s.fusedAttrs names = r at hadopts
  cases hadopts with
  | @fits attrs hperm =>
    refine .inl ⟨attrs, rfl, hperm, ?_⟩
    rintro q ⟨m, hm, m', hm', k, k', hk, hk', hne, hq, hq'⟩
    have hnodup : ((s.attributes names).map fun p => s.adoptedName p.1 p.2).Nodup :=
      hnames ▸ (hperm.map _).nodup_iff.1 (Dict.keys_nodup attrs)
    exact hne (List.inj_on_of_nodup_map hnodup (hs.mem_attributes.2 ⟨hm, hk⟩) (hs.mem_attributes.2 ⟨hm', hk'⟩)
      (hq.trans hq'.symm))
  | @clashes err q he hq =>
    have hq : List.Duplicate q ((s.attributes names).map fun p => s.adoptedName p.1 p.2) := hnames ▸ hq
    obtain ⟨p, hp, p', hp', hne, hpq, hpq'⟩ := exists_ne_of_duplicate (hs.nodup_attributes hnd) hq
    obtain ⟨hm, hk⟩ := hs.mem_attributes.1 hp
    obtain ⟨hm', hk'⟩ := hs.mem_attributes.1 hp'
    exact .inr ⟨err, q, rfl, ⟨p.1, hm, p'.1, hm', p.2, p'.2, hk, hk', hne, hpq, hpq'⟩, he⟩

end Roster

/-! ### What a merge makes of attributes -/

/-- No two attributes of the given nodes have one name in a fused node. -/
def Distinct (s : Sandbox) (names : List String) : Prop :=
  Set.InjOn (fun p : String × String => s.adoptedName p.1 p.2) {p | p.1 ∈ names ∧ s.HasAttr p.1 p.2}

/-- Attributes are not distinct exactly if two of them clash. -/
lemma not_distinct_iff {names : List String} : ¬ s.Distinct names ↔ ∃ q, s.Clash names q := by
  constructor
  · intro h
    simp only [Distinct, Set.InjOn, not_forall] at h
    obtain ⟨p, ⟨hm, hk⟩, p', ⟨hm', hk'⟩, heq, hne⟩ := h
    exact ⟨_, p.1, hm, p'.1, hm', p.2, p'.2, hk, hk', hne, heq, rfl⟩
  · rintro ⟨q, m, hm, m', hm', k, k', hk, hk', hne, hq, hq'⟩ h
    have heq : (m, k) = (m', k') := h ⟨hm, hk⟩ ⟨hm', hk'⟩ (hq.trans hq'.symm)
    exact hne heq

/-- A merge that is told that the name of an attribute is there already. -/
def Error.Taken (err : Error) : Prop :=
  (∃ q, err = .attributeTwice q ∨ err = .badAttribute (.taken q)) ∧
    ∃ f, err.toFault = .failure f ∧ f.kind = .alreadyExists

lemma Error.Taken.of_eq {err : Error} (h : err = .attributeTwice q ∨ err = .badAttribute (.taken q)) : err.Taken := by
  refine ⟨⟨q, h⟩, ?_⟩
  rcases h with rfl | rfl
  · exact ⟨_, rfl, rfl⟩
  · exact ⟨_, rfl, rfl⟩

/-- What a merge makes of the attributes of its members. -/
structure Unites (s : Sandbox) (names : List String) (fused type pattern : String) : Prop where
  /-- It fails on an attribute exactly if two of them would have one name. -/
  refused : (∃ err, s.merge names fused type pattern = .error err ∧ err.Taken) ↔ ¬ s.Distinct names
  /-- Otherwise it succeeds, and the fused node has each of them once with its value, and no others. -/
  united : s.Distinct names → ∃ t n, s.merge names fused type pattern = .ok (t, n) ∧ t.node? fused = some n ∧
    (∀ k v, n.attrs.get? k = some v ↔
      ∃ m ∈ names, ∃ member j, s.node? m = some member ∧ member.attrs.get? j = some v ∧ s.adoptedName m j = k) ∧
    n.attrs.size = ((s.nodesOf names).map (·.attrs.size)).sum

/-- A merge of members that can be contracted unites their attributes. -/
lemma Roster.unites {g : Graph} {o : Sandbox} {names : List String} {fused : String} (hs : Roster g o s)
    (hattrs : AllNodes (fun n => n.attrs.Filled) s) (hm : s.Contractible names fused) (type pattern : String) :
    s.Unites names fused type pattern := by
  have hmerge := hm.merge_eq type pattern
  rcases hs.fusedAttrs_cases hattrs hm.nodup with ⟨attrs, hok, hperm, hno⟩ | ⟨err, q, herr, hclash, he⟩
  · have hdistinct : s.Distinct names := by
      by_contra hd
      obtain ⟨q, hq⟩ := not_distinct_iff.1 hd
      exact hno q hq
    rw [fusedNode_ok_iff.2 ⟨attrs, hok, rfl⟩] at hmerge
    refine ⟨⟨?_, fun hd => absurd hdistinct hd⟩, fun _ => ⟨_, _, hmerge, ?_, fun k v => ?_, ?_⟩⟩
    · rintro ⟨err, herr, -⟩
      rw [hmerge] at herr
      cases herr
    · rw [node?, Digraph.val?, hs.vertex?_contract hm, if_pos rfl]
      rfl
    · rw [Dict.get?_eq_some_iff, hperm.mem_iff, hs.mem_adoptedAttrs]
    · rw [Dict.size, hperm.length_eq, List.length_flatMap]
      simp only [adoptedAttrs, List.length_map]
      rfl
  · have hfail : s.merge names fused type pattern = .error err := by
      rw [hmerge, fusedNode, herr]
      rfl
    have hdistinct : ¬ s.Distinct names := not_distinct_iff.2 ⟨q, hclash⟩
    exact ⟨⟨fun _ => hdistinct, fun _ => ⟨err, hfail, .of_eq he⟩⟩, fun hd => absurd hd hdistinct⟩

/-- Edits of a copy of a graph keep account of its nodes, whose attributes were still set one by one. -/
lemma roster_filled_performAll {g : Graph} (hg : g.Built) (hattrs : ∀ n ∈ g.nodes, n.attrs.Filled)
    {region : Option (List String)} (hs : snapshot g region = .ok s) {es : List Edit}
    (hes : ∀ n, Edit.update n ∈ es → n.attrs.Filled) :
    Roster g (copy g region) (s.performAll es) ∧ AllNodes (fun n => n.attrs.Filled) (s.performAll es) := by
  have hg := hg.consistent
  obtain rfl := snapshot_ok hs
  constructor
  · exact performAll_induct (fun _ _ _ _ hs he => hs.edit he)
      (.copy_of_acyclic hg.toWellFormed hg.payload hg.acyclic region)
  · exact performAll_induct (fun _ e _ hmem hs he => hs.filled_edit (fun n hn => hes n (hn ▸ hmem)) he)
      (.copy hattrs region)

/-- Whatever edits were made in a copy of a graph or of a part of it, a merge that is allowed but for the attributes of
its members fails exactly if two of these would have one name, and a fused node has all of them with their values and no
others. All attributes were set one by one. -/
theorem merge_unites {g : Graph} (hg : g.Built) (hattrs : ∀ n ∈ g.nodes, n.attrs.Filled) {region : Option (List String)}
    {s : Sandbox} (hs : snapshot g region = .ok s) {es : List Edit} (hes : ∀ n, Edit.update n ∈ es → n.attrs.Filled)
    {names : List String} {fused : String} (hm : (s.performAll es).Contractible names fused) (type pattern : String) :
    (s.performAll es).Unites names fused type pattern := by
  obtain ⟨hroster, hfilled⟩ := roster_filled_performAll hg hattrs hs hes
  exact hroster.unites hfilled hm type pattern

/-- A row of three operators, each of which has an attribute `k`. -/
def alike : Graph where
  name := "alike"
  dag := .ofArcs
    [
      ⟨"a", { name := "a", type := "conv", attrs := Dict.insert {} "k" (.int 1), outputs := ["x"] }, 0⟩,
      ⟨"b", { name := "b", type := "relu", attrs := Dict.insert {} "k" (.int 2), inputs := ["x"], outputs := ["y"] },
        1⟩,
      ⟨"c", { name := "c", type := "relu", attrs := Dict.insert {} "k" (.int 3), inputs := ["y"] }, 2⟩]
    [
      ⟨"a", "b", { src := "a", dst := "b", var := "x" }⟩,
      ⟨"b", "c", { src := "b", dst := "c", var := "y" }⟩]
    3

lemma built_alike : alike.Built := by
  have h := Graph.Built.new "alike"
  have h := h.insertNode
    (n := { name := "a", type := "conv", attrs := Dict.insert {} "k" (.int 1), outputs := ["x"] }) rfl
  have h := h.insertNode
    (n := { name := "b", type := "relu", attrs := Dict.insert {} "k" (.int 2), inputs := ["x"], outputs := ["y"] }) rfl
  have h := h.insertNode
    (n := { name := "c", type := "relu", attrs := Dict.insert {} "k" (.int 3), inputs := ["y"] }) rfl
  have h := h.connect (e := { src := "a", dst := "b", var := "x" }) rfl
  exact h.connect (e := { src := "b", dst := "c", var := "y" }) rfl

lemma filled_alike : ∀ n ∈ alike.nodes, n.attrs.Filled := by
  have hone : ∀ v, Store.set {} "k" v = .ok (Dict.insert {} "k" v) → Store.Filled (Dict.insert {} "k" v) :=
    fun _ he => .set .empty he
  intro n hn
  simp only [Graph.nodes, alike, Digraph.vertices_ofArcs, List.map_cons, List.map_nil, List.mem_cons, List.not_mem_nil,
    or_false] at hn
  rcases hn with rfl | rfl | rfl
  · exact hone (.int 1) rfl
  · exact hone (.int 2) rfl
  · exact hone (.int 3) rfl

/-- The first two operators are merged, and then what comes of it with the third: each attribute keeps its value. -/
theorem merge_unites_alike :
    ((copy alike none).performAll [.merge ["a", "b"] "f" "f" "f"]).Contractible ["f", "c"] "h" ∧
    ((copy alike none).performAll [.merge ["a", "b"] "f" "f" "f"]).Unites ["f", "c"] "h" "h" "h" ∧
    ∃ t n, ((copy alike none).performAll [.merge ["a", "b"] "f" "f" "f"]).merge ["f", "c"] "h" "h" "h" = .ok (t, n) ∧
      n.attrs.entries = [("a.k", .int 1), ("b.k", .int 2), ("c.k", .int 3)] := by
  have hs : snapshot alike none = .ok (copy alike none) := rfl
  have hm : ((copy alike none).performAll [.merge ["a", "b"] "f" "f" "f"]).Contractible ["f", "c"] "h" :=
    ⟨by decide, by decide, by decide, by decide, by decide, by decide, by decide, by decide⟩
  exact ⟨hm, merge_unites built_alike filled_alike hs (by simp) hm "h" "h", _, _, rfl, rfl⟩

/-- An operator that a patch added without a name, and one that has a name. -/
def nameless : Graph where
  name := "nameless"
  dag := .ofArcs
    [
      ⟨"b", { name := "b", type := "relu", attrs := Dict.insert {} "k" (.int 2), inputs := ["x"] }, 0⟩,
      ⟨"", { name := "", type := "conv", attrs := Dict.insert {} "b.k" (.int 1), outputs := ["x"] }, 1⟩]
    [⟨"", "b", { src := "", dst := "b", var := "x" }⟩]
    2
  version := 1

lemma built_nameless : nameless.Built := by
  have h := Graph.Built.new "nameless"
  have h := h.insertNode
    (n := { name := "b", type := "relu", attrs := Dict.insert {} "k" (.int 2), inputs := ["x"] }) rfl
  exact h.apply (p := {
    addNodes := [⟨{ name := "", type := "conv", attrs := Dict.insert {} "b.k" (.int 1), outputs := ["x"] }, 1⟩]
    addEdges := [{ src := "", dst := "b", var := "x" }] }) rfl

/-- What has no name puts nothing in front of its attributes. Two attributes that a dot behind the name of their
operator would tell apart are refused. -/
theorem merge_unites_nameless :
    nameless.Built ∧ (copy nameless none).Contractible ["", "b"] "f" ∧
    Set.InjOn (fun p : String × String => if (copy nameless none).merges.contains p.1 then p.2 else p.1 ++ "." ++ p.2)
      {p | p.1 ∈ ["", "b"] ∧ (copy nameless none).HasAttr p.1 p.2} ∧
    ∃ err, (copy nameless none).merge ["", "b"] "f" "f" "f" = .error err ∧ err.Taken := by
  have hm : (copy nameless none).Contractible ["", "b"] "f" :=
    ⟨by decide, by decide, by decide, by decide, by decide, by decide, by decide, by decide⟩
  refine ⟨built_nameless, hm, ?_, _, rfl, .of_eq (.inr rfl)⟩
  have hattrs : ∀ p : String × String, p.1 ∈ ["", "b"] ∧ (copy nameless none).HasAttr p.1 p.2 →
      p = ("", "b.k") ∨ p = ("b", "k") := by
    rintro ⟨m, k⟩ ⟨hm, n, hn, hk⟩
    simp only [List.mem_cons, List.not_mem_nil, or_false] at hm
    rcases hm with rfl | rfl
    · cases hn
      exact .inl (Prod.ext rfl ((Dict.contains_insert.1 hk).resolve_right (by simp)))
    · cases hn
      exact .inr (Prod.ext rfl ((Dict.contains_insert.1 hk).resolve_right (by simp)))
  intro p hp p' hp' heq
  rcases hattrs p hp with rfl | rfl <;> rcases hattrs p' hp' with rfl | rfl
  · rfl
  · exact absurd heq (by decide)
  · exact absurd heq (by decide)
  · rfl

end Sandbox

end OpGraph
