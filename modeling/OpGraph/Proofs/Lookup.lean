import Mathlib
import OpGraph.Data.Dict

/-!
# Look-ups

What can be looked up in dictionaries and name sets after they were changed.
-/

namespace OpGraph

namespace Dict

variable {α β : Type}

/-- A name is contained exactly when it has a value. -/
lemma contains_iff {d : Dict α} {k : String} : d.contains k ↔ ∃ v, d.get? k = some v := by
  simp [contains, Option.isSome_iff_exists]

/-- Nothing is found under a name that is not contained. -/
lemma get?_eq_none_iff {d : Dict α} {k : String} : d.get? k = none ↔ ¬ d.contains k := by
  simp [contains]

lemma getD_of_some {d : Dict α} {k : String} {v w : α} (h : d.get? k = some v) : d.getD k w = v := by
  rw [getD, h, Option.getD_some]

lemma getD_of_none {d : Dict α} {k : String} {w : α} (h : d.get? k = none) : d.getD k w = w := by
  rw [getD, h, Option.getD_none]

@[simp] lemma contains_empty (k : String) : (empty : Dict α).contains k = false := rfl

@[simp] lemma contains_emptyc (k : String) : ({} : Dict α).contains k = false := rfl

@[simp] lemma get?_emptyc (k : String) : ({} : Dict α).get? k = none := rfl

/-- After a value was inserted its name is there, and so are all others. -/
@[simp] lemma contains_insert {d : Dict α} {k j : String} {v : α} :
    (d.insert k v).contains j ↔ j = k ∨ d.contains j := by
  by_cases h : j = k <;> simp [contains, h]

/-- After a name was erased all others are there. -/
@[simp] lemma contains_erase {d : Dict α} {k j : String} :
    (d.erase k).contains j ↔ j ≠ k ∧ d.contains j := by
  by_cases h : j = k <;> simp [contains, h]

/-- The names of a dictionary are those it contains. -/
lemma mem_keys {d : Dict α} {k : String} : k ∈ d.keys ↔ d.contains k := by
  rw [contains_iff]
  simp [keys, get?_eq_some_iff]

/-- The names of a dictionary are distinct. -/
lemma keys_nodup (d : Dict α) : d.keys.Nodup := by
  rw [keys, List.Nodup, List.pairwise_map]
  refine d.ascending.imp ?_
  intro p q hlt he
  exact String.lt_irrefl _ (he ▸ hlt)

/-- Values can be mapped before or after looking for one. -/
lemma find_map (f : String → α → β) (k : String) :
    ∀ es : List (String × α), find k (es.map fun e => (e.1, f e.1 e.2)) = (find k es).map (f k)
  | [] => rfl
  | (a, v) :: es => by
    by_cases h : k = a
    · subst h
      simp [find]
    · simp [find, h, find_map f k es]

/-- Values can be mapped before or after looking one up. -/
@[simp] lemma get?_map (d : Dict α) (f : String → α → β) (k : String) :
    (d.map f).get? k = (d.get? k).map (f k) :=
  find_map f k d.entries

/-- What is found after the value of a name was modified. -/
@[simp] lemma get?_modify (d : Dict α) (k j : String) (f : α → α) :
    (d.modify k f).get? j = if j = k then (d.get? j).map f else d.get? j := by
  rw [modify, get?_map]
  by_cases h : j = k <;> simp [h]

/-- A dictionary without entries contains nothing. -/
lemma isEmpty_iff {d : Dict α} : d.isEmpty ↔ ∀ k, ¬ d.contains k := by
  constructor
  · intro h k
    have he : d.entries = [] := by simpa [isEmpty] using h
    simp [contains, get?, he, find]
  · intro h
    rw [isEmpty, List.isEmpty_iff, List.eq_nil_iff_forall_not_mem]
    intro e he
    exact h e.1 (contains_iff.2 ⟨e.2, (get?_eq_some_iff d e.1 e.2).2 he⟩)

/-- After several insertions the last one under a name counts. -/
lemma get?_foldl_insert (f : β → String) (h : β → α) (k : String) :
    ∀ (xs : List β) (d : Dict α),
      (xs.foldl (fun d x => d.insert (f x) (h x)) d).get? k =
        ((xs.reverse.find? fun x => f x == k).map h).or (d.get? k)
  | [], d => by simp
  | x :: xs, d => by
    rw [List.foldl_cons, get?_foldl_insert f h k xs, List.reverse_cons, List.find?_append]
    cases hx : xs.reverse.find? fun x => f x == k with
    | some y => simp
    | none =>
      by_cases he : k = f x
      · subst he
        simp
      · simp [he, Ne.symm he]

/-- A dictionary made from a list that lists the value of each name under that name. -/
lemma get?_ofList_map (f : β → String) (h : String → α) (xs : List β) (k : String) :
    (ofList (xs.map fun x => (f x, h (f x)))).get? k = if k ∈ xs.map f then some (h k) else none := by
  rw [ofList, get?_foldl_insert (fun e : String × α => e.1) fun e => e.2, get?_empty, Option.or_none]
  cases hfind : (xs.map fun x => (f x, h (f x))).reverse.find? fun e => e.1 == k with
  | none =>
    have hk : k ∉ xs.map f := by
      intro hk
      obtain ⟨x, hx, rfl⟩ := List.mem_map.1 hk
      have hmem : (f x, h (f x)) ∈ (xs.map fun x => (f x, h (f x))).reverse :=
        List.mem_reverse.2 (List.mem_map_of_mem hx)
      simpa using List.find?_eq_none.1 hfind _ hmem
    rw [if_neg hk, Option.map_none]
  | some e =>
    obtain ⟨x, hx, rfl⟩ := List.mem_map.1 (List.mem_reverse.1 (List.mem_of_find?_eq_some hfind))
    have hxk : f x = k := by simpa using List.find?_some hfind
    subst hxk
    rw [if_pos (List.mem_map_of_mem hx), Option.map_some]

end Dict

namespace NameSet

/-- After a name was added it is there, and so are all others. -/
@[simp] lemma contains_add {s : NameSet} {k j : String} : (s.add k).contains j ↔ j = k ∨ Dict.contains s j :=
  Dict.contains_insert

/-- Names that are added one by one are in the set, besides those that were there. -/
lemma contains_foldl_add {α : Type} (f : α → String) {k : String} :
    ∀ {xs : List α} {s : NameSet},
      Dict.contains (xs.foldl (fun s x => NameSet.add s (f x)) s) k ↔ (∃ x ∈ xs, f x = k) ∨ Dict.contains s k
  | [], s => by simp
  | x :: xs, s => by
    rw [List.foldl_cons, contains_foldl_add f, contains_add]
    simp only [List.mem_cons, exists_eq_or_imp]
    constructor
    · rintro (h | h | h)
      · exact .inl (.inr h)
      · exact .inl (.inl h.symm)
      · exact .inr h
    · rintro ((h | h) | h)
      · exact .inr (.inl h.symm)
      · exact .inl h
      · exact .inr (.inr h)

/-- The set of a list contains the names of the list. -/
@[simp] lemma contains_ofList {ks : List String} {k : String} : (ofList ks).contains k ↔ k ∈ ks := by
  have h := @contains_foldl_add _ (fun x : String => x) k ks Dict.empty
  simpa [ofList] using h

/-- Two sets with the same names are equal. -/
lemma ext {s t : NameSet} (h : ∀ k, Dict.contains s k ↔ Dict.contains t k) : s = t := by
  apply Dict.ext_get?
  intro k
  have hk := h k
  rw [Dict.contains_iff, Dict.contains_iff] at hk
  cases hs : Dict.get? s k with
  | some v =>
    obtain ⟨w, hw⟩ := hk.1 ⟨v, hs⟩
    rw [hw]
  | none =>
    cases ht : Dict.get? t k with
    | none => rfl
    | some w =>
      obtain ⟨v, hv⟩ := hk.2 ⟨w, ht⟩
      rw [hs] at hv
      cases hv

end NameSet

end OpGraph
