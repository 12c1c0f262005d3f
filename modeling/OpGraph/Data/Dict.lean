/-!
# Dictionaries keyed by names

A `Dict α` maps names to values and keeps its entries in ascending order of their names. The order is part of
the type, so a dictionary is determined by its look-ups (`Dict.ext_get?`) and listing it needs no sorting.
-/

namespace OpGraph

/-- A finite map from names to values, listed in ascending order of the names. -/
structure Dict (α : Type) where
  entries : List (String × α)
  ascending : entries.Pairwise fun a b => a.1 < b.1

namespace Dict

variable {α β : Type}

/-- The dictionary without entries. -/
def empty : Dict α := ⟨[], .nil⟩

instance : EmptyCollection (Dict α) := ⟨empty⟩
instance : Inhabited (Dict α) := ⟨empty⟩

instance [Repr α] : Repr (Dict α) := ⟨fun d p => reprPrec d.entries p⟩

instance [DecidableEq α] : DecidableEq (Dict α) := fun a b =>
  if h : a.entries = b.entries then
    isTrue (by cases a; cases b; simp_all)
  else
    isFalse fun e => h (by rw [e])

/-- The value of the first entry of a name. -/
def find (k : String) : List (String × α) → Option α
  | [] => none
  | (a, v) :: es => if k = a then some v else find k es

/-- The value under a name. -/
def get? (d : Dict α) (k : String) : Option α :=
  find k d.entries

/-- The value under a name, or a default. -/
def getD (d : Dict α) (k : String) (default : α) : α :=
  (d.get? k).getD default

/-- Whether a name has a value. -/
def contains (d : Dict α) (k : String) : Bool :=
  (d.get? k).isSome

/-- The names, ascending. -/
def keys (d : Dict α) : List String :=
  d.entries.map (·.1)

/-- The values, in the order of their names. -/
def values (d : Dict α) : List α :=
  d.entries.map (·.2)

/-- The number of entries. -/
def size (d : Dict α) : Nat :=
  d.entries.length

/-- Whether there is no entry. -/
def isEmpty (d : Dict α) : Bool :=
  d.entries.isEmpty

/-- Puts an entry in its place among ascending entries, replacing one of the same name. -/
def place (k : String) (v : α) : List (String × α) → List (String × α)
  | [] => [(k, v)]
  | e :: es =>
    if k < e.1 then (k, v) :: e :: es
    else if k = e.1 then (k, v) :: es
    else e :: place k v es

/-- What is in a list after an entry was put in its place is that entry or was there before. -/
theorem mem_place {k : String} {v : α} {e : String × α} :
    ∀ {es : List (String × α)}, e ∈ place k v es → e = (k, v) ∨ e ∈ es
  | [], h => by simpa [place] using h
  | a :: es, h => by
    unfold place at h
    split at h
    · simpa using h
    · split at h
      · rcases List.mem_cons.1 h with h | h
        · exact .inl h
        · exact .inr (List.mem_cons_of_mem _ h)
      · rcases List.mem_cons.1 h with h | h
        · exact .inr (h ▸ List.mem_cons_self)
        · rcases mem_place h with h | h
          · exact .inl h
          · exact .inr (List.mem_cons_of_mem _ h)

/-- Of two texts neither of which comes before the other, both are the same. -/
theorem eq_of_not_lt {a b : String} (h₁ : ¬ a < b) (h₂ : ¬ b < a) : a = b :=
  String.le_antisymm (String.not_lt.1 h₂) (String.not_lt.1 h₁)

/-- Putting an entry in its place keeps the names in ascending order. -/
theorem place_ascending (k : String) (v : α) :
    ∀ {es : List (String × α)}, es.Pairwise (fun a b => a.1 < b.1) →
      (place k v es).Pairwise fun a b => a.1 < b.1
  | [], _ => by simp [place]
  | e :: es, h => by
    have ⟨hhead, htail⟩ := List.pairwise_cons.1 h
    unfold place
    split
    · rename_i hlt
      refine List.pairwise_cons.2 ⟨fun b hb => ?_, h⟩
      rcases List.mem_cons.1 hb with rfl | hb
      · exact hlt
      · exact String.lt_trans hlt (hhead b hb)
    · split
      · rename_i heq
        refine List.pairwise_cons.2 ⟨fun b hb => ?_, htail⟩
        simpa [heq] using hhead b hb
      · rename_i hnlt hne
        refine List.pairwise_cons.2 ⟨fun b hb => ?_, place_ascending k v htail⟩
        rcases mem_place hb with rfl | hb
        · exact Decidable.byContradiction fun hn => hne (eq_of_not_lt hnlt hn)
        · exact hhead b hb

/-- Puts a value under a name. -/
def insert (d : Dict α) (k : String) (v : α) : Dict α :=
  ⟨place k v d.entries, place_ascending k v d.ascending⟩

/-- Keeps the entries that satisfy a condition. -/
def filter (d : Dict α) (p : String → α → Bool) : Dict α :=
  ⟨d.entries.filter fun e => p e.1 e.2, d.ascending.sublist List.filter_sublist⟩

/-- Drops the entry under a name. -/
def erase (d : Dict α) (k : String) : Dict α :=
  d.filter fun k' _ => k' != k

/-- Applies a function to every value. -/
def map (d : Dict α) (f : String → α → β) : Dict β :=
  ⟨d.entries.map fun e => (e.1, f e.1 e.2), by
    rw [List.pairwise_map]
    exact d.ascending⟩

/-- Applies a function to the value under a name, if there is one. -/
def modify (d : Dict α) (k : String) (f : α → α) : Dict α :=
  d.map fun j v => if j = k then f v else v

/-- The dictionary of a list of entries; of two with one name the later counts. -/
def ofList (es : List (String × α)) : Dict α :=
  es.foldl (fun d e => d.insert e.1 e.2) empty

/-! ### Look-ups -/

/-- Nothing is found in an empty dictionary. -/
@[simp] theorem get?_empty (k : String) : (empty : Dict α).get? k = none := rfl

/-- Under a name that no entry has nothing is found. -/
theorem find_eq_none {k : String} :
    ∀ {es : List (String × α)}, (∀ e ∈ es, e.1 ≠ k) → find k es = none
  | [], _ => rfl
  | (a, _) :: es, h => by
    have hne : k ≠ a := (h _ List.mem_cons_self).symm
    rw [find, if_neg hne]
    exact find_eq_none fun a ha => h a (List.mem_cons_of_mem _ ha)

/-- After an entry was put in its place it is found under its name, and under other names what was found before. -/
theorem find_place (k j : String) (v : α) :
    ∀ es : List (String × α), find j (place k v es) = if j = k then some v else find j es
  | [] => rfl
  | (a, w) :: es => by
    have ih := find_place k j v es
    unfold place
    split
    · rfl
    · split
      · rename_i heq
        have heq : k = a := heq
        by_cases hj : j = a <;> simp [find, hj, heq]
      · rename_i hne
        have hne : ¬ k = a := hne
        by_cases hj : j = a
        · simp [find, hj, Ne.symm hne]
        · simp [find, hj, ih]

/-- After an insertion the new value is found under its name and every other name is as before. -/
@[simp] theorem get?_insert (d : Dict α) (k j : String) (v : α) :
    (d.insert k v).get? j = if j = k then some v else d.get? j :=
  find_place k j v d.entries

/-- Among the entries that satisfy a condition one is found exactly if it was found before and satisfies it. -/
theorem find_filter (p : String → α → Bool) (k : String) :
    ∀ {es : List (String × α)}, es.Pairwise (fun a b => a.1 < b.1) →
      find k (es.filter fun e => p e.1 e.2) = (find k es).filter (p k)
  | [], _ => rfl
  | (a, w) :: es, h => by
    have ⟨hhead, htail⟩ := List.pairwise_cons.1 h
    have ih := find_filter p k htail
    by_cases hk : k = a
    · subst hk
      have hnone : find k es = none :=
        find_eq_none fun e he hke => String.lt_irrefl _ (hke ▸ hhead e he)
      by_cases hp : p k w <;> simp [hp, find, ih, hnone, Option.filter]
    · by_cases hp : p a w <;> simp [hp, find, hk, ih]

/-- In a part of a dictionary an entry is found exactly if it was found before and belongs to the part. -/
@[simp] theorem get?_filter (d : Dict α) (p : String → α → Bool) (k : String) :
    (d.filter p).get? k = (d.get? k).filter (p k) :=
  find_filter p k d.ascending

/-- After an erasure its name has no value and every other name is as before. -/
@[simp] theorem get?_erase (d : Dict α) (k j : String) :
    (d.erase k).get? j = if j = k then none else d.get? j := by
  rw [erase, get?_filter]
  cases hd : d.get? j <;> by_cases h : j = k <;> simp [h, Option.filter]

/-- What is found under a name is an entry. -/
theorem mem_of_find {k : String} {v : α} :
    ∀ {es : List (String × α)}, find k es = some v → (k, v) ∈ es
  | [], h => by simp [find] at h
  | (a, w) :: es, h => by
    by_cases hk : k = a
    · subst hk
      have : w = v := by simpa [find] using h
      exact this ▸ List.mem_cons_self
    · rw [find, if_neg hk] at h
      exact List.mem_cons_of_mem _ (mem_of_find h)

/-- An entry of a list in ascending order is found under its name. -/
theorem find_of_mem {k : String} {v : α} :
    ∀ {es : List (String × α)}, es.Pairwise (fun a b => a.1 < b.1) → (k, v) ∈ es → find k es = some v
  | [], _, h => by simp at h
  | (a, w) :: es, h, hm => by
    have ⟨hhead, htail⟩ := List.pairwise_cons.1 h
    rcases List.mem_cons.1 hm with heq | hm
    · cases heq
      simp [find]
    · have hlt : a < k := hhead _ hm
      have hne : k ≠ a := fun he => String.lt_irrefl _ (he ▸ hlt)
      rw [find, if_neg hne]
      exact find_of_mem htail hm

/-- A name has a value exactly when the pair is an entry. -/
theorem get?_eq_some_iff (d : Dict α) (k : String) (v : α) :
    d.get? k = some v ↔ (k, v) ∈ d.entries :=
  ⟨mem_of_find, find_of_mem d.ascending⟩

/-- Two lists in ascending order that have the same entries are the same. -/
theorem entries_ext :
    ∀ {as bs : List (String × α)}, as.Pairwise (fun a b => a.1 < b.1) →
      bs.Pairwise (fun a b => a.1 < b.1) → (∀ e, e ∈ as ↔ e ∈ bs) → as = bs
  | [], [], _, _, _ => rfl
  | [], b :: _, _, _, h => by simpa using (h b).2 List.mem_cons_self
  | a :: _, [], _, _, h => by simpa using (h a).1 List.mem_cons_self
  | a :: as, b :: bs, ha, hb, h => by
    have ⟨ha₁, ha₂⟩ := List.pairwise_cons.1 ha
    have ⟨hb₁, hb₂⟩ := List.pairwise_cons.1 hb
    have hab : a = b := by
      rcases List.mem_cons.1 ((h a).1 List.mem_cons_self) with e | hmem
      · exact e
      · rcases List.mem_cons.1 ((h b).2 List.mem_cons_self) with e | hmem'
        · exact e.symm
        · exact absurd (String.lt_trans (hb₁ a hmem) (ha₁ b hmem')) (String.lt_irrefl _)
    subst hab
    congr 1
    refine entries_ext ha₂ hb₂ fun e => ⟨fun he => ?_, fun he => ?_⟩
    · rcases List.mem_cons.1 ((h e).1 (List.mem_cons_of_mem _ he)) with rfl | he'
      · exact absurd (ha₁ _ he) (String.lt_irrefl _)
      · exact he'
    · rcases List.mem_cons.1 ((h e).2 (List.mem_cons_of_mem _ he)) with rfl | he'
      · exact absurd (hb₁ _ he) (String.lt_irrefl _)
      · exact he'

/-- A dictionary is determined by its look-ups. -/
theorem ext_get? {a b : Dict α} (h : ∀ k, a.get? k = b.get? k) : a = b := by
  have : a.entries = b.entries := by
    refine entries_ext a.ascending b.ascending fun e => ?_
    rw [← get?_eq_some_iff a e.1 e.2, ← get?_eq_some_iff b e.1 e.2, h e.1]
  cases a; cases b; simp_all

end Dict

/-- A finite set of names, listed in ascending order. -/
abbrev NameSet := Dict Unit

namespace NameSet

/-- The set with one more name. -/
def add (s : NameSet) (k : String) : NameSet :=
  Dict.insert s k ()

/-- The set of the names of a list. -/
def ofList (ks : List String) : NameSet :=
  ks.foldl add Dict.empty

end NameSet

end OpGraph
