import Mathlib
import OpGraph.Proofs.Sandbox.Edits

/-!
# Free names

A fused node gets the name of its pattern, or that name with the least number behind it that makes it free. Different
numbers make different names, and only finitely many names are taken, so that trying one number after the other comes to
an end. The runs of this search are derivations, of which there is one only if it ends. A merge under the name that was
found is never refused because of it.
-/

namespace OpGraph.Sandbox

variable {s : Sandbox} {base : String}

/-! ### Numbered names -/

/-- Different numbers behind a name give different names. -/
lemma numbered_inj {i j : Nat} (h : numbered base i = numbered base j) : i = j := by
  have hl := congrArg String.toList h
  simp only [numbered, String.toList_append, List.append_cancel_left_eq] at hl
  exact Nat.repr_inj.1 (String.toList_inj.1 hl)

/-- A name with a number behind it is another name. -/
lemma numbered_ne (base : String) (i : Nat) : numbered base i ≠ base := by
  intro h
  have hl := congrArg (fun s => s.toList.length) h
  simp only [numbered, String.toList_append, List.length_append] at hl
  simp at hl
  omega

/-- A number behind a name brings no arrow into it. -/
lemma arrowFree_numbered (h : ArrowFree base) (i : Nat) : ArrowFree (numbered base i) := by
  refine (h.append (by decide)).append fun hmem => ?_
  have hdigit := Nat.isDigit_of_mem_toDigits (b := 10) (by decide) (by decide) (n := i) (c := '>') (by simpa using hmem)
  exact absurd hdigit (by decide)

/-- Of as many numbered names as there are taken ones, one is free if the name without a number is not. -/
lemma exists_free_numbered (h : s.taken.contains base) :
    ∃ i < s.taken.size, ¬ s.taken.contains (numbered base (i + 1)) := by
  by_contra hnone
  push Not at hnone
  have hnd : (base :: (List.range s.taken.size).map fun i => numbered base (i + 1)).Nodup := by
    refine List.nodup_cons.2 ⟨?_, ?_⟩
    · simp only [List.mem_map, not_exists, not_and]
      exact fun i _ => numbered_ne base (i + 1)
    · refine List.nodup_range.map fun i j hij => ?_
      exact Nat.succ.inj (numbered_inj hij)
  have hsub : (base :: (List.range s.taken.size).map fun i => numbered base (i + 1)) ⊆ s.taken.keys := by
    refine List.cons_subset.2 ⟨Dict.mem_keys.2 h, ?_⟩
    intro k hk
    obtain ⟨i, hi, rfl⟩ := List.mem_map.1 hk
    exact Dict.mem_keys.2 (hnone i (List.mem_range.1 hi))
  have hle := (List.subperm_of_subset hnd hsub).length_le
  simp [Dict.keys, Dict.size] at hle

/-! ### The name that is chosen -/

/-- A name that is free is given as it is. -/
lemma uniqueName_of_free (h : ¬ s.taken.contains base) : s.uniqueName base = base := by
  rw [uniqueName, if_neg h]

/-- The number is the least one that makes the name free. -/
lemma uniqueName_of_taken (h : s.taken.contains base) :
    ∃ i, i ≤ s.taken.size ∧ s.uniqueName base = numbered base i ∧
      IsLeast {i | 1 ≤ i ∧ ¬ s.taken.contains (numbered base i)} i := by
  rw [uniqueName, if_pos h]
  cases hfind : (List.range s.taken.size).find? fun i => !s.taken.contains (numbered base (i + 1)) with
  | none =>
    obtain ⟨i, hi, hfree⟩ := exists_free_numbered h
    have htaken := List.find?_eq_none.1 hfind i (List.mem_range.2 hi)
    exact absurd (by simpa using htaken) hfree
  | some i =>
    obtain ⟨hfree, hi, hless⟩ := List.find?_range_eq_some.1 hfind
    refine ⟨i + 1, List.mem_range.1 hi, rfl, ⟨Nat.le_add_left 1 i, by simpa using hfree⟩, ?_⟩
    rintro j ⟨hpos, hj⟩
    obtain ⟨k, rfl⟩ := Nat.exists_eq_add_of_le' hpos
    by_contra hlt
    exact hj (by simpa using hless k (by omega))

/-- The name that is given is free. -/
lemma not_taken_uniqueName (s : Sandbox) (base : String) : ¬ s.taken.contains (s.uniqueName base) := by
  by_cases h : s.taken.contains base
  · obtain ⟨i, -, heq, hleast⟩ := uniqueName_of_taken h
    rw [heq]
    exact hleast.1.2
  · rwa [uniqueName_of_free h]

/-- The name that is given is the one asked for, or it has a number behind it. -/
lemma uniqueName_cases (s : Sandbox) (base : String) :
    s.uniqueName base = base ∨ ∃ i, s.uniqueName base = numbered base (i + 1) := by
  by_cases h : s.taken.contains base
  · obtain ⟨i, -, heq, ⟨hpos, -⟩, -⟩ := uniqueName_of_taken h
    obtain ⟨k, rfl⟩ := Nat.exists_eq_add_of_le' hpos
    exact .inr ⟨k, heq⟩
  · exact .inl (uniqueName_of_free h)

/-- A free name holds no arrow if the name it is made from holds none. -/
lemma arrowFree_uniqueName (h : ArrowFree base) : ArrowFree (s.uniqueName base) := by
  rcases s.uniqueName_cases base with heq | ⟨i, heq⟩
  · rwa [heq]
  · rw [heq]
    exact arrowFree_numbered h (i + 1)

/-! ### Trying numbers without a bound -/

/-- Trying numbers from `i` on, one after the other, ends with a name. -/
inductive Tries (s : Sandbox) (base : String) : Nat → String → Prop where
  | free {i : Nat} (h : ¬ s.taken.contains (numbered base i)) : Tries s base i (numbered base i)
  | next {i : Nat} {name : String} (h : s.taken.contains (numbered base i)) (hn : Tries s base (i + 1) name) :
      Tries s base i name

/-- The search for a free name ends with a name. Numbers are only tried if the given name is taken. -/
inductive Chooses (s : Sandbox) (base : String) : String → Prop where
  | same (h : ¬ s.taken.contains base) : Chooses s base base
  | other {name : String} (h : s.taken.contains base) (ht : s.Tries base 1 name) : Chooses s base name

/-- Numbers are tried up to the first one that makes the name free. -/
lemma tries_iff {d i : Nat} {name : String} (hfree : ¬ s.taken.contains (numbered base (i + d)))
    (htaken : ∀ j, i ≤ j → j < i + d → s.taken.contains (numbered base j)) :
    s.Tries base i name ↔ name = numbered base (i + d) := by
  induction d generalizing i with
  | zero =>
    constructor
    · intro hrun
      cases hrun with
      | free _ => rfl
      | next h _ => exact absurd h hfree
    · rintro rfl
      exact .free hfree
  | succ d ih =>
    have hfirst := htaken i le_rfl (by omega)
    have hnext : i + 1 + d = i + (d + 1) := by omega
    rw [← hnext] at hfree htaken ⊢
    rw [← ih hfree fun j hle hlt => htaken j (by omega) hlt]
    constructor
    · intro hrun
      cases hrun with
      | free h => exact absurd hfirst h
      | next _ hrun => exact hrun
    · exact .next hfirst

/-- The search ends, with the name that is chosen. -/
lemma chooses_iff {name : String} : s.Chooses base name ↔ name = s.uniqueName base := by
  by_cases h : s.taken.contains base
  · obtain ⟨i, -, heq, ⟨hpos, hfree⟩, hless⟩ := uniqueName_of_taken h
    obtain ⟨d, rfl⟩ := Nat.exists_eq_add_of_le hpos
    have htaken : ∀ j, 1 ≤ j → j < 1 + d → s.taken.contains (numbered base j) := by
      intro j hle hlt
      by_contra hj
      exact absurd (hless ⟨hle, hj⟩) (by omega)
    rw [heq, ← tries_iff hfree htaken]
    constructor
    · intro hrun
      cases hrun with
      | same hn => exact absurd h hn
      | other _ hrun => exact hrun
    · exact .other h
  · rw [uniqueName_of_free h]
    constructor
    · intro hrun
      cases hrun with
      | same _ => rfl
      | other ht _ => exact absurd ht h
    · rintro rfl
      exact .same h

/-! ### Merges under a free name -/

/-- The check of the members never says that the fused name is taken. -/
lemma checkMembers_ne_fusedTaken {name : String} :
    ∀ {names seen : List String}, s.checkMembers seen names ≠ .error (.fusedTaken name)
  | [], seen, h => by cases h
  | m :: names, seen, h => by
    rw [checkMembers] at h
    split at h
    · cases h
    · split at h
      · cases h
      · split at h
        · cases h
        · exact checkMembers_ne_fusedTaken h

/-- Adopting qualified attributes never says that the fused name is taken. -/
lemma adoptQualified_ne_fusedTaken {name : String} :
    ∀ {es : List (String × Attribute.Value)} {attrs : Attribute.Store},
      adoptQualified attrs es ≠ .error (.fusedTaken name)
  | [], attrs, h => by cases h
  | e :: es, attrs, h => by
    rw [adoptQualified] at h
    split at h
    · cases h
    · split at h
      · exact adoptQualified_ne_fusedTaken h
      · cases h

/-- Making the fused node never says that the fused name is taken. -/
lemma fusedNode_ne_fusedTaken {names : List String} {fused type name : String} :
    s.fusedNode names fused type ≠ .error (.fusedTaken name) := by
  intro h
  rcases bind_eq_error.1 h with h | ⟨_, -, h⟩
  · obtain ⟨attrs, n, -, hadopt⟩ := foldlM_error h
    rw [adoptMember] at hadopt
    split at hadopt
    · exact adoptQualified_ne_fusedTaken hadopt
    · split at hadopt
      · cases hadopt
      · cases hadopt
  · cases h

/-- A merge is refused because of its name only if the name is taken. -/
lemma taken_of_fusedTaken {names : List String} {fused type pattern name : String}
    (h : s.merge names fused type pattern = .error (.fusedTaken name)) : s.taken.contains fused := by
  by_contra hfree
  rw [merge_eq, if_neg hfree] at h
  split at h
  · cases h
  split at h
  · cases h
  rcases bind_eq_error.1 h with h | ⟨_, -, h⟩
  · exact checkMembers_ne_fusedTaken h
  split at h
  · cases h
  split at h
  · cases h
  rcases bind_eq_error.1 h with h | ⟨_, -, h⟩
  · exact fusedNode_ne_fusedTaken h
  · cases h

/-- The search for a free name ends, and always with the name that is chosen. The name is not taken; it is the given one
if that is free, and otherwise it has the least number from 1 on that makes it free, of which there is one up to the
number of taken names. No merge under it is refused because the name is taken. -/
theorem uniqueName_least (s : Sandbox) (base : String) :
    (∀ name, s.Chooses base name ↔ name = s.uniqueName base) ∧ ¬ s.taken.contains (s.uniqueName base) ∧
      (¬ s.taken.contains base → s.uniqueName base = base) ∧
      (s.taken.contains base → ∃ i, i ≤ s.taken.size ∧ s.uniqueName base = numbered base i ∧
        IsLeast {i | 1 ≤ i ∧ ¬ s.taken.contains (numbered base i)} i) ∧
      ∀ names type pattern name, s.merge names (s.uniqueName base) type pattern ≠ .error (.fusedTaken name) := by
  refine ⟨fun _ => chooses_iff, s.not_taken_uniqueName base, uniqueName_of_free, uniqueName_of_taken, ?_⟩
  intro names type pattern name he
  exact s.not_taken_uniqueName base (taken_of_fusedTaken he)

end OpGraph.Sandbox
