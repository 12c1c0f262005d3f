import Mathlib
import OpGraph.Config.TypeExpr
import OpGraph.Kernel.Manifest

/-!
# Values of the type of a parameter

`Inhabits t v` says that a value is one of a type: a list is one of a list type if all its elements are of the element
type. What is compared instead is the type that is worked out for the value. The two agree but for lists whose elements
have no type of their own: such a list looks like the empty one, which fits any list.
-/

namespace OpGraph

variable {t : Ty} {v : Value}

namespace Config.Ty

/-! ### Types that are the same -/

mutual

/-- Types that compare as the same are the same. -/
lemma eq_of_same : ∀ {a b : Ty}, same a b → a = b
  | any, any, _ | string, string, _ | number, number, _ | bool, bool, _ => rfl
  | list a, list b, h => by
    rw [same] at h
    rw [eq_of_same h]
  | set a, set b, h => by
    rw [same] at h
    rw [eq_of_same h]
  | map a, map b, h => by
    rw [same] at h
    rw [eq_of_same h]
  | tuple as, tuple bs, h => by
    rw [same] at h
    rw [eq_of_sameAll h]
  | object ns as, object ms bs, h => by
    rw [same, Bool.and_eq_true, beq_iff_eq] at h
    rw [h.1, eq_of_sameAll h.2]

/-- Lists of types that compare as the same are the same. -/
lemma eq_of_sameAll : ∀ {as bs : List Ty}, sameAll as bs → as = bs
  | [], [], _ => rfl
  | a :: as, b :: bs, h => by
    rw [sameAll, Bool.and_eq_true] at h
    rw [eq_of_same h.1, eq_of_sameAll h.2]

end

mutual

/-- A type compares as the same as itself. -/
lemma same_self : ∀ a : Ty, same a a
  | any | string | number | bool => by rw [same]
  | list a | set a | map a => by rw [same]; exact same_self a
  | tuple as => by rw [same]; exact sameAll_self as
  | object ns as => by rw [same, beq_self_eq_true, Bool.true_and]; exact sameAll_self as

/-- A list of types compares as the same as itself. -/
lemma sameAll_self : ∀ as : List Ty, sameAll as as
  | [] => by rw [sameAll]
  | a :: as => by rw [sameAll, same_self a, Bool.true_and]; exact sameAll_self as

end

instance : LawfulBEq Ty where
  eq_of_beq := eq_of_same
  rfl := same_self _

/-- The types that a parameter can have. -/
lemma mem_of_checkParam {written : Ty} (h : written.checkParam = .ok t) :
    t ∈ [any, string, number, bool, list number, list string] := by
  unfold checkParam at h
  split at h <;> cases h <;> simp

end Config.Ty

namespace Kernel

open Config (Ty)
open Attribute (Value)

/-! ### Values of a type -/

/-- A value is one of a type. Truth is stored as a number. -/
inductive Inhabits : Ty → Value → Prop where
  | any (v : Value) : Inhabits .any v
  | string (text : String) : Inhabits .string (.string text)
  | int (i : Int64) : Inhabits .number (.int i)
  | float (x : Float) : Inhabits .number (.float x)
  | truth {v : Value} (h : Inhabits .number v) : Inhabits .bool v
  | list {t : Ty} {vs : List Value} (h : ∀ v ∈ vs, Inhabits t v) : Inhabits (.list t) (.list vs)

/-- A value without a type of its own: it was never set, or it is a list whose elements differ in type. -/
inductive Untyped : Value → Prop where
  | invalid : Untyped .invalid
  | mixed {vs : List Value} {v w : Value} (hv : v ∈ vs) (hw : w ∈ vs) (h : attrType v ≠ attrType w) : Untyped (.list vs)

/-- A list inhabits a list type exactly if all its elements inhabit the element type. -/
lemma inhabits_list_iff {vs : List Value} : Inhabits (.list t) (.list vs) ↔ ∀ v ∈ vs, Inhabits t v := by
  constructor
  · intro h
    cases h with
    | list h => exact h
  · exact .list

/-- What counts as a truth value is what counts as a number. -/
lemma inhabits_bool_iff : Inhabits .bool v ↔ Inhabits .number v := by
  constructor
  · intro h
    cases h with
    | truth h => exact h
  · exact .truth

/-! ### The type that is worked out for a value -/

/-- All values are of a type exactly if it is worked out for each. -/
lemma allOfType_iff {vs : List Value} : allOfType t vs ↔ ∀ v ∈ vs, attrType v = t := by
  induction vs with
  | nil => simp [allOfType]
  | cons v vs ih => rw [allOfType, Bool.and_eq_true, beq_iff_eq, ih, List.forall_mem_cons]

/-- The elements of a list have one type, which the empty list leaves open, or else the list has no type. -/
lemma attrType_list_cases (vs : List Value) :
    (∃ t, attrType (.list vs) = .list t ∧ (vs = [] → t = .any) ∧ ∀ v ∈ vs, attrType v = t) ∨
      attrType (.list vs) = .any ∧ ∃ v ∈ vs, ∃ w ∈ vs, attrType v ≠ attrType w := by
  cases vs with
  | nil => exact .inl ⟨.any, by rw [attrType], fun _ => rfl, List.forall_mem_nil _⟩
  | cons v vs =>
    rw [attrType]
    by_cases h : allOfType (attrType v) vs
    · rw [if_pos h]
      exact .inl ⟨attrType v, rfl, fun h => (by cases h), List.forall_mem_cons.2 ⟨rfl, allOfType_iff.1 h⟩⟩
    · rw [if_neg h]
      rw [allOfType_iff] at h
      push Not at h
      obtain ⟨w, hw, hne⟩ := h
      exact .inr ⟨rfl, w, List.mem_cons_of_mem v hw, v, List.mem_cons_self, hne⟩

/-- A value has a list type exactly if it is a list of elements of one type. -/
lemma attrType_eq_list_iff :
    attrType v = .list t ↔ ∃ vs, v = .list vs ∧ (vs = [] → t = .any) ∧ ∀ w ∈ vs, attrType w = t := by
  cases v with
  | list vs =>
    rcases attrType_list_cases vs with ⟨t', htype, hnil, hall⟩ | ⟨htype, v, hv, w, hw, hne⟩
    · rw [htype, Ty.list.injEq]
      constructor
      · intro h
        exact ⟨vs, rfl, h ▸ hnil, h ▸ hall⟩
      · rintro ⟨_, ⟨⟩, hnil', hall'⟩
        cases vs with
        | nil => rw [hnil rfl, hnil' rfl]
        | cons v vs => rw [← hall v List.mem_cons_self, hall' v List.mem_cons_self]
    · refine iff_of_false (by simp [htype]) ?_
      rintro ⟨_, ⟨⟩, -, hall⟩
      exact hne ((hall v hv).trans (hall w hw).symm)
  | _ => simp [attrType]

/-- No type is worked out exactly for the values that have none of their own. -/
lemma attrType_eq_any_iff : attrType v = .any ↔ Untyped v := by
  cases v with
  | invalid => exact iff_of_true (by rw [attrType]) .invalid
  | list vs =>
    rcases attrType_list_cases vs with ⟨t, htype, -, hall⟩ | ⟨htype, v, hv, w, hw, hne⟩
    · refine iff_of_false (by simp [htype]) ?_
      rintro (_ | ⟨hv, hw, hne⟩)
      exact hne ((hall _ hv).trans (hall _ hw).symm)
    · exact iff_of_true htype (.mixed hv hw hne)
  | _ => exact iff_of_false (by simp [attrType]) (by rintro ⟨⟩)

/-- Apart from lists and values without a type, a value has a type exactly if it is one of it. -/
lemma attrType_eq_plain_iff (ht : t = .number ∨ t = .string) : attrType v = t ↔ Inhabits t v := by
  cases v with
  | invalid => rcases ht with rfl | rfl <;> exact iff_of_false (by simp [attrType]) (by rintro ⟨⟩)
  | int i =>
    rcases ht with rfl | rfl
    · exact iff_of_true (by rw [attrType]) (.int i)
    · exact iff_of_false (by simp [attrType]) (by rintro ⟨⟩)
  | float x =>
    rcases ht with rfl | rfl
    · exact iff_of_true (by rw [attrType]) (.float x)
    · exact iff_of_false (by simp [attrType]) (by rintro ⟨⟩)
  | string text =>
    rcases ht with rfl | rfl
    · exact iff_of_false (by simp [attrType]) (by rintro ⟨⟩)
    · exact iff_of_true (by rw [attrType]) (.string text)
  | list vs =>
    refine iff_of_false ?_ (by rcases ht with rfl | rfl <;> rintro ⟨⟩)
    rcases attrType_list_cases vs with ⟨t', htype, -⟩ | ⟨htype, -⟩ <;> rcases ht with rfl | rfl <;> simp [htype]

/-- No value is known to be a truth. -/
lemma attrType_ne_bool (v : Value) : attrType v ≠ .bool := by
  cases v with
  | list vs => rcases attrType_list_cases vs with ⟨t, htype, -⟩ | ⟨htype, -⟩ <;> simp [htype]
  | _ => simp [attrType]

/-! ### Types that fit -/

/-- A type fits any type, itself, truth values if it is that of numbers, and any list type if it is that of the empty
list. -/
lemma compatible_iff {want actual : Ty} : compatible want actual ↔
    want = .any ∨ want = actual ∨ (want = .bool ∧ actual = .number) ∨ (want.isList ∧ actual = .list .any) := by
  simp [compatible, or_assoc]

/-- A number or a text fits exactly if it is one. -/
lemma compatible_plain_iff (ht : t = .number ∨ t = .string) : compatible t (attrType v) ↔ Inhabits t v := by
  rw [← attrType_eq_plain_iff ht, compatible_iff]
  rcases ht with rfl | rfl <;> simp [Ty.isList, eq_comm]

/-- Truth is asked for as a number is. -/
lemma compatible_bool_iff : compatible .bool (attrType v) ↔ Inhabits .bool v := by
  rw [inhabits_bool_iff, ← attrType_eq_plain_iff (.inl rfl), compatible_iff]
  simp [Ty.isList, (attrType_ne_bool v).symm]

/-- A list fits a list type if its elements are of the element type, or if there are elements and none of them has a
type. -/
lemma compatible_list_iff (ht : t = .number ∨ t = .string) : compatible (.list t) (attrType v) ↔
    Inhabits (.list t) v ∨ ∃ vs, v = .list vs ∧ vs ≠ [] ∧ ∀ w ∈ vs, Untyped w := by
  have hfits : compatible (.list t) (attrType v) ↔ attrType v = .list t ∨ attrType v = .list .any := by
    rw [compatible_iff, eq_comm (a := Ty.list t) (b := attrType v)]
    simp [Ty.isList]
  rw [hfits, attrType_eq_list_iff, attrType_eq_list_iff]
  simp only [attrType_eq_any_iff, attrType_eq_plain_iff ht, implies_true, true_and]
  constructor
  · rintro (⟨vs, rfl, -, hall⟩ | ⟨vs, rfl, hall⟩)
    · exact .inl (.list hall)
    · cases vs with
      | nil => exact .inl (.list (List.forall_mem_nil _))
      | cons v vs => exact .inr ⟨_, rfl, List.cons_ne_nil v vs, hall⟩
  · rintro (h | ⟨vs, rfl, -, hall⟩)
    · cases h with
      | @list _ vs hall =>
        cases vs with
        | nil => exact .inr ⟨[], rfl, List.forall_mem_nil _⟩
        | cons v vs => exact .inl ⟨_, rfl, fun h => (by cases h), hall⟩
    · exact .inr ⟨vs, rfl, hall⟩

/-- A value fits the type of a parameter exactly if it is one of that type, or if a list is wanted and it is a list of
elements none of which has a type. -/
theorem compatible_attrType_iff {written t : Ty} (ht : written.checkParam = .ok t) (v : Value) :
    compatible t (attrType v) ↔
      Inhabits t v ∨ t.isList ∧ ∃ vs, v = .list vs ∧ vs ≠ [] ∧ ∀ w ∈ vs, Untyped w := by
  have hmem := Ty.mem_of_checkParam ht
  simp only [List.mem_cons, List.not_mem_nil, or_false] at hmem
  rcases hmem with rfl | rfl | rfl | rfl | rfl | rfl
  · exact iff_of_true (compatible_iff.2 (.inl rfl)) (.inl (.any v))
  · rw [compatible_plain_iff (.inr rfl)]
    simp [Ty.isList]
  · rw [compatible_plain_iff (.inl rfl)]
    simp [Ty.isList]
  · rw [compatible_bool_iff]
    simp [Ty.isList]
  · rw [compatible_list_iff (.inl rfl)]
    simp [Ty.isList]
  · rw [compatible_list_iff (.inr rfl)]
    simp [Ty.isList]

/-- Two lists of which neither has a type fit a list of texts, and a list of a list of texts does not. -/
theorem compatible_attrType_iff_texts :
    Ty.checkParam (.list .string) = .ok (.list .string) ∧
    compatible (.list .string) (attrType (.list [.list [.int 1, .string "a"], .list [.list [], .int 2]])) ∧
    ¬ compatible (.list .string) (attrType (.list [.list [.string "a"]])) := by
  have ht : Ty.checkParam (.list .string) = .ok (.list .string) := rfl
  have hmixed : ∀ {v w : Value}, attrType v ≠ attrType w → Untyped (.list [v, w]) := fun h =>
    .mixed List.mem_cons_self (List.mem_cons_of_mem _ List.mem_cons_self) h
  refine ⟨ht, ?_, ?_⟩
  · refine (compatible_attrType_iff ht _).2 (.inr ⟨rfl, _, rfl, List.cons_ne_nil _ _, ?_⟩)
    rw [List.forall_mem_cons, List.forall_mem_singleton]
    exact ⟨hmixed (by simp [attrType]), hmixed (by simp [attrType])⟩
  · rw [compatible_attrType_iff ht, inhabits_list_iff, List.forall_mem_singleton]
    rintro (h | ⟨-, vs, h, -, hall⟩)
    · cases h
    · cases h
      have hlist := attrType_eq_any_iff.2 (hall _ List.mem_cons_self)
      simp [attrType, allOfType] at hlist

/-- A list of one list that holds a number and a text fits a list of numbers, and is none. -/
theorem compatible_mixed_not_inhabits : ∃ v : Value, Ty.checkParam (.list .number) = .ok (.list .number) ∧
    compatible (.list .number) (attrType v) ∧ ¬ Inhabits (.list .number) v := by
  refine ⟨.list [.list [.int 1, .string "a"]], rfl, by decide +kernel, ?_⟩
  rw [inhabits_list_iff, List.forall_mem_singleton]
  rintro ⟨⟩

end Kernel

end OpGraph
