import Mathlib
import OpGraph.Weights.Block

/-!
# Sizes of weight blocks

The size of a block is worked out in a machine word: it is the number of values the shape has room for, balanced modulo
`2 ^ 64`. A block is made if its values are as many as that word says. As long as a shape has room for fewer than `2 ^
63` values this is their number; beyond that, a block can be made that lacks nearly all of its values.
-/

namespace OpGraph.Block

/-- How many values a shape has room for. -/
def capacity (shape : List Int64) : Int :=
  (shape.map Int64.toInt).prod

/-- One more dimension multiplies the capacity. -/
lemma capacity_cons (d : Int64) (shape : List Int64) : capacity (d :: shape) = d.toInt * capacity shape := by
  rw [capacity, List.map_cons, List.prod_cons]
  rfl

/-- Each step of the loop leaves the product of what was read so far, modulo `2 ^ 64`. -/
lemma toInt_foldl_mul (n : Int64) (shape : List Int64) :
    (shape.foldl (· * ·) n).toInt = (n.toInt * capacity shape).bmod (2 ^ 64) := by
  induction shape generalizing n with
  | nil =>
    show n.toInt = (n.toInt * 1).bmod (2 ^ 64)
    rw [mul_one]
    exact n.toInt_bmod.symm
  | cons d shape ih =>
    rw [List.foldl_cons, ih, Int64.toInt_mul, Int.bmod_mul_bmod, capacity_cons, mul_assoc]

/-- The size of a shape is its capacity, as far as 64 bits go. -/
lemma toInt_sizeOfShape (shape : List Int64) : (sizeOfShape shape).toInt = (capacity shape).bmod (2 ^ 64) := by
  have h := toInt_foldl_mul 1 shape
  rwa [Int64.toInt_one, one_mul] at h

/-- A shape of positive dimensions has room for at least one value. -/
lemma capacity_pos {shape : List Int64} (h : ∀ d ∈ shape, 0 < d) : 0 < capacity shape := by
  induction shape with
  | nil => exact Int.one_pos
  | cons d shape ih =>
    rw [capacity_cons]
    have hd : 0 < d.toInt := Int64.lt_iff_toInt_lt.1 (h d List.mem_cons_self)
    exact mul_pos hd (ih fun d' hd' => h d' (List.mem_cons_of_mem d hd'))

/-- Below `2 ^ 63` the word is the number of values itself. -/
lemma bmod_capacity {shape : List Int64} (h : ∀ d ∈ shape, 0 < d) (hlt : capacity shape < 2 ^ 63) :
    (capacity shape).bmod (2 ^ 64) = capacity shape := by
  have hpos := capacity_pos h
  apply Int.bmod_eq_of_le_mul_two
  · push_cast
    omega
  · push_cast
    omega

/-- A block with values is made exactly if it has a name, its dimensions are positive and its values are as many as the
word says. -/
lemma make_eq_ok_iff {id op : String} {shape : List Int64} {values : List Float32} {b : Block} :
    make id op shape (some values) = .ok b ↔
      (id ≠ "" ∧ (∀ d ∈ shape, 0 < d) ∧ (values.length : Int) = (capacity shape).bmod (2 ^ 64)) ∧
        b = { id, op, shape, data := some values } := by
  have hpos : shape.find? (· ≤ 0) = none ↔ ∀ d ∈ shape, 0 < d := by
    rw [List.find?_eq_none]
    simp only [decide_eq_true_eq, Int64.not_le]
  unfold make
  by_cases hid : id = ""
  · rw [if_pos hid]
    exact ⟨fun h => (by cases h), fun h => absurd hid h.1.1⟩
  · rw [if_neg hid, toInt_sizeOfShape]
    cases hd : shape.find? (· ≤ 0) with
    | some d => exact ⟨fun h => (by cases h), fun h => absurd (hpos.2 h.1.2.1) (by simp [hd])⟩
    | none =>
      dsimp only
      by_cases hlen : (values.length : Int) = (capacity shape).bmod (2 ^ 64)
      · rw [if_pos hlen, Except.ok.injEq, eq_comm]
        exact ⟨fun h => ⟨⟨hid, hpos.1 hd, hlen⟩, h⟩, And.right⟩
      · rw [if_neg hlen]
        exact ⟨fun h => (by cases h), fun h => absurd h.1.2.2 hlen⟩

/-- A block with values is made exactly if it has a name, its dimensions are positive and its values are as many as the
shape has room for modulo `2 ^ 64`, balanced. Its size is the number of its values then. For a shape with room for fewer
than `2 ^ 63` values the two numbers themselves have to agree. -/
theorem make_checks_size (id op : String) (shape : List Int64) (values : List Float32) :
    ((∃ b, make id op shape (some values) = .ok b) ↔
      id ≠ "" ∧ (∀ d ∈ shape, 0 < d) ∧ (values.length : Int) = (capacity shape).bmod (2 ^ 64)) ∧
    (∀ b, make id op shape (some values) = .ok b → b.size.toInt = values.length) ∧
    (capacity shape < 2 ^ 63 → ((∃ b, make id op shape (some values) = .ok b) ↔
      id ≠ "" ∧ (∀ d ∈ shape, 0 < d) ∧ capacity shape = values.length)) := by
  have hmade : (∃ b, make id op shape (some values) = .ok b) ↔
      id ≠ "" ∧ (∀ d ∈ shape, 0 < d) ∧ (values.length : Int) = (capacity shape).bmod (2 ^ 64) := by
    simp only [make_eq_ok_iff, exists_and_left, exists_eq, and_true]
  refine ⟨hmade, fun b hb => ?_, fun hlt => ?_⟩
  · obtain ⟨⟨-, -, hlen⟩, rfl⟩ := make_eq_ok_iff.1 hb
    rw [hlen]
    exact toInt_sizeOfShape shape
  · rw [hmade]
    refine and_congr_right fun _ => and_congr_right fun hpos => ?_
    rw [bmod_capacity hpos hlt]
    exact eq_comm

/-- A square of `2 ^ 32` by `2 ^ 32` is made without a single value, and its size is said to be zero. -/
theorem make_square_without_values : ∃ b, make "w" "" [4294967296, 4294967296] (some []) = .ok b ∧ b.size = 0 ∧
    capacity b.shape = 2 ^ 64 ∧ capacity b.shape ≠ ([] : List Float32).length :=
  ⟨_, rfl, by decide, by decide, by decide⟩

end OpGraph.Block
