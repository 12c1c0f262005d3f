import Mathlib
import OpGraph.Graph.Edge

/-!
# Identifiers

Which edge an identifier stands for. An identifier is cut at its first arrow, so it gives back its two names exactly if
the first one holds no arrow. The weights and the bias of an operator have identifiers without an arrow, unless there is
one in the name of the operator.
-/

namespace OpGraph

/-- A name that holds no arrow. -/
def ArrowFree (name : String) : Prop :=
  ¬ ['-', '>'] <:+: name.toList

instance (name : String) : Decidable (ArrowFree name) :=
  inferInstanceAs (Decidable (¬ _))

/-- An arrow can not begin in a name that holds none and end behind it, where there is no tip. -/
lemma ArrowFree.append {a b : String} (ha : ArrowFree a) (hb : '>' ∉ b.toList) : ArrowFree (a ++ b) := by
  intro h
  rw [String.toList_append] at h
  obtain ⟨pre, post, he⟩ := h
  rw [List.append_assoc] at he
  rcases List.append_eq_append_iff.1 he with ⟨mid, ha', hmid⟩ | ⟨mid, -, hmid⟩
  · rw [List.cons_append, List.cons_append, List.nil_append] at hmid
    match mid, hmid with
    | [], hmid =>
      rw [List.nil_append] at hmid
      exact hb (hmid ▸ by simp)
    | [_], hmid =>
      simp only [List.cons_append, List.nil_append, List.cons.injEq] at hmid
      exact hb (hmid.2 ▸ by simp)
    | _ :: _ :: mid, hmid =>
      simp only [List.cons_append, List.cons.injEq] at hmid
      obtain ⟨rfl, rfl, -⟩ := hmid
      exact ha ⟨pre, mid, by rw [ha']; simp⟩
  · exact hb (hmid ▸ by simp)

namespace EdgeId

/-- A text is cut right behind a start that holds no arrow. The arrow can not begin inside the start, for it would
end with the first character of the arrow itself. -/
lemma cutArrow_append :
    ∀ {xs : List Char} (ys : List Char), ¬ ['-', '>'] <:+: xs → cutArrow (xs ++ '-' :: '>' :: ys) = some (xs, ys)
  | [], ys, _ => rfl
  | c :: xs, ys, h => by
    have hxs : ¬ ['-', '>'] <:+: xs := fun hi => h (hi.trans (List.suffix_cons c xs).isInfix)
    have ih := cutArrow_append ys hxs
    cases xs with
    | nil =>
      rw [List.singleton_append, cutArrow]
      · rw [List.nil_append] at ih
        rw [ih]
        rfl
      · rintro rest - he
        cases he
    | cons d xs =>
      rw [List.cons_append, cutArrow]
      · rw [ih]
        rfl
      · rintro rest rfl he
        rw [List.cons_append] at he
        cases he
        exact h ⟨[], xs, rfl⟩

/-- What a text is cut into makes up the text again. -/
lemma eq_of_cutArrow :
    ∀ {cs xs ys : List Char}, cutArrow cs = some (xs, ys) → cs = xs ++ '-' :: '>' :: ys := by
  intro cs
  induction cs using cutArrow.induct with
  | case1 => intro xs ys h; simp [cutArrow] at h
  | case2 rest => intro xs ys h; simp [cutArrow] at h; simp [h]
  | case3 c rest hne ih =>
    intro xs ys h
    rw [cutArrow] at h
    · cases hr : cutArrow rest with
      | none => rw [hr] at h; cases h
      | some p =>
        rw [hr] at h
        simp only [Option.map_some, Option.some.injEq, Prod.mk.injEq] at h
        obtain ⟨rfl, rfl⟩ := h
        rw [ih hr, List.cons_append]
    · exact hne

/-- A text is cut at its first arrow, whatever comes behind. -/
lemma cutArrow_append_of_some (zs : List Char) :
    ∀ {cs xs ys : List Char}, cutArrow cs = some (xs, ys) → cutArrow (cs ++ zs) = some (xs, ys ++ zs) := by
  intro cs
  induction cs using cutArrow.induct with
  | case1 => intro xs ys h; cases h
  | case2 rest => intro xs ys h; cases h; rfl
  | case3 c rest hne ih =>
    intro xs ys h
    rw [cutArrow] at h
    · obtain ⟨⟨us, vs⟩, hrest, heq⟩ := Option.map_eq_some_iff.1 h
      cases heq
      rw [List.cons_append, cutArrow]
      · rw [ih hrest]
        rfl
      · intro tail hc htail
        cases rest with
        | nil => cases hrest
        | cons d rest =>
          cases htail
          exact hne rest hc rfl
    · exact hne

/-- A text can not be cut exactly if it holds no arrow. -/
lemma cutArrow_eq_none_iff {cs : List Char} : cutArrow cs = none ↔ ¬ ['-', '>'] <:+: cs := by
  induction cs using cutArrow.induct with
  | case1 => exact iff_of_true rfl (by decide)
  | case2 rest => exact iff_of_false (fun h => by cases h) fun h => h ⟨[], rest, rfl⟩
  | case3 c rest hne ih =>
    rw [cutArrow]
    · rw [Option.map_eq_none_iff, ih, List.infix_cons_iff, not_or]
      refine ⟨fun h => ⟨?_, h⟩, fun h => h.2⟩
      rintro ⟨tail, htail⟩
      cases htail
      exact hne tail rfl rfl
    · exact hne

/-- A text is cut at its first arrow: there is none in what stands before. -/
lemma arrowFree_of_cutArrow {cs xs ys : List Char} (h : cutArrow cs = some (xs, ys)) : ¬ ['-', '>'] <:+: xs := by
  rw [← cutArrow_eq_none_iff]
  cases hc : cutArrow xs with
  | none => rfl
  | some p =>
    -- An arrow before the cut would have been cut at itself.
    obtain ⟨us, vs⟩ := p
    have hcut := cutArrow_append_of_some ('-' :: '>' :: ys) hc
    rw [← eq_of_cutArrow h, h] at hcut
    have hus : xs = us := congrArg Prod.fst (Option.some.inj hcut)
    have hlen := congrArg List.length (eq_of_cutArrow hc)
    rw [hus, List.length_append, List.length_cons] at hlen
    omega

/-- The identifier of an edge is its source, an arrow and its target. -/
lemma toList_arc (src dst : String) : (arc src dst).toList = src.toList ++ '-' :: '>' :: dst.toList := by
  simp [arc, String.toList_append]

/-- An identifier is taken for that of a weight tensor exactly if it holds no arrow. -/
lemma isSynthetic_iff {id : EdgeId} : id.isSynthetic ↔ ArrowFree id := by
  rw [isSynthetic, endpoints?, Option.isNone_map, Option.isNone_iff_eq_none, cutArrow_eq_none_iff]
  rfl

/-- The identifier of an edge is not that of a weight tensor. -/
lemma not_isSynthetic_arc (src dst : String) : ¬ (arc src dst).isSynthetic := by
  rw [isSynthetic_iff, ArrowFree, not_not, toList_arc]
  exact ⟨src.toList, dst.toList, by simp⟩

/-- An identifier gives back the names it was made of. -/
lemma endpoints?_arc {src : String} (h : ArrowFree src) (dst : String) :
    (arc src dst).endpoints? = some (src, dst) := by
  rw [endpoints?, toList_arc, cutArrow_append _ h]
  simp

/-- An identifier is made of the names it gives back. -/
lemma eq_arc_of_endpoints? {id : EdgeId} {src dst : String} (h : id.endpoints? = some (src, dst)) :
    id = arc src dst := by
  simp only [endpoints?, Option.map_eq_some_iff, Prod.mk.injEq, Prod.exists] at h
  obtain ⟨xs, ys, hc, rfl, rfl⟩ := h
  apply String.ext
  rw [eq_of_cutArrow hc]
  simp [arc, String.toList_append]

/-- An identifier gives back two names exactly if it is made of them and the first one holds no arrow. -/
lemma endpoints?_eq_some_iff {id : EdgeId} {src dst : String} :
    id.endpoints? = some (src, dst) ↔ id = arc src dst ∧ ArrowFree src := by
  constructor
  · intro h
    refine ⟨eq_arc_of_endpoints? h, ?_⟩
    simp only [endpoints?, Option.map_eq_some_iff, Prod.mk.injEq, Prod.exists] at h
    obtain ⟨xs, ys, hc, rfl, -⟩ := h
    rw [ArrowFree, String.toList_ofList]
    exact arrowFree_of_cutArrow hc
  · rintro ⟨rfl, h⟩
    exact endpoints?_arc h dst

/-- Edges between names without arrows have the same identifier only if they are the same. -/
lemma arc_inj {a b c d : String} (ha : ArrowFree a) (hc : ArrowFree c) : arc a b = arc c d ↔ a = c ∧ b = d := by
  constructor
  · intro h
    have he := endpoints?_arc ha b
    rw [h, endpoints?_arc hc d] at he
    cases he
    exact ⟨rfl, rfl⟩
  · rintro ⟨rfl, rfl⟩
    rfl

/-- Names without arrows are the only ones that make the identifier they make. -/
lemma arc_inj_of_ends {a b x y : String} (hx : ArrowFree x) (hy : ArrowFree y) : arc a b = arc x y ↔ a = x ∧ b = y := by
  constructor
  · intro h
    have ha : ArrowFree a := by
      rw [ArrowFree, ← cutArrow_eq_none_iff]
      cases hc : cutArrow a.toList with
      | none => rfl
      | some p =>
        -- Cut at an arrow of the first name, the identifier would leave an arrow in the second.
        obtain ⟨us, vs⟩ := p
        have hcut := cutArrow_append_of_some ('-' :: '>' :: b.toList) hc
        rw [← toList_arc, h, toList_arc, cutArrow_append _ hx] at hcut
        simp only [Option.some.injEq, Prod.mk.injEq] at hcut
        refine absurd ⟨vs, b.toList, ?_⟩ hy
        rw [hcut.2]
        simp
    exact (arc_inj ha hx).1 h
  · rintro ⟨rfl, rfl⟩
    rfl

/-- The identifier of the weights of an operator holds an arrow exactly if the name of the operator does. -/
lemma isSynthetic_weights_iff {op : String} (bias : Bool) : (weights op bias).isSynthetic ↔ ArrowFree op := by
  rw [isSynthetic_iff]
  constructor
  · intro h hop
    refine h (hop.trans ?_)
    rw [weights, String.toList_append]
    exact (List.prefix_append _ _).isInfix
  · intro h
    apply h.append
    cases bias <;> decide

/-- Different weight tensors have different identifiers. -/
lemma weights_inj {a b : String} {x y : Bool} : weights a x = weights b y ↔ a = b ∧ x = y := by
  constructor
  · intro h
    have hl := congrArg (fun s => s.toList.reverse) h
    cases x <;> cases y <;> simp [weights, String.toList_append] at hl
    · simp [String.toList_inj.1 hl]
    · simp [String.toList_inj.1 hl]
  · rintro ⟨rfl, rfl⟩
    rfl

/-- Identifiers can be read back exactly as far as arrows allow. That of an edge gives back its two names if and only if
the first one holds no arrow, so that no two edges from such names share one. That of a weight tensor is told from those
of edges if and only if the name of the operator holds no arrow, and then it is none of them. -/
theorem endpoints_exact (src dst op : String) (bias : Bool) :
    ((arc src dst).endpoints? = some (src, dst) ↔ ArrowFree src) ∧
      Set.InjOn (fun p : String × String => arc p.1 p.2) {p | ArrowFree p.1} ∧
      ((weights op bias).isSynthetic ↔ ArrowFree op) ∧
      ((weights op bias).isSynthetic → weights op bias ≠ arc src dst) := by
  refine ⟨?_, fun p hp q hq he => ?_, isSynthetic_weights_iff bias, fun hsyn he => ?_⟩
  · rw [endpoints?_eq_some_iff]
    exact and_iff_right rfl
  · obtain ⟨hsrc, hdst⟩ := (arc_inj hp hq).1 he
    exact Prod.ext hsrc hdst
  · exact not_isSynthetic_arc src dst (he ▸ hsyn)

/-- Before the arrow a name may end with the start of an arrow, and behind it one may begin with its tip. -/
example : (arc "a-" ">b").endpoints? = some ("a-", ">b") := by decide

/-- With an arrow in the first name the cut comes too early, and the identifier is that of another edge as well. -/
example : (arc "a->b" "c").endpoints? = some ("a", "b->c") ∧ arc "a->b" "c" = arc "a" "b->c" := by decide

end EdgeId

end OpGraph
