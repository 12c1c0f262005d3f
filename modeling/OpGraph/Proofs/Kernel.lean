import Mathlib
import OpGraph.Kernel.Standard
import OpGraph.Proofs.Reach

/-!
# Nodes that can run

What a registry asks of a node depends on its type, its precision and which kinds of values its attributes have, so it
asks the same of two nodes that differ in the texts of attributes only. A kernel without a record of fields asks for
nothing but the precision, for a manifest that agrees with it lists no attributes.
-/

namespace OpGraph

/-! ### Nodes that look alike to kernels -/

/-- The same attributes are set, and where their values differ both are texts. -/
def Attribute.Store.Alike (attrs attrs' : Attribute.Store) : Prop :=
  ∀ name, attrs'.get? name = attrs.get? name ∨
    ∃ a b, attrs.get? name = some (.string a) ∧ attrs'.get? name = some (.string b)

/-- Two nodes that differ in what kernels do not read, or in texts. -/
structure Node.Alike (n n' : Node) : Prop where
  type : n'.type = n.type
  precision : n'.precision = n.precision
  attrs : Attribute.Store.Alike n.attrs n'.attrs

/-- Nodes with the same type, precision and attributes are alike to kernels. -/
lemma Node.Alike.of_attrs {n n' : Node} (ht : n'.type = n.type) (hp : n'.precision = n.precision)
    (ha : n'.attrs = n.attrs) : Alike n n' :=
  ⟨ht, hp, fun name => .inl (by rw [ha])⟩

namespace Kernel

/-- Whether a field takes a text does not depend on the text. -/
lemma FieldType.assign_string {t : FieldType} {a : String} {v : FieldValue} (h : t.assign (.string a) = .ok v)
    (b : String) :
    ∃ v', t.assign (.string b) = .ok v' := by
  cases t with
  | string => exact ⟨_, rfl⟩
  | _ => cases h

/-- A field that can be bound to attributes can be bound to ones that are alike. -/
lemma Field.bind_alike {f : Field} {attrs attrs' : Attribute.Store} (ha : attrs.Alike attrs') {v : FieldValue}
    (h : f.bind attrs = .ok v) : ∃ v', f.bind attrs' = .ok v' := by
  unfold Field.bind at h ⊢
  cases hp : f.parameter? with
  | none => exact ⟨_, rfl⟩
  | some p =>
    rw [hp] at h
    dsimp only at h ⊢
    rcases ha p.attr with he | ⟨a, b, hget, hget'⟩
    · rw [he]
      exact ⟨v, h⟩
    · rw [hget] at h
      rw [hget']
      dsimp only at h ⊢
      cases hassign : f.type.assign (.string a) with
      | error e =>
        rw [hassign] at h
        cases h
      | ok x =>
        obtain ⟨x', hx'⟩ := FieldType.assign_string hassign b
        rw [hx']
        exact ⟨x', rfl⟩

/-- There are no errors exactly if every computation succeeded. -/
lemma errorsOf_eq_nil_iff {ε α : Type} {rs : List (Except ε α)} : errorsOf rs = [] ↔ ∀ r ∈ rs, ∃ a, r = .ok a := by
  rw [errorsOf, List.filterMap_eq_nil_iff]
  refine forall₂_congr fun r _ => ?_
  cases r with
  | error e => simp
  | ok a => simp

/-- The attributes of a node can be read exactly when each field can. -/
lemma bind_ok_iff {k : Kernel} {attrs : Attribute.Store} :
    (∃ record, k.bind attrs = .ok record) ↔ ∀ fields, k.fields = some fields → ∀ f ∈ fields, ∃ v,
    f.bind attrs = .ok v := by
  unfold bind
  cases hf : k.fields with
  | none => simp
  | some fields =>
    dsimp only
    have hnil : errorsOf (fields.map fun f => (f.bind attrs).map fun v => (f.name, v)) = [] ↔
        ∀ f ∈ fields, ∃ v, f.bind attrs = .ok v := by
      rw [errorsOf_eq_nil_iff, List.forall_mem_map]
      refine forall₂_congr fun f _ => ?_
      cases f.bind attrs with
      | error e => simp [Except.map]
      | ok v => simp [Except.map]
    split
    · rename_i he
      simpa using hnil.1 he
    · rename_i he
      simpa using fun h => he (hnil.2 h)

namespace Registry

variable {r : Registry} {key : Key} {target : String} {n n' : Node}

/-- What is looked up under a key is filed under it. -/
lemma mem_of_lookup {α : Type} {pairs : List (Key × α)} {a : α} (h : lookup key pairs = some a) : (key, a) ∈ pairs := by
  obtain ⟨⟨key', a'⟩, hfind, rfl⟩ := Option.map_eq_some_iff.1 h
  obtain rfl : key' = key := by simpa using List.find?_some hfind
  exact List.mem_of_find?_eq_some hfind

/-! ### What is checked -/

/-- Manifests and kernels agree if each manifest does. -/
lemma check_ok_iff : r.check = .ok () ↔ ∀ e ∈ r.manifests, r.checkManifest e.1 e.2 = [] := by
  have hnil : r.complaints = [] ↔ ∀ e ∈ r.manifests, r.checkManifest e.1 e.2 = [] := by
    rw [complaints, List.flatMap_eq_nil_iff]
    simp only [List.mem_mergeSort]
  rw [← hnil, check]
  split
  · rename_i he
    exact iff_of_true rfl he
  · rename_i he
    exact iff_of_false (by simp) he

/-- Nodes can run if each of them can. -/
lemma checkNodes_ok_iff {nodes : List Node} :
    r.checkNodes nodes target = .ok () ↔ ∀ n ∈ nodes, r.checkNode target n = [] := by
  rw [← List.flatMap_eq_nil_iff, checkNodes]
  split
  · rename_i he
    exact iff_of_true rfl he
  · rename_i he
    exact iff_of_false (by simp) he

/-- Nothing is wrong with an attribute exactly if it is there or optional, and of a type that fits. -/
lemma checkAttr_eq_nil_iff {attr : String} {param : Manifest.Param} : checkAttr n attr param = [] ↔
    (n.attrs.get? attr = none → param.isOptional) ∧
      ∀ v, n.attrs.get? attr = some v → compatible param.type (attrType v) := by
  unfold checkAttr
  cases n.attrs.get? attr with
  | none => simp
  | some v => simp

/-- Nothing is wrong with the attributes of a node exactly if nothing is wrong with each that the manifest names. -/
lemma checkAttrs_eq_nil_iff : r.checkAttrs key n = [] ↔
    ∀ m, r.manifest? key = some m → ∀ e ∈ m.params.entries, checkAttr n e.1 e.2 = [] := by
  unfold checkAttrs
  cases r.manifest? key with
  | none => simp
  | some m => simp [List.flatMap_eq_nil_iff]

/-- Nothing keeps a node from running if it needs no kernel, or has one that runs at its precision and reads its
attributes. -/
lemma checkNode_eq_nil_iff : r.checkNode target n = [] ↔ (n.type = "Input" ∨ n.type = "Output") ∨
    ∃ k, r.kernel? ⟨n.type, target⟩ = some k ∧ k.supports n.precision ∧ r.checkAttrs ⟨n.type, target⟩ n = [] ∧
      ∃ record, k.bind n.attrs = .ok record := by
  unfold checkNode
  by_cases ht : n.type = "Input" ∨ n.type = "Output"
  · rw [if_pos ht]
    exact iff_of_true rfl (.inl ht)
  · rw [if_neg ht]
    cases hk : r.kernel? ⟨n.type, target⟩ with
    | none => simp [hk, ht]
    | some k =>
      simp only [ht, false_or, Option.some.injEq, exists_eq_left', List.append_eq_nil_iff, hk]
      cases ha : r.checkAttrs ⟨n.type, target⟩ n with
      | cons o os => simp
      | nil =>
        cases hb : k.bind n.attrs with
        | error errors => simp
        | ok record => simp

/-! ### Nodes that differ in texts -/

/-- Nothing is wrong with an attribute of a node that is alike either. -/
lemma checkAttr_alike (h : Node.Alike n n') {attr : String} {param : Manifest.Param}
    (hc : checkAttr n attr param = []) :
    checkAttr n' attr param = [] := by
  rw [checkAttr_eq_nil_iff] at hc ⊢
  rcases h.attrs attr with he | ⟨a, b, hget, hget'⟩
  · rw [he]
    exact hc
  · rw [hget']
    constructor
    · intro hnone
      cases hnone
    · intro v hv
      cases hv
      have hcompat := hc.2 _ hget
      rwa [attrType] at hcompat ⊢

/-- A node that looks like one that can run can run. -/
lemma checkNode_alike (h : Node.Alike n n') (hc : r.checkNode target n = []) : r.checkNode target n' = [] := by
  rw [checkNode_eq_nil_iff] at hc ⊢
  rw [h.type, h.precision]
  rcases hc with ht | ⟨k, hk, hp, hattrs, hbind⟩
  · exact .inl ht
  · refine .inr ⟨k, hk, hp, ?_, ?_⟩
    · rw [checkAttrs_eq_nil_iff] at hattrs ⊢
      intro m hm e he
      exact checkAttr_alike h (hattrs m hm e he)
    · rw [bind_ok_iff] at hbind ⊢
      intro fields hf f hmem
      obtain ⟨v, hv⟩ := hbind fields hf f hmem
      exact Field.bind_alike h.attrs hv

/-! ### Kernels of fused operators -/

/-- A kernel that reads no attributes is not described by a manifest with attributes. -/
lemma checkAttrs_of_noFields (hr : r.check = .ok ()) {k : Kernel} (hk : r.kernel? key = some k) (hf : k.fields = none) :
    r.checkAttrs key n = [] := by
  rw [checkAttrs_eq_nil_iff]
  intro m hm e he
  have hcheck := check_ok_iff.1 hr (key, m) (mem_of_lookup hm)
  rw [checkManifest, hk] at hcheck
  have hparams := (List.append_eq_nil_iff.1 hcheck).2
  rw [checkParams, hf] at hparams
  dsimp only at hparams
  split_ifs at hparams with hempty
  rw [Dict.isEmpty, List.isEmpty_iff] at hempty
  rw [hempty] at he
  cases he

/-- Wherever a member of a pattern can run, the fused operator has a kernel that runs at the precisions of the member,
whatever attributes it has. -/
structure Covers (r : Registry) (l : Library) : Prop where
  inner : ∀ p ∈ l.patterns, ∀ c ∈ p.ops, c.type ≠ "Input" ∧ c.type ≠ "Output"
  fused : ∀ p ∈ l.patterns, ∀ c ∈ p.ops, ∀ {target k}, r.kernel? ⟨c.type, target⟩ = some k →
    ∃ k', r.kernel? ⟨p.name, target⟩ = some k' ∧ k'.fields = none ∧ ∀ q, k.supports q → k'.supports q

/-- A fused node can run if the member whose precision it has could. -/
lemma Covers.checkNode_fused {l : Library} (h : r.Covers l) (hr : r.check = .ok ()) {p : Pattern} (hp : p ∈ l.patterns)
    {c : Constraint} (hc : c ∈ p.ops) {m : Node} (hm : r.checkNode target m = []) (hmt : m.type = c.type)
    (hnt : n.type = p.name) (hq : n.precision = m.precision) : r.checkNode target n = [] := by
  obtain ⟨hin, hout⟩ := h.inner p hp c hc
  rw [checkNode_eq_nil_iff] at hm ⊢
  rw [hmt] at hm
  rcases hm with ht | ⟨k, hk, hsup, -⟩
  · cases ht with
    | inl ht => exact absurd ht hin
    | inr ht => exact absurd ht hout
  · obtain ⟨k', hk', hf, hsup'⟩ := h.fused p hp c hc hk
    rw [hnt, hq]
    refine .inr ⟨k', hk', hsup' _ hsup, checkAttrs_of_noFields hr hk' hf, ?_⟩
    rw [bind_ok_iff]
    intro fields hfields
    cases hf.symm.trans hfields

/-! ### The standard kernels -/

/-- The registry of the standard kernels. -/
def standard : Registry :=
  (registerStandard {}).1

/-- All standard kernels are for one target, and run at no other precisions than those that also run quantized. -/
lemma mem_kernels_standard : ∀ e ∈ standard.kernels, e.1.target = standardTarget ∧ e.2.precisions ≠ [] ∧
    ∀ q ∈ e.2.precisions, q ∈ quantized := by
  decide +kernel

/-- Each standard pattern has a standard kernel, which can be quantized and binds no attributes. -/
lemma fused_standard : ∀ p ∈ Library.standard.patterns, (standard.kernel? ⟨p.name, standardTarget⟩).any fun k =>
    k.precisions = quantized ∧ k.fields.isNone := by
  decide +kernel

/-- No standard pattern matches inputs or outputs. -/
lemma inner_standard : ∀ p ∈ Library.standard.patterns, ∀ c ∈ p.ops, c.type ≠ "Input" ∧ c.type ≠ "Output" := by
  decide +kernel

/-- The standard kernels cover the standard library, whatever manifests describe them. -/
lemma covers_standard (ms : List Manifest) : (standard.describe ms).Covers .standard where
  inner := inner_standard
  fused := by
    intro p hp c hc target k hk
    have hk : standard.kernel? ⟨c.type, target⟩ = some k := hk
    obtain ⟨htarget, hne, hsub⟩ := mem_kernels_standard _ (mem_of_lookup hk)
    obtain ⟨k', hk', hq⟩ := (Option.any_eq_true _ _).1 (fused_standard p hp)
    obtain ⟨hq, hf⟩ := of_decide_eq_true hq
    dsimp only at htarget
    subst htarget
    refine ⟨k', hk', Option.isNone_iff_eq_none.1 hf, fun q hsup => ?_⟩
    have hmem : q ∈ k.precisions := by
      simpa [supports, hne] using hsup
    simpa [supports, hq, quantized] using hsub q hmem

end Registry

end Kernel

end OpGraph
