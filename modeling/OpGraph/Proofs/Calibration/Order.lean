import Mathlib
import OpGraph.Proofs.Calibration

/-!
# The order in which entries are moved

Entries are moved to their new identifiers one after the other, in an order that nothing fixes. The order does not
matter exactly when no entry is moved to where another one is moved away from, and all entries that are moved to one
identifier are the same.
-/

namespace OpGraph.Calibration

variable {α : Type} {d : Dict α} {p q : EdgeId × EdgeId} {ps qs : List (EdgeId × EdgeId)}

/-- No entry is moved twice. A move from an identifier to itself does nothing. -/
def Onward (d : Dict α) (ps : List (EdgeId × EdgeId)) : Prop :=
  ∀ p ∈ ps, ∀ q ∈ ps, d.contains p.1 → p.2 = q.1 → q.2 = q.1

/-- Moves that do not get in each other's way. -/
structure Unentangled (d : Dict α) (ps : List (EdgeId × EdgeId)) : Prop where
  onward : Onward d ps
  /-- Entries that are moved to one identifier are the same. -/
  agree : ∀ p ∈ ps, ∀ q ∈ ps, d.contains p.1 → d.contains q.1 → p.2 = q.2 → p.1 ≠ p.2 → q.1 ≠ q.2 →
    d.get? p.1 = d.get? q.1

lemma Onward.mono (h : Onward d ps) (hs : qs ⊆ ps) : Onward d qs :=
  fun p hp q hq => h p (hs hp) q (hs hq)

lemma Unentangled.mono (h : Unentangled d ps) (hs : qs ⊆ ps) : Unentangled d qs :=
  ⟨h.onward.mono hs, fun p hp q hq => h.agree p (hs hp) q (hs hq)⟩

/-- Of moves from different places the others come from other places than the first. -/
lemma fst_ne_of_nodup (hnd : ((p :: ps).map (·.1)).Nodup) (hq : q ∈ ps) : q.1 ≠ p.1 := by
  rw [List.map_cons, List.nodup_cons] at hnd
  exact fun he => hnd.1 (he ▸ List.mem_map_of_mem hq)

/-! ### After a move -/

/-- What is moved later is still where it was, for an entry that is moved to it would be moved twice. -/
lemma Onward.get?_move (h : Onward d (p :: ps)) (hnd : ((p :: ps).map (·.1)).Nodup) (hq : q ∈ ps) (hne : q.1 ≠ q.2) :
    (move d p.1 p.2).get? q.1 = d.get? q.1 := by
  by_cases hp : d.contains p.1 = true
  · refine get?_move_of_ne d (fst_ne_of_nodup hnd hq) fun he => hne ?_
    exact (h p List.mem_cons_self q (List.mem_cons_of_mem _ hq) hp he.symm).symm
  · rw [Calibration.get?_move, if_neg hp]

/-- A move to a place that nothing is moved from leaves what the later ones move. -/
lemma Onward.contains_move (h : Onward d (p :: ps)) (hnd : ((p :: ps).map (·.1)).Nodup) (hq : q ∈ ps)
    (hne : q.1 ≠ q.2) :
    (move d p.1 p.2).contains q.1 = d.contains q.1 := by
  rw [Dict.contains, Dict.contains, h.get?_move hnd hq hne]

/-- After the first move the others still lead to where none of them comes from. -/
lemma Onward.move (h : Onward d (p :: ps)) (hnd : ((p :: ps).map (·.1)).Nodup) : Onward (move d p.1 p.2) ps := by
  intro q hq r hr hc he
  have hps : ∀ {q}, q ∈ ps → q ∈ p :: ps := List.mem_cons_of_mem _
  by_cases hne : q.1 = q.2
  · obtain rfl := List.inj_on_of_nodup_map hnd (hps hq) (hps hr) (hne.trans he)
    exact hne.symm
  · exact h q (hps hq) r (hps hr) (h.contains_move hnd hq hne ▸ hc) he

/-- After the first move the others are still not entangled. -/
lemma Unentangled.move (h : Unentangled d (p :: ps)) (hnd : ((p :: ps).map (·.1)).Nodup) :
    Unentangled (move d p.1 p.2) ps := by
  refine ⟨h.onward.move hnd, fun q hq r hr hqc hrc he hqne hrne => ?_⟩
  rw [h.onward.contains_move hnd hq hqne] at hqc
  rw [h.onward.contains_move hnd hr hrne] at hrc
  rw [h.onward.get?_move hnd hq hqne, h.onward.get?_move hnd hr hrne]
  exact h.agree q (List.mem_cons_of_mem _ hq) r (List.mem_cons_of_mem _ hr) hqc hrc he hqne hrne

/-- What is moved last stays where it was until then. -/
lemma Onward.get?_moveAll (h : Onward d (p :: ps)) (hnd : ((p :: ps).map (·.1)).Nodup) (hne : p.1 ≠ p.2) :
    (moveAll d ps).get? p.1 = d.get? p.1 := by
  induction ps generalizing d with
  | nil => rfl
  | cons r ps ih =>
    have hswap : (r :: p :: ps).Perm (p :: r :: ps) := .swap p r ps
    have h' : Onward d (r :: p :: ps) := h.mono hswap.subset
    have hnd' : ((r :: p :: ps).map (·.1)).Nodup := (hswap.map _).nodup_iff.2 hnd
    exact (ih (h'.move hnd') (List.nodup_cons.1 hnd').2).trans (h'.get?_move hnd' List.mem_cons_self hne)

/-! ### Unentangled moves -/

/-- Two unentangled moves can be exchanged. -/
lemma Unentangled.comm (h : Unentangled d [p, q]) (hne : p.1 ≠ q.1) :
    Calibration.move (Calibration.move d p.1 p.2) q.1 q.2 = Calibration.move (Calibration.move d q.1 q.2) p.1 p.2 := by
  have hpq := h.onward p (by simp) q (by simp)
  have hqp := h.onward q (by simp) p (by simp)
  have hsame := h.agree p (by simp) q (by simp)
  -- which of the two entries there are, and whether an identifier is an old or a new one of the two moves
  refine Dict.ext_get? fun id => ?_
  simp only [Calibration.get?_move, Dict.contains] at *
  grind

/-- Moves that are not entangled can be made in any order. -/
lemma Unentangled.moveAll_perm (h : Unentangled d ps) (hnd : (ps.map (·.1)).Nodup) (hp : ps.Perm qs) :
    moveAll d ps = moveAll d qs := by
  induction hp generalizing d with
  | nil => rfl
  | cons p _ ih => exact ih (h.move hnd) (List.nodup_cons.1 hnd).2
  | swap p q ps =>
    have hcomm : Unentangled d [q, p] := h.mono (by simp)
    show moveAll (Calibration.move (Calibration.move d q.1 q.2) p.1 p.2) ps = _
    rw [hcomm.comm (fst_ne_of_nodup hnd List.mem_cons_self).symm]
    rfl
  | trans h₁ _ ih₁ ih₂ =>
    exact (ih₁ h hnd).trans (ih₂ (h.mono h₁.symm.subset) ((h₁.map _).nodup_iff.1 hnd))

/-! ### Entangled moves -/

/-- Two moves of a list can be brought to its front. -/
lemma exists_perm_pair (hp : p ∈ ps) (hq : q ∈ ps) (hne : p ≠ q) : ∃ rest, (p :: q :: rest).Perm ps := by
  refine ⟨(ps.erase p).erase q, ?_⟩
  have hq' : q ∈ ps.erase p := (List.mem_erase_of_ne hne.symm).2 hq
  exact ((List.perm_cons_erase hq').cons p).symm.trans (List.perm_cons_erase hp).symm

/-- An identifier is vacated by a move to another one. -/
lemma get?_move_old {old new : EdgeId} (hne : new ≠ old) : (move d old new).get? old = none := by
  rw [get?_move, if_neg hne.symm, if_pos rfl]
  split
  · rfl
  · exact Dict.get?_eq_none_iff.2 ‹_›

/-- An identifier is filled by a move of an entry. -/
lemma get?_move_new {old new : EdgeId} (hold : d.contains old) : (move d old new).get? new = d.get? old := by
  rw [get?_move, if_pos hold, if_pos rfl]

/-- Some moves after others are made one after the other. -/
lemma moveAll_append (d : Dict α) (ps qs : List (EdgeId × EdgeId)) : moveAll d (ps ++ qs) = moveAll (moveAll d ps) qs :=
  List.foldl_append ..

section Entangled

variable (hnd : (ps.map (·.1)).Nodup) (hall : ∀ {qs}, qs.Perm ps → moveAll d qs = moveAll d ps)

include hnd hall

/-- If an entry can be moved twice, it depends on the order whether the identifier in between is left vacant. -/
lemma onward_of_moveAll : Onward d ps := by
  intro p hp q hq hc he
  by_contra hself
  have hne : q ≠ p := by
    rintro rfl
    exact hself he
  obtain ⟨rest, hperm⟩ := exists_perm_pair hq hp hne
  have hnd' : ((q :: p :: rest).map (·.1)).Nodup := (hperm.map _).nodup_iff.2 hnd
  have hpq : p.1 ≠ q.1 := fst_ne_of_nodup hnd' List.mem_cons_self
  -- first the move from the identifier in between, then the move to it
  have hfirst : (moveAll d (q :: p :: rest)).contains q.1 := by
    have hmid : (moveAll d [q]).contains p.1 := contains_moveAll_of_ne (by simpa using hpq.symm) hc
    show (moveAll (move (moveAll d [q]) p.1 p.2) rest).contains q.1
    refine contains_moveAll_of_ne (fun r hr => fst_ne_of_nodup hnd' (List.mem_cons_of_mem _ hr)) ?_
    rw [Dict.contains, ← he, get?_move_new hmid]
    exact hmid
  -- the move from it last
  have hlast : (moveAll d (p :: rest ++ [q])).get? q.1 = none := by
    rw [moveAll_append]
    exact get?_move_old hself
  rw [hall hperm, Dict.contains, ← hall ((List.perm_append_singleton q (p :: rest)).trans hperm), hlast] at hfirst
  cases hfirst

/-- Of two entries that are moved to one identifier the later one is found there. -/
lemma agree_of_moveAll (hp : p ∈ ps) (hq : q ∈ ps) (hpc : d.contains p.1) (hqc : d.contains q.1) (he : p.2 = q.2)
    (hpne : p.1 ≠ p.2) (hqne : q.1 ≠ q.2) : d.get? p.1 = d.get? q.1 := by
  have honward := onward_of_moveAll hnd hall
  have hlater : ∀ {p q}, p ∈ ps → q ∈ ps → p ≠ q → d.contains q.1 → p.2 = q.2 → q.1 ≠ q.2 →
      (moveAll d ps).get? q.2 = d.get? q.1 := by
    intro p q hp hq hne hc he hself
    obtain ⟨rest, hperm⟩ := exists_perm_pair hq hp hne.symm
    have hget : (moveAll d (p :: rest)).get? q.1 = d.get? q.1 :=
      (honward.mono hperm.subset).get?_moveAll ((hperm.map _).nodup_iff.2 hnd) hself
    rw [← hall ((List.perm_append_singleton q (p :: rest)).trans hperm), moveAll_append]
    exact (get?_move_new (by rwa [Dict.contains, hget])).trans hget
  by_cases hne : p = q
  · rw [hne]
  · rw [← hlater hq hp (Ne.symm hne) hpc he.symm hpne, ← hlater hp hq hne hqc he hqne, he]

end Entangled

/-- Entries can be moved in any order exactly if the moves are unentangled. -/
lemma moveAll_perm_iff (d : Dict α) (renames : Dict EdgeId) :
    (∀ ps, ps.Perm renames.entries → moveAll d ps = moveAll d renames.entries) ↔ Unentangled d renames.entries := by
  have hnd : (renames.entries.map (·.1)).Nodup := Dict.keys_nodup renames
  constructor
  · intro hall
    exact ⟨onward_of_moveAll hnd (hall _), fun p hp q hq => agree_of_moveAll hnd (hall _) hp hq⟩
  · intro h ps hp
    exact (h.moveAll_perm hnd hp.symm).symm

/-- Renaming edges moves scales and layouts, and nothing else. -/
lemma renameAll_eq (c : Calibration) (ps : List (EdgeId × EdgeId)) :
    c.renameAll ps = ⟨moveAll c.scales ps, moveAll c.layouts ps⟩ := by
  rw [← scales_renameAll, ← layouts_renameAll]

/-- What is recorded can be renamed in any order exactly if the moves are unentangled, both for the scales and for the
layouts. -/
theorem rename_any_order_iff (c : Calibration) (renames : Dict EdgeId) :
    (∀ ps, ps.Perm renames.entries → c.renameAll ps = c.rename .ascending renames) ↔
      Unentangled c.scales renames.entries ∧ Unentangled c.layouts renames.entries := by
  rw [← moveAll_perm_iff, ← moveAll_perm_iff, ← forall_and]
  refine forall_congr' fun ps => ?_
  have hall : c.rename .ascending renames = c.renameAll renames.entries := rfl
  rw [← imp_and, hall, renameAll_eq, renameAll_eq, mk.injEq]

/-- Two edges to `x` with one layout. -/
def twoLaid : Calibration where
  layouts := Dict.ofList [("a->x", .nhwc), ("c->x", .nhwc)]

/-- The edges from `a` and `c` become those from `b` and `d`, and these become the one from `t`. -/
def relayed : Dict EdgeId :=
  Dict.ofList [("a->x", "b->x"), ("b->x", "t->x"), ("c->x", "d->x"), ("d->x", "t->x")]

/-- In one order the layout is moved on to the edge from `t`, in another one it is not. -/
theorem rename_any_order_relayed : ∃ ps, ps.Perm relayed.entries ∧
    (twoLaid.rename .ascending relayed).layouts.get? "t->x" = some .nhwc ∧
    (twoLaid.renameAll ps).layouts.get? "t->x" = none :=
  ⟨relayed.entries.reverse, List.reverse_perm _, by decide, by decide⟩

end OpGraph.Calibration
