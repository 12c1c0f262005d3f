import Mathlib
import OpGraph.Calibration.Store
import OpGraph.Proofs.Lookup

/-!
# Moving what is recorded

Entries that are moved one after the other, when none is moved to where another one is moved from: what is found under
an identifier afterwards was moved there, or it was there before.
-/

namespace OpGraph.Calibration

variable {α : Type}

variable {id : EdgeId}

/-- Setting a scale records it and nothing else. -/
lemma setScale_ok {c c' : Calibration} {values : List Float32} {bias : Bool}
    (h : c.setScale id values bias = .ok c') : c' = { c with scales := c.scales.insert id ⟨values, bias⟩ } := by
  unfold setScale at h
  split at h
  · cases h
  · cases h
    rfl

/-- Setting a layout records it and nothing else. -/
lemma setLayout_ok {c c' : Calibration} {l : Layout} (h : c.setLayout id l = .ok c') :
    c' = { c with layouts := c.layouts.insert id l } := by
  unfold setLayout at h
  split at h
  · cases h
  · cases h
    rfl

/-- Moves entries as a list of pairs says, one after the other. -/
def moveAll (d : Dict α) (ps : List (EdgeId × EdgeId)) : Dict α :=
  ps.foldl (fun d p => move d p.1 p.2) d

/-- Renaming edges moves the scales. -/
lemma scales_renameAll :
    ∀ (ps : List (EdgeId × EdgeId)) (c : Calibration), (c.renameAll ps).scales = moveAll c.scales ps
  | [], _ => rfl
  | p :: ps, c => scales_renameAll ps (c.moveEntry p.1 p.2)

/-- Renaming edges moves the layouts. -/
lemma layouts_renameAll :
    ∀ (ps : List (EdgeId × EdgeId)) (c : Calibration), (c.renameAll ps).layouts = moveAll c.layouts ps
  | [], _ => rfl
  | p :: ps, c => layouts_renameAll ps (c.moveEntry p.1 p.2)

/-- What is found after an entry was moved, if there was one to move. -/
lemma get?_move (d : Dict α) (old new id : EdgeId) :
    (move d old new).get? id =
      if d.contains old then if id = new then d.get? old else if id = old then none else d.get? id else d.get? id := by
  unfold move Dict.contains
  cases h : d.get? old with
  | none => rfl
  | some v => simp only [Option.isSome_some, ite_true, Dict.get?_insert, Dict.get?_erase]

/-- What is found under an identifier that nothing is moved from or to stays. -/
lemma get?_move_of_ne (d : Dict α) {old new : EdgeId} (hold : id ≠ old) (hnew : id ≠ new) :
    (move d old new).get? id = d.get? id := by
  rw [get?_move, if_neg hnew, if_neg hold, ite_self]

/-- What is recorded under an identifier that no entry is moved from or to stays as it is. -/
lemma get?_moveAll_of_ne :
    ∀ {ps : List (EdgeId × EdgeId)} {d : Dict α}, (∀ p ∈ ps, p.1 ≠ id ∧ p.2 ≠ id) → (moveAll d ps).get? id = d.get? id
  | [], _, _ => rfl
  | p :: ps, d, h => by
    rw [List.forall_mem_cons] at h
    exact (get?_moveAll_of_ne (d := move d p.1 p.2) h.2).trans (get?_move_of_ne d h.1.1.symm h.1.2.symm)

/-- The pairs that are taken up are those of the table, whatever the order. -/
lemma mem_arrange {ord : RenameOrder} {renamed : Dict EdgeId} {p : EdgeId × EdgeId} :
    p ∈ ord.arrange renamed.entries ↔ renamed.get? p.1 = some p.2 :=
  (ord.arrange_perm _).mem_iff.trans (Dict.get?_eq_some_iff renamed p.1 p.2).symm

/-- An order of no entries has none. -/
@[simp] lemma arrange_nil (ord : RenameOrder) : ord.arrange [] = [] :=
  (ord.arrange_perm []).eq_nil

/-- No old identifier is taken up twice. -/
lemma nodup_arrange (ord : RenameOrder) (renamed : Dict EdgeId) :
    ((ord.arrange renamed.entries).map (·.1)).Nodup :=
  ((ord.arrange_perm _).map _).nodup_iff.2 (Dict.keys_nodup renamed)

/-- What is found under an identifier that is neither old nor new stays. -/
lemma get?_moveAll_unmoved {ord : RenameOrder} {renamed : Dict EdgeId}
    (h : ∀ {b b'}, renamed.get? b = some b' → b ≠ id ∧ b' ≠ id) (d : Dict α) :
    (moveAll d (ord.arrange renamed.entries)).get? id = d.get? id :=
  get?_moveAll_of_ne fun _ hp => h (mem_arrange.1 hp)

/-- What is found after entries were moved under an identifier that none is moved from. -/
lemma get?_moveAll :
    ∀ {ps : List (EdgeId × EdgeId)} {d : Dict α}, (ps.map (·.1)).Nodup → (∀ p ∈ ps, ∀ q ∈ ps, p.2 ≠ q.1) →
      (∀ p ∈ ps, p.1 ≠ id) → (∃ p ∈ ps, p.2 = id ∧ d.contains p.1 ∧ (moveAll d ps).get? id = d.get? p.1) ∨
        (∀ p ∈ ps, p.2 = id → ¬ d.contains p.1) ∧ (moveAll d ps).get? id = d.get? id
  | [], d, _, _, _ => .inr ⟨by simp, rfl⟩
  | p :: ps, d, hnodup, hchain, hkey => by
    rw [List.map_cons, List.nodup_cons] at hnodup
    have hp := List.mem_cons_self (a := p) (l := ps)
    have hps : ∀ {q}, q ∈ ps → q ∈ p :: ps := List.mem_cons_of_mem _
    -- the entries that are moved later are still where they were
    have hlater : ∀ q ∈ ps, (move d p.1 p.2).get? q.1 = d.get? q.1 := by
      intro q hq
      have hold : q.1 ≠ p.1 := fun he => hnodup.1 (he ▸ List.mem_map_of_mem hq)
      exact get?_move_of_ne d hold fun he => hchain p hp q (hps hq) he.symm
    have hcontains : ∀ q ∈ ps, (move d p.1 p.2).contains q.1 = d.contains q.1 := by
      intro q hq
      rw [Dict.contains, Dict.contains, hlater q hq]
    have hid := get?_move d p.1 p.2 id
    rw [if_neg (hkey p hp).symm] at hid
    rcases get?_moveAll (d := move d p.1 p.2) hnodup.2 (fun a ha b hb => hchain a (hps ha) b (hps hb))
      (fun q hq => hkey q (hps hq)) with ⟨q, hq, hqid, hc, hget⟩ | ⟨hno, hget⟩
    · rw [hcontains q hq] at hc
      rw [hlater q hq] at hget
      exact .inl ⟨q, hps hq, hqid, hc, hget⟩
    · have hget : (moveAll d (p :: ps)).get? id = (move d p.1 p.2).get? id := hget
      by_cases hfirst : id = p.2 ∧ d.contains p.1
      · rw [if_pos hfirst.2, if_pos hfirst.1] at hid
        exact .inl ⟨p, hp, hfirst.1.symm, hfirst.2, hget.trans hid⟩
      · refine .inr ⟨?_, hget.trans (hid.trans ?_)⟩
        · rw [List.forall_mem_cons]
          refine ⟨fun he hc => hfirst ⟨he.symm, hc⟩, fun q hq he => ?_⟩
          rw [← hcontains q hq]
          exact hno q hq he
        · split
          · rename_i hc
            rw [if_neg fun he => hfirst ⟨he, hc⟩]
          · rfl

/-- What is found under an identifier after entries were moved depends on what is moved there and on what was there. -/
lemma get?_moveAll_congr :
    ∀ {ps : List (EdgeId × EdgeId)} {d d' : Dict α}, (ps.map (·.1)).Nodup → (∀ p ∈ ps, ∀ q ∈ ps, p.2 ≠ q.1) →
      (∀ p ∈ ps, p.1 ≠ id) → (∀ p ∈ ps, p.2 = id → d.get? p.1 = d'.get? p.1) → d.get? id = d'.get? id →
      (moveAll d ps).get? id = (moveAll d' ps).get? id
  | [], _, _, _, _, _, _, hid => hid
  | p :: ps, d, d', hnodup, hchain, hkey, hmoved, hid => by
    rw [List.map_cons, List.nodup_cons] at hnodup
    have hp := List.mem_cons_self (a := p) (l := ps)
    have hps : ∀ {q}, q ∈ ps → q ∈ p :: ps := List.mem_cons_of_mem _
    show (moveAll (move d p.1 p.2) ps).get? id = (moveAll (move d' p.1 p.2) ps).get? id
    refine get?_moveAll_congr hnodup.2
      (fun a ha b hb => hchain a (hps ha) b (hps hb)) (fun q hq => hkey q (hps hq)) (fun q hq he => ?_) ?_
    · have hold : q.1 ≠ p.1 := fun he => hnodup.1 (he ▸ List.mem_map_of_mem hq)
      have hnew : q.1 ≠ p.2 := fun he => hchain p hp q (hps hq) he.symm
      rw [get?_move_of_ne d hold hnew, get?_move_of_ne d' hold hnew]
      exact hmoved q (hps hq) he
    · by_cases he : p.2 = id
      · rw [get?_move, get?_move, Dict.contains, Dict.contains, hmoved p hp he, hid]
      · rw [get?_move_of_ne d (hkey p hp).symm (Ne.symm he), get?_move_of_ne d' (hkey p hp).symm (Ne.symm he)]
        exact hid

section Entries

variable {ord : RenameOrder} {renamed : Dict EdgeId}
  (h : ∀ {b id}, renamed.get? b = some id → renamed.get? id = none)

include h in
/-- No entry is moved to where another one is moved from. -/
lemma arrange_chain : ∀ p ∈ ord.arrange renamed.entries, ∀ q ∈ ord.arrange renamed.entries, p.2 ≠ q.1 := by
  intro p hp q hq he
  have hnone := h (mem_arrange.1 hp)
  rw [he, mem_arrange.1 hq] at hnone
  cases hnone

/-- No entry is moved from where nothing is moved from. -/
lemma arrange_ne (hid : renamed.get? id = none) : ∀ p ∈ ord.arrange renamed.entries, p.1 ≠ id := by
  intro p hp he
  rw [← he, mem_arrange.1 hp] at hid
  cases hid

include h in
/-- New identifiers, none of which is an old one: what is found afterwards under an identifier that is not an old one,
in whatever order they are taken up. -/
lemma get?_moveAll_arrange {d : Dict α} (hid : renamed.get? id = none) : (∃ b, renamed.get? b = some id ∧ d.contains b ∧
        (moveAll d (ord.arrange renamed.entries)).get? id = d.get? b) ∨
      (∀ b, renamed.get? b = some id → ¬ d.contains b) ∧
        (moveAll d (ord.arrange renamed.entries)).get? id = d.get? id := by
  rcases get?_moveAll (d := d) (nodup_arrange ord renamed) (arrange_chain h) (arrange_ne hid) with
    ⟨p, hp, rfl, hc, hv⟩ | ⟨hno, hv⟩
  · exact .inl ⟨p.1, mem_arrange.1 hp, hc, hv⟩
  · exact .inr ⟨fun b hb => hno (b, id) (mem_arrange.2 hb) rfl, hv⟩

include h in
/-- What is found at a place after moves depends only on what was there and on what was moved to it. -/
lemma get?_moveAll_arrange_congr {d d' : Dict α} (hid : renamed.get? id = none)
    (hmoved : ∀ b, renamed.get? b = some id → d.get? b = d'.get? b) (hsame : d.get? id = d'.get? id) :
    (moveAll d (ord.arrange renamed.entries)).get? id = (moveAll d' (ord.arrange renamed.entries)).get? id :=
  get?_moveAll_congr (nodup_arrange ord renamed) (arrange_chain h) (arrange_ne hid)
    (fun p hp he => hmoved p.1 (he ▸ mem_arrange.1 hp)) hsame

end Entries

/-- What is recorded under an identifier that nothing is moved from stays recorded, perhaps as something else. -/
lemma contains_moveAll_of_ne :
    ∀ {ps : List (EdgeId × EdgeId)} {d : Dict α}, (∀ p ∈ ps, p.1 ≠ id) → d.contains id → (moveAll d ps).contains id
  | [], _, _, hc => hc
  | p :: ps, d, h, hc => by
    rw [List.forall_mem_cons] at h
    refine contains_moveAll_of_ne (d := move d p.1 p.2) h.2 ?_
    rw [Dict.contains, get?_move]
    split
    · rename_i hp
      split
      · exact hp
      · rwa [if_neg h.1.symm]
    · exact hc

/-- What is recorded under an identifier that nothing is moved from stays recorded, in whatever order the others are
moved. -/
lemma contains_moveAll (ord : RenameOrder) {renamed : Dict EdgeId} {d : Dict α}
    (hid : renamed.get? id = none) (hc : d.contains id) : (moveAll d (ord.arrange renamed.entries)).contains id :=
  contains_moveAll_of_ne (arrange_ne hid) hc

end OpGraph.Calibration
