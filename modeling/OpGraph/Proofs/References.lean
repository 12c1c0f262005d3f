import Mathlib
import OpGraph.Proofs.Network.Interludes

/-!
# Counted references

Each weight block counts how often it is referred to, and the last reference that goes takes it out of its pool. A
network that is made a copy of another one refers to the blocks of the other before it releases its own, so the count of
a block that both refer to does not pass through zero. As long as networks alone refer to blocks, the count of a block
is the number of networks that list it.
-/

namespace OpGraph

variable {b : Block} {bs : List BlockRef} {c : BlockRef}

/-! ### Depots -/

namespace Depot

variable {d d' d'' : Depot} {c r : BlockRef}

/-- Modifying a block changes that block and no other one. -/
@[simp] lemma block?_modify (d : Depot) (r c : BlockRef) (f : Block → Block) :
    (d.modify r f).block? c = if c = r then (d.block? c).map f else d.block? c := by
  unfold modify
  cases hb : d.block? r with
  | none =>
    by_cases hc : c = r
    · rw [if_pos hc, hc, hb]
      rfl
    · rw [if_neg hc]
  | some b =>
    have hr : r < d.blocks.length := (List.getElem?_eq_some_iff.1 hb).1
    show (d.blocks.set r (f b))[c]? = _
    rw [List.getElem?_set, if_pos hr]
    by_cases hc : c = r
    · rw [if_pos hc.symm, if_pos hc, hc, hb]
      rfl
    · rw [if_neg (Ne.symm hc), if_neg hc]
      rfl

/-- Modifying a block leaves the pools as they are. -/
@[simp] lemma pool_modify (d : Depot) (r : BlockRef) (f : Block → Block) (p : String) :
    (d.modify r f).pool p = d.pool p := by
  unfold modify
  split <;> rfl

/-- Setting the entries of one pool leaves all other pools as they are. -/
lemma pool_insert (d : Depot) (p q : String) (entries : Dict BlockRef) :
    ({ d with pools := d.pools.insert p entries } : Depot).pool q = if q = p then entries else d.pool q := by
  simp only [pool, Dict.getD, Dict.get?_insert]
  by_cases hq : q = p
  · rw [if_pos hq, if_pos hq]
    rfl
  · rw [if_neg hq, if_neg hq]

/-- A block that was added is found under its reference. -/
lemma block?_add (d : Depot) (b : Block) : (d.add b).1.block? (d.add b).2 = some b :=
  List.getElem?_concat_length

/-- Adding a block leaves those that are there. -/
lemma block?_add_of_some (h : d.block? c = some b) (b' : Block) : (d.add b').1.block? c = some b := by
  have hlt : c < d.blocks.length := (List.getElem?_eq_some_iff.1 h).1
  exact (List.getElem?_append_left hlt).trans h

/-- Retaining distinct blocks counts one more reference to each of them. -/
lemma block?_foldl_retain (hnd : bs.Nodup) (d : Depot) (c : BlockRef) :
    (bs.foldl retain d).block? c = (d.block? c).map fun b => if c ∈ bs then { b with refs := b.refs + 1 } else b := by
  induction bs generalizing d with
  | nil => simp
  | cons r bs ih =>
    obtain ⟨hr, hnd⟩ := List.nodup_cons.1 hnd
    rw [List.foldl_cons, ih hnd, retain, block?_modify]
    by_cases hc : c = r
    · subst hc
      simp [hr, Function.comp_def]
    · simp [hc]

/-- Retaining blocks leaves the pools as they are. -/
@[simp] lemma pool_foldl_retain (bs : List BlockRef) (d : Depot) (p : String) :
    (bs.foldl retain d).pool p = d.pool p := by
  induction bs generalizing d with
  | nil => rfl
  | cons r bs ih => rw [List.foldl_cons, ih, retain, pool_modify]

/-- The entry of a pool is a block that loses its last reference, and the pool owns it. -/
def Ends (d : Depot) (p id : String) (c : BlockRef) : Prop :=
  ∃ b, d.block? c = some b ∧ b.refs - 1 = 0 ∧ b.owner = some p ∧ b.id = id

/-- What releasing blocks does: each of them is referred to once less, and what has lost its last reference leaves the
pool that owns it. -/
structure Released (d : Depot) (bs : List BlockRef) (d' : Depot) : Prop where
  block : ∀ c, d'.block? c = (d.block? c).map fun b => if c ∈ bs then { b with refs := b.refs - 1 } else b
  entry : ∀ p id c, (d'.pool p).get? id = some c ↔ (d.pool p).get? id = some c ∧ ¬ (c ∈ bs ∧ d.Ends p id c)

lemma Released.nil (d : Depot) : Released d [] d where
  block := by simp
  entry := by simp

/-- Releasing a block and then others releases all of them. -/
lemma Released.cons (hr : r ∉ bs) (h : Released d [r] d') (h' : Released d' bs d'') : Released d (r :: bs) d'' where
  block := by
    intro c
    rw [h'.block, h.block]
    by_cases hc : c = r
    · subst hc
      simp [hr, Function.comp_def]
    · simp [hc]
  entry := by
    intro p id c
    have hends : c ∈ bs → (d'.Ends p id c ↔ d.Ends p id c) := by
      intro hc
      have hne : c ≠ r := fun e => hr (e ▸ hc)
      rw [Ends, Ends, h.block]
      simp [hne]
    rw [h'.entry, h.entry, List.mem_singleton, List.mem_cons]
    tauto

/-- Taking a block out of a pool takes away its entry under that name and no other one. -/
lemma get?_pool_unfile (d : Depot) (r : BlockRef) (id p q k : String) (c : BlockRef) :
    ((d.unfile r id p).pool q).get? k = some c ↔ (d.pool q).get? k = some c ∧ ¬ (c = r ∧ q = p ∧ k = id) := by
  unfold unfile
  split
  · rename_i hr
    rw [pool_insert]
    by_cases hq : q = p
    · subst hq
      rw [if_pos rfl, Dict.get?_erase]
      by_cases hk : k = id
      · subst hk
        rw [if_pos rfl, hr]
        simp [eq_comm]
      · simp [hk]
    · simp [hq]
  · rename_i hr
    refine ⟨fun h => ⟨h, ?_⟩, fun h => h.1⟩
    rintro ⟨rfl, rfl, rfl⟩
    exact hr h

/-- A block can be released as long as its count does not fall below zero. -/
lemma release_ok (h : ∀ b, d.block? r = some b → 0 ≤ b.refs - 1) :
    ∃ d', d.release r = (d', none) ∧ Released d [r] d' := by
  unfold release
  cases hb : d.block? r with
  | none =>
    refine ⟨d, rfl, fun c => ?_, fun p id c => ?_⟩
    · by_cases hc : c = r
      · subst hc
        rw [hb]
        rfl
      · simp [hc]
    · refine ⟨fun h => ⟨h, ?_⟩, fun h => h.1⟩
      rintro ⟨hc, b, hb', -⟩
      rw [List.mem_singleton.1 hc, hb] at hb'
      cases hb'
  | some b =>
    -- the count goes down whether or not the block leaves its pool
    have hblock : ∀ c, (d.modify r fun b' => { b' with refs := b.refs - 1 }).block? c =
        (d.block? c).map fun b => if c ∈ [r] then { b with refs := b.refs - 1 } else b := by
      intro c
      rw [block?_modify]
      by_cases hc : c = r
      · subst hc
        simp [hb]
      · simp [hc]
    have hends : ∀ p id c, c ∈ [r] ∧ d.Ends p id c ↔ c = r ∧ b.refs - 1 = 0 ∧ b.owner = some p ∧ b.id = id := by
      intro p id c
      rw [List.mem_singleton, Ends]
      constructor
      · rintro ⟨rfl, b', hb', hlast⟩
        cases hb.symm.trans hb'
        exact ⟨rfl, hlast⟩
      · rintro ⟨rfl, hlast⟩
        exact ⟨rfl, b, hb, hlast⟩
    dsimp only
    by_cases hzero : b.refs - 1 = 0
    · rw [if_pos hzero]
      cases ho : b.owner with
      | none =>
        refine ⟨_, rfl, hblock, fun p id c => ?_⟩
        rw [hends, pool_modify, ho]
        simp
      | some p =>
        refine ⟨_, rfl, fun c => ?_, fun q k c => ?_⟩
        · rw [← hblock, block?, block?, unfile]
          split <;> rfl
        · rw [hends, get?_pool_unfile, pool_modify, ho]
          simp [hzero, eq_comm]
    · rw [if_neg hzero, if_neg (Int32.not_lt.2 (h b hb))]
      refine ⟨_, rfl, hblock, fun p id c => ?_⟩
      rw [hends, pool_modify]
      simp [hzero]

/-- Distinct blocks whose counts do not fall below zero can all be released. -/
lemma releaseAll_ok (hnd : bs.Nodup) (h : ∀ c ∈ bs, ∀ b, d.block? c = some b → 0 ≤ b.refs - 1) :
    ∃ d', d.releaseAll bs = (d', none) ∧ Released d bs d' := by
  induction bs generalizing d with
  | nil => exact ⟨d, rfl, .nil d⟩
  | cons r bs ih =>
    obtain ⟨hr, hnd⟩ := List.nodup_cons.1 hnd
    obtain ⟨d₁, h₁, hd₁⟩ := release_ok (h r List.mem_cons_self)
    -- the others have not been touched yet
    have hrest : ∀ c ∈ bs, ∀ b, d₁.block? c = some b → 0 ≤ b.refs - 1 := by
      intro c hc b hb
      have hne : c ≠ r := fun e => hr (e ▸ hc)
      apply h c (List.mem_cons_of_mem _ hc)
      simpa [hd₁.block, hne] using hb
    obtain ⟨d₂, h₂, hd₂⟩ := ih hnd hrest
    refine ⟨d₂, ?_, hd₁.cons hr hd₂⟩
    rw [releaseAll, h₁]
    exact h₂

/-- A block is filed under its name if nothing is filed there yet. -/
lemma register_ok {p : String} (h : d.register c p = .ok d') :
    d' = d ∨ ∃ b, d.block? c = some b ∧ (d.pool p).get? b.id = none ∧
      (∀ x, d'.block? x = if x = c then (d.block? x).map fun b => { b with owner := some p } else d.block? x) ∧
      ∀ q id, (d'.pool q).get? id = if q = p ∧ id = b.id then some c else (d.pool q).get? id := by
  unfold register at h
  cases hb : d.block? c with
  | none =>
    rw [hb] at h
    cases h
    exact .inl rfl
  | some b =>
    rw [hb] at h
    dsimp only at h
    split at h
    · cases h
    · rename_i hfree
      cases h
      refine .inr ⟨b, rfl, Dict.get?_eq_none_iff.2 hfree, fun x => block?_modify _ c x _, fun q id => ?_⟩
      rw [pool_modify, pool_insert]
      by_cases hq : q = p
      · subst hq
        simp
      · simp [hq]

end Depot

/-! ### Networks that refer to a block -/

namespace Workspace

variable {w w' : Workspace} {r s : NetworkRef} {n m : Network}

/-- The number of networks that list a block. -/
def holders (w : Workspace) (c : BlockRef) : Nat :=
  w.networks.countP (c ∈ ·.blocks)

/-- The counts of blocks are exact, and networks and pools list blocks that there are. -/
structure Counted (w : Workspace) : Prop where
  refs : ∀ {c b}, w.depot.block? c = some b → b.refs = .ofNat (w.holders c)
  known : ∀ {n}, n ∈ w.networks → ∀ {c}, c ∈ n.blocks → ∃ b, w.depot.block? c = some b
  nodup : ∀ {n}, n ∈ w.networks → n.blocks.Nodup
  filed : ∀ {p id c}, (w.depot.pool p).get? id = some c → ∃ b, w.depot.block? c = some b ∧ b.id = id

/-- There are no more references to any block than can be counted. -/
def Bounded (w : Workspace) : Prop :=
  ∀ c, w.holders c < 2 ^ 31

/-- A network that is found is one of the workspace. -/
lemma mem_networks (h : w.network? r = some n) : n ∈ w.networks :=
  List.mem_of_getElem? h

/-- A block that a network lists has a holder. -/
lemma holders_pos (h : w.network? r = some n) (hc : c ∈ n.blocks) : 0 < w.holders c :=
  List.countP_pos_iff.2 ⟨n, mem_networks h, decide_eq_true hc⟩

/-- The holders of a block after one network was replaced by another one. -/
lemma holders_set (h : w.network? r = some n) (hw : w'.networks = w.networks.set r m) (c : BlockRef) :
    w'.holders c = w.holders c - (if c ∈ n.blocks then 1 else 0) + if c ∈ m.blocks then 1 else 0 := by
  obtain ⟨hr, rfl⟩ := List.getElem?_eq_some_iff.1 h
  rw [holders, hw, List.countP_set hr]
  simp [holders]

/-- A reference that is added and one that is taken away are counted exactly, even where the count overflows in
between. -/
lemma ofNat_exchange {k : Nat} {p q : Prop} [Decidable p] [Decidable q] (h : p → 0 < k) :
    (if p then (if q then Int32.ofNat k + 1 else .ofNat k) - 1 else if q then Int32.ofNat k + 1 else .ofNat k) =
      Int32.ofNat (k - (if p then 1 else 0) + if q then 1 else 0) := by
  by_cases hp : p
  · obtain ⟨j, rfl⟩ := Nat.exists_eq_add_of_lt (h hp)
    by_cases hq : q <;> simp [hp, hq, Int32.ofNat_add]
  · by_cases hq : q <;> simp [hp, hq, Int32.ofNat_add]

/-! ### Exchanging blocks -/

/-- A network becomes another one, for which it refers to the blocks `taken` and then releases the blocks `given`. -/
structure Exchanges (w : Workspace) (r : NetworkRef) (taken given : List BlockRef) (w' : Workspace) (n m : Network) :
    Prop where
  network : w.network? r = some n
  networks : w'.networks = w.networks.set r m
  released : Depot.Released (taken.foldl Depot.retain w.depot) given w'.depot
  known : ∀ {c}, c ∈ taken → ∃ b, w.depot.block? c = some b
  nodup : taken.Nodup
  nodup' : m.blocks.Nodup
  listed : ∀ {c}, c ∈ given → c ∈ n.blocks
  balance : ∀ c, (if c ∈ given then 1 else 0) + (if c ∈ m.blocks then 1 else 0) =
    (if c ∈ n.blocks then 1 else 0) + if c ∈ taken then 1 else 0

/-- A workspace stays as it is, or a network of it exchanges blocks. -/
def Trades (w w' : Workspace) : Prop :=
  w' = w ∨ ∃ r taken given n m, Exchanges w r taken given w' n m

namespace Counted

/-- What is left of the count of a block that is released is the number of networks that still list it. -/
lemma left_eq (hw : w.Counted) (hn : w.network? r = some n) (hnd : bs.Nodup)
    (hc : c ∈ n.blocks) (hb : (bs.foldl Depot.retain w.depot).block? c = some b) :
    b.refs - 1 = .ofNat (w.holders c - 1 + if c ∈ bs then 1 else 0) := by
  rw [Depot.block?_foldl_retain hnd, Option.map_eq_some_iff] at hb
  obtain ⟨b, hb, rfl⟩ := hb
  have hx := @ofNat_exchange (w.holders c) (c ∈ n.blocks) (c ∈ bs) _ _ (holders_pos hn)
  rw [if_pos hc, if_pos hc, ← hw.refs hb] at hx
  rw [← hx]
  by_cases hc : c ∈ bs <;> simp [hc]

/-- Blocks that a network lists can be released. -/
lemma releaseAll (hw : w.Counted) (hlt : w.Bounded) (hn : w.network? r = some n) (hnd : bs.Nodup) :
    ∃ d, (bs.foldl Depot.retain w.depot).releaseAll n.blocks = (d, none) ∧
      Depot.Released (bs.foldl Depot.retain w.depot) n.blocks d := by
  apply Depot.releaseAll_ok (hw.nodup (mem_networks hn))
  intro c hc b hb
  have hpos := holders_pos hn hc
  have hlt := hlt c
  -- a block that is taken as well may have been counted past the bound, but not by more than one
  have hleft : w.holders c - 1 + (if c ∈ bs then 1 else 0) < 2 ^ 31 := by
    split <;> omega
  rw [hw.left_eq hn hnd hc hb, Int32.le_iff_toInt_le, Int32.toInt_ofNat_of_lt hleft]
  exact Int.natCast_nonneg _

/-- In a counted workspace cleaning a network does not fail, and it trades blocks at most. -/
lemma clean (hw : w.Counted) (hlt : w.Bounded) (r : NetworkRef) : (w.clean r).2 = none ∧ Trades w (w.clean r).1 := by
  unfold Workspace.clean
  cases hn : w.network? r with
  | none => exact ⟨rfl, .inl rfl⟩
  | some n =>
    obtain ⟨d, hd, hrel⟩ := hw.releaseAll hlt hn List.nodup_nil
    rw [List.foldl_nil] at hd
    dsimp only
    rw [hd]
    refine ⟨rfl, .inr ⟨r, [], n.blocks, n, _, hn, rfl, hrel, ?_, List.nodup_nil, List.nodup_nil, fun hc => hc,
      fun c => rfl⟩⟩
    intro c hc
    cases hc

/-- In a counted workspace copying a network over another one does not fail, and it trades blocks at most. -/
lemma copyFrom (hw : w.Counted) (hlt : w.Bounded) (r s : NetworkRef) :
    (w.copyFrom r (some s)).2 = none ∧ Trades w (w.copyFrom r (some s)).1 := by
  unfold Workspace.copyFrom
  dsimp only
  split
  · exact ⟨rfl, .inl rfl⟩
  · split
    · rename_i n other hn hother
      have hnd := hw.nodup (mem_networks hother)
      obtain ⟨d, hd, hrel⟩ := hw.releaseAll hlt hn hnd
      rw [hd]
      refine ⟨rfl, .inr ⟨r, other.blocks, n.blocks, n, _, hn, rfl, hrel, ?_, hnd, hnd, fun hc => hc, fun c => rfl⟩⟩
      intro c hc
      exact hw.known (mem_networks hother) hc
    · exact ⟨rfl, .inl rfl⟩

/-- A network takes on a block only if it does not list it yet. -/
lemma registerBlock (hw : w.Counted) {block : Option BlockRef} (h : w.registerBlock r block = .ok w') :
    Trades w w' := by
  rcases registerBlock_ok h with ⟨-, rfl⟩ | ⟨n, c, b, -, hn, hb, hc, rfl⟩
  · exact .inl rfl
  · have hnd : (n.blocks ++ [c]).Nodup :=
      (hw.nodup (mem_networks hn)).append (List.nodup_singleton c) (List.disjoint_singleton.2 hc)
    refine .inr ⟨r, [c], [], n, _, hn, rfl, .nil _, ?_, List.nodup_singleton c, hnd, ?_, ?_⟩
    · intro x hx
      rw [List.mem_singleton.1 hx]
      exact ⟨b, hb⟩
    · intro x hx
      cases hx
    · intro x
      by_cases hx : x = c
      · subst hx
        simp [hc]
      · simp [hx]

end Counted

namespace Exchanges

variable {taken given : List BlockRef}

/-- An exchange takes a holder from each block that is given and adds one to each that is taken. -/
lemma holders_eq (h : Exchanges w r taken given w' n m) (c : BlockRef) :
    w'.holders c = w.holders c - (if c ∈ given then 1 else 0) + if c ∈ taken then 1 else 0 := by
  have hset := holders_set h.network h.networks c
  have hbal := h.balance c
  by_cases hn : c ∈ n.blocks
  · have hpos := holders_pos h.network hn
    rw [if_pos hn] at hset hbal
    by_cases hg : c ∈ given
    · rw [if_pos hg] at hbal ⊢
      omega
    · rw [if_neg hg] at hbal ⊢
      omega
  · have hg : c ∉ given := fun hg => hn (h.listed hg)
    rw [if_neg hn] at hset hbal
    rw [if_neg hg] at hbal ⊢
    omega

/-- The count of each block after an exchange. -/
lemma block (h : Exchanges w r taken given w' n m) (hb : w.depot.block? c = some b) :
    ∃ b', w'.depot.block? c = some b' ∧ b'.id = b.id ∧ b'.refs =
      if c ∈ given then (if c ∈ taken then b.refs + 1 else b.refs) - 1
      else if c ∈ taken then b.refs + 1 else b.refs := by
  rw [h.released.block, Depot.block?_foldl_retain h.nodup, hb]
  refine ⟨_, rfl, ?_⟩
  by_cases hg : c ∈ given <;> by_cases ht : c ∈ taken <;> simp [hg, ht]

/-- An exchange keeps the counts exact. -/
lemma counted (h : Exchanges w r taken given w' n m) (hw : w.Counted) : w'.Counted := by
  have hmem : ∀ {k}, k ∈ w'.networks → k ∈ w.networks ∨ k = m := by
    intro k hk
    rw [h.networks] at hk
    exact List.mem_or_eq_of_mem_set hk
  constructor
  · intro c b' hb'
    cases hb : w.depot.block? c with
    | none => simp [h.released.block, Depot.block?_foldl_retain h.nodup, hb] at hb'
    | some b =>
      obtain ⟨b'', hb'', -, hrefs⟩ := h.block hb
      cases hb'.symm.trans hb''
      rw [hrefs, hw.refs hb, h.holders_eq]
      exact ofNat_exchange fun hg => holders_pos h.network (h.listed hg)
  · intro k hk c hc
    have hb : ∃ b, w.depot.block? c = some b := by
      rcases hmem hk with hk | rfl
      · exact hw.known hk hc
      · -- what the network lists it listed before, or it was taken
        have hbal := h.balance c
        by_cases hn : c ∈ n.blocks
        · exact hw.known (mem_networks h.network) hn
        · apply h.known
          by_contra ht
          simp [hc, hn, ht] at hbal
    obtain ⟨b, hb⟩ := hb
    obtain ⟨b', hb', -⟩ := h.block hb
    exact ⟨b', hb'⟩
  · intro k hk
    rcases hmem hk with hk | rfl
    · exact hw.nodup hk
    · exact h.nodup'
  · intro p id c hp
    rw [h.released.entry, Depot.pool_foldl_retain] at hp
    obtain ⟨b, hb, rfl⟩ := hw.filed hp.1
    obtain ⟨b', hb', hid, -⟩ := h.block hb
    exact ⟨b', hb', hid⟩

end Exchanges

/-- An entry of a pool goes exactly when the pool owns the block and the last network that lists it no longer does. -/
def Leaves (w w' : Workspace) : Prop :=
  ∀ p id c, (w.depot.pool p).get? id = some c → ((w'.depot.pool p).get? id ≠ some c ↔
    0 < w.holders c ∧ w'.holders c = 0 ∧ ∃ b, w.depot.block? c = some b ∧ b.owner = some p)

/-- Where no entry goes, no block loses its last network. -/
lemma Leaves.of_le (hp : ∀ {p id c}, (w.depot.pool p).get? id = some c → (w'.depot.pool p).get? id = some c)
    (hh : ∀ c, w.holders c ≤ w'.holders c) : Leaves w w' := by
  intro p id c hc
  have hle := hh c
  constructor
  · intro hne
    exact absurd (hp hc) hne
  · rintro ⟨hpos, hzero, -⟩
    omega

lemma Leaves.refl (w : Workspace) : Leaves w w :=
  .of_le (fun h => h) fun _ => le_rfl

/-- In an exchange an entry of a pool goes exactly when the last holder of an owned block lets go of it. -/
lemma Exchanges.leaves {taken given : List BlockRef} (h : Exchanges w r taken given w' n m) (hw : w.Counted)
    (hlt : w.Bounded) : Leaves w w' := by
  intro p id c hp
  obtain ⟨b, hb, hid⟩ := hw.filed hp
  have hset := h.holders_eq c
  -- the count reaches zero in the middle of the exchange only if nobody lists the block at its end
  have hends : c ∈ given → ((taken.foldl Depot.retain w.depot).Ends p id c ↔ w'.holders c = 0 ∧ b.owner = some p) := by
    intro hc
    obtain ⟨b', hb', hrest⟩ : ∃ b', (taken.foldl Depot.retain w.depot).block? c = some b' ∧
        b'.owner = b.owner ∧ b'.id = b.id := by
      rw [Depot.block?_foldl_retain h.nodup, hb]
      refine ⟨_, rfl, ?_⟩
      by_cases ht : c ∈ taken <;> simp [ht]
    have hpos := holders_pos h.network (h.listed hc)
    have hlt := hlt c
    rw [if_pos hc] at hset
    have hzero : b'.refs - 1 = 0 ↔ w'.holders c = 0 := by
      have hlt' : w'.holders c < 2 ^ 31 := by
        rw [hset]
        split <;> omega
      rw [hw.left_eq h.network h.nodup (h.listed hc) hb', ← hset, ← Int32.toInt_inj, Int32.toInt_ofNat_of_lt hlt',
        Int32.toInt_zero]
      exact Int.natCast_eq_zero
    simp only [Depot.Ends, hb', Option.some.injEq, exists_eq_left', hzero, hrest, hid, and_true]
  rw [Ne, h.released.entry, Depot.pool_foldl_retain, not_and_not_right]
  constructor
  · intro hgone
    obtain ⟨hc, he⟩ := hgone hp
    obtain ⟨hzero, ho⟩ := (hends hc).1 he
    exact ⟨holders_pos h.network (h.listed hc), hzero, b, hb, ho⟩
  · rintro ⟨hpos, hzero, b', hb', ho⟩ -
    cases hb.symm.trans hb'
    have hc : c ∈ given := by
      by_contra hc
      rw [if_neg hc] at hset
      omega
    exact ⟨hc, (hends hc).2 ⟨hzero, ho⟩⟩

/-- Trading blocks keeps the counts exact, and entries of pools go with the last holder. -/
lemma Trades.counted (h : Trades w w') (hw : w.Counted) (hlt : w.Bounded) : w'.Counted ∧ Leaves w w' := by
  rcases h with rfl | ⟨r, taken, given, n, m, hx⟩
  · exact ⟨hw, .refl _⟩
  · exact ⟨hx.counted hw, hx.leaves hw hlt⟩

/-! ### Calls that handle blocks -/

/-- One call that makes a network or a block, files a block, makes a network refer to one, or copies or cleans a
network; or any other one that leaves alone what networks refer to. -/
inductive Handles : Workspace → Workspace → Prop where
  | newNetwork (w : Workspace) (name : String) (library : Option LibraryRef) : Handles w (w.newNetwork name library).1
  | newBlock (w : Workspace) {b : Block} (hb : b.refs = 0) : Handles w { w with depot := (w.depot.add b).1 }
  | file {w : Workspace} {c : BlockRef} {p : String} {depot : Depot} (h : w.depot.register c p = .ok depot) :
      Handles w { w with depot }
  | refer {w w' : Workspace} {r : NetworkRef} {block : Option BlockRef} (h : w.registerBlock r block = .ok w') :
    Handles w w'
  | copyFrom (w : Workspace) (r : NetworkRef) (source : Option NetworkRef) : Handles w (w.copyFrom r source).1
  | clean (w : Workspace) (r : NetworkRef) : Handles w (w.clean r).1
  | aside {w w' : Workspace} (hd : w'.depot = w.depot) (hb : w'.networks.map (·.blocks) = w.networks.map (·.blocks)) :
      Handles w w'

namespace Counted

/-- Only what networks refer to matters of them. -/
lemma of_depot (hw : w.Counted) (hd : w'.depot = w.depot) (hh : ∀ c, w'.holders c = w.holders c)
    (hmem : ∀ n ∈ w'.networks, n.blocks = [] ∨ ∃ m ∈ w.networks, m.blocks = n.blocks) : w'.Counted ∧ Leaves w w' := by
  refine ⟨⟨?_, ?_, ?_, ?_⟩, Leaves.of_le ?_ fun c => (hh c).ge⟩
  · intro c b hb
    rw [hh]
    exact hw.refs (hd ▸ hb)
  · intro n hn c hc
    rw [hd]
    rcases hmem n hn with he | ⟨m, hm, he⟩
    · rw [he] at hc
      cases hc
    · exact hw.known hm (he ▸ hc)
  · intro n hn
    rcases hmem n hn with he | ⟨m, hm, he⟩
    · rw [he]
      exact List.nodup_nil
    · exact he ▸ hw.nodup hm
  · rw [hd]
    exact hw.filed
  · intro p id c hp
    rw [hd]
    exact hp

/-- What touches neither the depot nor the blocks that networks list keeps the counts exact. -/
lemma aside (hw : w.Counted) (hd : w'.depot = w.depot) (hb : w'.networks.map (·.blocks) = w.networks.map (·.blocks)) :
    w'.Counted ∧ Leaves w w' := by
  apply hw.of_depot hd
  · intro c
    have hmap : ∀ v : Workspace, v.holders c = (v.networks.map (·.blocks)).countP (c ∈ ·) := by
      intro v
      rw [List.countP_map]
      rfl
    rw [hmap, hmap, hb]
  · intro n hn
    have hmem : n.blocks ∈ w'.networks.map (·.blocks) := List.mem_map_of_mem hn
    rw [hb] at hmem
    exact .inr (List.mem_map.1 hmem)

/-- A new network that lists no blocks keeps the counts exact. -/
lemma append (hw : w.Counted) (hd : w'.depot = w.depot) (hn : w'.networks = w.networks ++ [m]) (hm : m.blocks = []) :
    w'.Counted ∧ Leaves w w' := by
  apply hw.of_depot hd
  · intro c
    simp [holders, hn, hm]
  · intro k hk
    rw [hn, List.mem_append, List.mem_singleton] at hk
    rcases hk with hk | rfl
    · exact .inr ⟨k, hk, rfl⟩
    · exact .inl hm

/-- A new block has a place that nobody refers to. -/
lemma newBlock (hw : w.Counted) (hb : b.refs = 0) :
    Counted { w with depot := (w.depot.add b).1 } ∧ Leaves w { w with depot := (w.depot.add b).1 } := by
  have hkeep : ∀ {c x}, w.depot.block? c = some x → (w.depot.add b).1.block? c = some x :=
    fun hx => Depot.block?_add_of_some hx b
  refine ⟨⟨?_, ?_, hw.nodup, ?_⟩, Leaves.of_le (fun h => h) fun c => le_rfl⟩
  · intro c x hx
    cases hc : w.depot.block? c with
    | some y =>
      cases (hkeep hc).symm.trans hx
      exact hw.refs hc
    | none =>
      have hzero : w.holders c = 0 := by
        rw [holders, List.countP_eq_zero]
        intro n hn hmem
        obtain ⟨y, hy⟩ := hw.known hn (of_decide_eq_true hmem)
        cases hc.symm.trans hy
      have hle : w.depot.blocks.length ≤ c := List.getElem?_eq_none_iff.1 hc
      have hx : [b][c - w.depot.blocks.length]? = some x := (List.getElem?_append_right hle).symm.trans hx
      rw [List.getElem?_singleton, Option.ite_none_right_eq_some] at hx
      cases hx.2
      show b.refs = .ofNat (w.holders c)
      rw [hb, hzero]
      rfl
  · intro n hn c hc
    obtain ⟨x, hx⟩ := hw.known hn hc
    exact ⟨x, hkeep hx⟩
  · intro p id c hp
    obtain ⟨x, hx, hid⟩ := hw.filed hp
    exact ⟨x, hkeep hx, hid⟩

/-- A block is filed where nothing was. -/
lemma file (hw : w.Counted) {p : String} {d : Depot} (h : w.depot.register c p = .ok d) :
    Counted { w with depot := d } ∧ Leaves w { w with depot := d } := by
  rcases Depot.register_ok h with rfl | ⟨b, hb, hfree, hblock, hpool⟩
  · exact ⟨hw, .refl w⟩
  · have hkeep : ∀ {x y}, w.depot.block? x = some y → ∃ y', d.block? x = some y' ∧ y'.refs = y.refs ∧ y'.id = y.id := by
      intro x y hy
      rw [hblock, hy]
      by_cases hx : x = c <;> simp [hx]
    refine ⟨⟨?_, ?_, hw.nodup, ?_⟩, Leaves.of_le ?_ fun _ => le_rfl⟩
    · intro x y' hy'
      cases hy : w.depot.block? x with
      | none =>
        rw [hblock, hy] at hy'
        simp at hy'
      | some y =>
        obtain ⟨y'', hy'', hrefs, -⟩ := hkeep hy
        cases hy'.symm.trans hy''
        rw [hrefs]
        exact hw.refs hy
    · intro n hn x hx
      obtain ⟨y, hy⟩ := hw.known hn hx
      obtain ⟨y', hy', -⟩ := hkeep hy
      exact ⟨y', hy'⟩
    · intro q id x hx
      have hy : ∃ y, w.depot.block? x = some y ∧ y.id = id := by
        rw [hpool] at hx
        split at hx
        · rename_i hid
          cases hx
          exact ⟨b, hb, hid.2.symm⟩
        · exact hw.filed hx
      obtain ⟨y, hy, rfl⟩ := hy
      obtain ⟨y', hy', -, hid⟩ := hkeep hy
      exact ⟨y', hy', hid⟩
    · intro q id x hx
      rw [hpool, if_neg]
      · exact hx
      · rintro ⟨rfl, rfl⟩
        cases hfree.symm.trans hx

end Counted

/-- Calls that handle blocks keep the counts exact. -/
lemma Handles.counted (h : Handles w w') (hw : w.Counted) (hlt : w.Bounded) : w'.Counted ∧ Leaves w w' := by
  cases h with
  | newNetwork name library =>
    cases library with
    | some l => exact hw.append rfl rfl rfl
    | none => exact hw.append rfl rfl rfl
  | newBlock hb => exact hw.newBlock hb
  | file h => exact hw.file h
  | refer h => exact (hw.registerBlock h).counted hw hlt
  | copyFrom r source =>
    cases source with
    | none => exact ⟨hw, .refl w⟩
    | some s => exact (hw.copyFrom hlt r s).2.counted hw hlt
  | clean r => exact (hw.clean hlt r).2.counted hw hlt
  | aside hd hb => exact hw.aside hd hb

/-- Workspaces that can be reached, from one with nothing in it, by calls that handle blocks. There are never more
references than can be counted. -/
inductive Tended : Workspace → Prop where
  | empty : Tended {}
  | step {w w' : Workspace} (h : Tended w) (hs : Handles w w') (hlt : w'.Bounded) : Tended w'

/-- In a tended workspace the counts are exact and can be represented. -/
lemma Tended.counted (h : Tended w) : w.Counted ∧ w.Bounded := by
  induction h with
  | empty =>
    refine ⟨⟨?_, ?_, ?_, ?_⟩, fun c => ?_⟩
    · intro c b hb
      cases hb
    · intro n hn
      cases hn
    · intro n hn
      cases hn
    · intro p id c hp
      cases hp
    · exact Nat.two_pow_pos 31
  | step _ hs hlt ih => exact ⟨(hs.counted ih.1 ih.2).1, hlt⟩

/-- References are counted exactly. However networks have shared blocks, the count of a block is the number of networks
that list it, and no release is aborted. A block leaves a pool exactly when the pool owns it and the last network lets
go of it, and no other block that is filed under the same name does. -/
theorem references_exact (h : Tended w) :
    (∀ {c b}, w.depot.block? c = some b → b.refs.toInt = w.holders c) ∧
    (∀ r, (w.clean r).2 = none) ∧ (∀ r s, (w.copyFrom r (some s)).2 = none) ∧
    ∀ w', Handles w w' → ∀ p id c, (w.depot.pool p).get? id = some c → ((w'.depot.pool p).get? id ≠ some c ↔
      0 < w.holders c ∧ w'.holders c = 0 ∧ ∃ b, w.depot.block? c = some b ∧ b.owner = some p) := by
  obtain ⟨hw, hlt⟩ := h.counted
  refine ⟨?_, fun r => (hw.clean hlt r).1, fun r s => (hw.copyFrom hlt r s).1, fun w' hs => (hs.counted hw hlt).2⟩
  intro c b hb
  rw [hw.refs hb, Int32.toInt_ofNat_of_lt (hlt c)]

/-! ### A shared block -/

/-- Few networks have few references. -/
lemma bounded_of_length (h : w.networks.length < 2 ^ 31) : w.Bounded :=
  fun _ => List.countP_le_length.trans_lt h

/-- Two networks and a block. -/
def pair : Workspace :=
  let w := ((({} : Workspace).newNetwork "a" none).1.newNetwork "b" none).1
  { w with depot := (w.depot.add ⟨"weights", "", [2], none, 0, none⟩).1 }

/-- Two networks and a block come of calls that handle blocks. -/
lemma tended_pair : Tended pair := by
  have ha := Tended.empty.step (.newNetwork _ "a" none) (bounded_of_length (by decide))
  have hb := ha.step (.newNetwork _ "b" none) (bounded_of_length (by decide))
  exact hb.step (.newBlock _ rfl) (bounded_of_length (by decide))

/-- The second network becomes a copy of the first one, which is then cleaned. -/
def handOver (w : Workspace) : Workspace :=
  ((w.copyFrom 1 (some 0)).1.clean 0).1

/-- A block that one network handed over to another has one reference, and leaves its pool when that network is cleaned.
-/
theorem references_exact_handOver : ∃ w b, Tended w ∧ w.depot.block? 0 = some b ∧ b.refs.toInt = 1 ∧
    (w.depot.pool "pool").get? "weights" = some 0 ∧ (w.clean 1).2 = none ∧
    ((w.clean 1).1.depot.pool "pool").get? "weights" ≠ some 0 := by
  -- the block is filed, the first network refers to it and hands it over
  have hrun : (pair.depot.register 0 "pool").toOption.any fun depot =>
      (registerBlock { pair with depot } 0 (some 0)).toOption.any fun v =>
        decide (v.networks.length = 2 ∧ (v.copyFrom 1 (some 0)).1.networks.length = 2 ∧
          (handOver v).networks.length = 2) &&
        decide ((handOver v).holders 0 = 1 ∧ ((handOver v).clean 1).1.holders 0 = 0) &&
        decide (((handOver v).depot.pool "pool").get? "weights" = some 0) &&
        ((handOver v).depot.block? 0).any (decide <| ·.owner = some "pool") := by
    decide +kernel
  obtain ⟨depot, hd, hrun⟩ := (Option.any_eq_true _ _).1 hrun
  obtain ⟨v, hv, hrun⟩ := (Option.any_eq_true _ _).1 hrun
  simp only [Bool.and_eq_true, decide_eq_true_eq] at hrun
  obtain ⟨⟨⟨⟨hlen, hcopy, hover⟩, hone, hzero⟩, hpool⟩, hown⟩ := hrun
  obtain ⟨b, hb, hown⟩ := (Option.any_eq_true _ _).1 hown
  have hpair : pair.networks.length < 2 ^ 31 := by decide
  have hfile := tended_pair.step (.file (eq_ok_of_toOption hd)) (bounded_of_length hpair)
  have hv := hfile.step (.refer (eq_ok_of_toOption hv)) (bounded_of_length (by omega))
  have hc := hv.step (.copyFrom _ 1 (some 0)) (bounded_of_length (by omega))
  have hw : Tended (handOver v) := hc.step (.clean _ 0) (bounded_of_length (hover.trans_lt (by decide)))
  obtain ⟨hrefs, hclean, -, hleaves⟩ := references_exact hw
  refine ⟨handOver v, b, hw, hb, ?_, hpool, hclean 1, ?_⟩
  · rw [hrefs hb, hone]
    rfl
  · exact (hleaves _ (.clean _ 1) "pool" "weights" 0 hpool).2 ⟨by omega, hzero, b, hb, of_decide_eq_true hown⟩

end Workspace

end OpGraph
