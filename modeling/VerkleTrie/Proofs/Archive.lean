import VerkleTrie.Memory.Archive
import Mathlib.Data.Finset.Card

/-! # What the archive retains

While block 0 is never added, `addBlock` keeps `oldestBlock` at the least block held, and the
archive holds the `min m d` greatest of the `d` block numbers added, each with its latest
snapshot. Block 0 breaks this: `addBlock` takes an `oldestBlock` of 0 for "not set yet".
-/

namespace VerkleTrie.Memory

namespace VtArchive

/-- The blocks the archive holds. -/
def blocks (a : VtArchive) : Finset Nat := a.snapshots.keys.toFinset

theorem card_blocks (a : VtArchive) : a.blocks.card = a.snapshots.keys.length :=
  List.toFinset_card_of_nodup a.snapshots.keys_nodup

theorem mem_blocks {a : VtArchive} {b : Nat} : b ∈ a.blocks ↔ b ∈ a.snapshots := by
  simp [blocks, AList.mem_keys]

theorem leastBlock_spec (blocks : List Nat) (start : Nat) :
    leastBlock blocks start ∈ start :: blocks ∧ ∀ x ∈ start :: blocks, leastBlock blocks start ≤ x := by
  induction blocks generalizing start with
  | nil => simp [leastBlock]
  | cons b bs ih =>
    have hstep : leastBlock (b :: bs) start = leastBlock bs (min b start) := by
      show leastBlock bs (if b < start then b else start) = _
      congr 1
      split <;> omega
    obtain ⟨hmem, hle⟩ := ih (min b start)
    have hmin := hle _ (List.mem_cons_self _ _)
    rw [hstep]
    constructor
    · simp only [List.mem_cons] at hmem ⊢
      rcases hmem with h | h
      · rcases min_choice b start with hm | hm
        · exact .inr (.inl (h.trans hm))
        · exact .inl (h.trans hm)
      · exact .inr (.inr h)
    · intro x hx
      simp only [List.mem_cons] at hx
      rcases hx with rfl | rfl | hx
      · exact hmin.trans (min_le_right _ _)
      · exact hmin.trans (min_le_left _ _)
      · exact hle x (List.mem_cons_of_mem _ hx)

/-- `addBlock` before its pruning step: the snapshot is stored, `hasBlocks` is set, and
`maxBlock` and `oldestBlock` move to the new block if it passes them. -/
def inserted (a : VtArchive) (b : Nat) (s : VtSnapshot) : VtArchive :=
  ⟨a.snapshots.insert b s, if !a.hasBlocks || a.maxBlock < b then b else a.maxBlock, true,
    a.maxSize, if b < a.oldestBlock || a.oldestBlock == 0 then b else a.oldestBlock⟩

theorem addBlock_eq (a : VtArchive) (b : Nat) (s : VtSnapshot) :
    a.addBlock b s =
      if 0 < a.maxSize ∧ a.maxSize < (a.snapshots.insert b s).keys.length then
        (a.inserted b s).pruneOldest
      else a.inserted b s := by
  unfold addBlock inserted
  by_cases h1 : (!a.hasBlocks || decide (a.maxBlock < b)) = true
  · by_cases h2 : (decide (b < a.oldestBlock) || a.oldestBlock == 0) = true <;>
      simp only [h1, h2, if_true, if_false, Bool.not_true, Bool.false_or, Bool.false_eq_true]
  · have hh : a.hasBlocks = true ∧ b ≤ a.maxBlock := by simpa using h1
    by_cases h2 : (decide (b < a.oldestBlock) || a.oldestBlock == 0) = true <;>
      simp only [hh.1, not_lt.2 hh.2, h2, decide_False, if_true, if_false, Bool.not_true, Bool.false_or,
        Bool.false_eq_true]

theorem blocks_inserted (a : VtArchive) (b : Nat) (s : VtSnapshot) :
    (a.inserted b s).blocks = insert b a.blocks := by
  ext x
  simp [inserted, mem_blocks, AList.mem_insert]

theorem getBlock_inserted (a : VtArchive) (b x : Nat) (s : VtSnapshot) :
    (a.inserted b s).getBlock x = if x = b then some s else a.getBlock x := by
  split_ifs with h
  · subst h; exact AList.lookup_insert _
  · exact AList.lookup_insert_ne h

theorem oldest_inserted {a : VtArchive} (b : Nat) (s : VtSnapshot) (h0 : 0 ∉ a.blocks)
    (hmem : a.blocks.Nonempty → a.oldestBlock ∈ a.blocks) (hle : ∀ x ∈ a.blocks, a.oldestBlock ≤ x)
    (hzero : a.blocks = ∅ → a.oldestBlock = 0) :
    (a.inserted b s).oldestBlock ∈ insert b a.blocks ∧
      ∀ x ∈ insert b a.blocks, (a.inserted b s).oldestBlock ≤ x := by
  rcases a.blocks.eq_empty_or_nonempty with he | hne
  · have hval : (a.inserted b s).oldestBlock = b := by simp [inserted, hzero he]
    simp [hval, he]
  · have ho := hmem hne
    have hne0 : a.oldestBlock ≠ 0 := fun h => h0 (h ▸ ho)
    have hval : (a.inserted b s).oldestBlock = min b a.oldestBlock := by
      show (if (decide (b < a.oldestBlock) || a.oldestBlock == 0) = true then b else a.oldestBlock) = _
      by_cases hb : b < a.oldestBlock <;> simp [hb, hne0] <;> omega
    rw [hval]
    refine ⟨?_, fun x hx => ?_⟩
    · rcases min_choice b a.oldestBlock with h | h <;> rw [h] <;> simp [ho]
    · rcases Finset.mem_insert.mp hx with rfl | hx
      · exact min_le_left _ _
      · exact (min_le_right _ _).trans (hle x hx)

theorem max_inserted {a : VtArchive} {A : Finset Nat} (b : Nat) (s : VtSnapshot)
    (hhas : a.hasBlocks = true ↔ A.Nonempty) (hmem : A.Nonempty → a.maxBlock ∈ A)
    (hle : ∀ x ∈ A, x ≤ a.maxBlock) :
    (a.inserted b s).maxBlock ∈ insert b A ∧ ∀ x ∈ insert b A, x ≤ (a.inserted b s).maxBlock := by
  cases hb : a.hasBlocks
  · have hA : A = ∅ := Finset.not_nonempty_iff_eq_empty.mp fun h => by simp [hhas.mpr h] at hb
    simp [inserted, hb, hA]
  · have hval : (a.inserted b s).maxBlock = max b a.maxBlock := by
      simp only [inserted, hb, Bool.not_true, Bool.false_or, decide_eq_true_eq]
      split <;> omega
    have hm := hmem (hhas.mp hb)
    rw [hval]
    refine ⟨?_, fun x hx => ?_⟩
    · rcases max_choice b a.maxBlock with h | h <;> rw [h] <;> simp [hm]
    · rcases Finset.mem_insert.mp hx with rfl | hx
      · exact le_max_left _ _
      · exact (hle x hx).trans (le_max_right _ _)

theorem pruneOldest_of_nonempty {a : VtArchive} (h : a.blocks.Nonempty) :
    a.pruneOldest =
      { a with
        snapshots := a.snapshots.erase a.oldestBlock
        oldestBlock := leastBlock (a.snapshots.erase a.oldestBlock).keys a.maxBlock } := by
  rw [pruneOldest, if_neg]
  rw [← card_blocks]
  exact Finset.card_ne_zero.mpr h

theorem blocks_erase (a : VtArchive) (b : Nat) :
    (a.snapshots.erase b).keys.toFinset = a.blocks.erase b := by
  ext x
  simp only [List.mem_toFinset, ← AList.mem_keys, AList.mem_erase, Finset.mem_erase, mem_blocks]

theorem blocks_pruneOldest {a : VtArchive} (h : a.blocks.Nonempty) :
    a.pruneOldest.blocks = a.blocks.erase a.oldestBlock := by
  rw [pruneOldest_of_nonempty h]; exact blocks_erase a _

theorem getBlock_pruneOldest {a : VtArchive} (h : a.blocks.Nonempty) {x : Nat}
    (hx : x ≠ a.oldestBlock) : a.pruneOldest.getBlock x = a.getBlock x := by
  rw [pruneOldest_of_nonempty h]; exact AList.lookup_erase_ne hx

theorem oldest_pruneOldest {a : VtArchive} (h : (a.blocks.erase a.oldestBlock).Nonempty)
    (hmax : ∀ x ∈ a.blocks, x ≤ a.maxBlock) :
    a.pruneOldest.oldestBlock ∈ a.pruneOldest.blocks ∧
      ∀ x ∈ a.pruneOldest.blocks, a.pruneOldest.oldestBlock ≤ x := by
  have hne : a.blocks.Nonempty := h.mono (Finset.erase_subset _ _)
  rw [blocks_pruneOldest hne, pruneOldest_of_nonempty hne]
  have hmem : ∀ x, x ∈ (a.snapshots.erase a.oldestBlock).keys ↔ x ∈ a.blocks.erase a.oldestBlock := by
    intro x; rw [← blocks_erase, List.mem_toFinset]
  obtain ⟨hvm, hvl⟩ := leastBlock_spec (a.snapshots.erase a.oldestBlock).keys a.maxBlock
  show leastBlock _ a.maxBlock ∈ _ ∧ ∀ x ∈ _, leastBlock _ a.maxBlock ≤ x
  refine ⟨?_, fun x hx => hvl x (List.mem_cons_of_mem _ ((hmem x).mpr hx))⟩
  rcases List.mem_cons.mp hvm with hv | hv
  · -- The loop starts from `maxBlock`, which no block left exceeds.
    obtain ⟨y, hy⟩ := h
    have h1 := hvl y (List.mem_cons_of_mem _ ((hmem y).mpr hy))
    have h2 := hmax y (Finset.mem_of_mem_erase hy)
    rwa [show leastBlock (a.snapshots.erase a.oldestBlock).keys a.maxBlock = y by omega]
  · exact (hmem _).mp hv

@[simp] theorem maxSize_pruneOldest (a : VtArchive) : a.pruneOldest.maxSize = a.maxSize := by
  unfold pruneOldest; split <;> rfl

@[simp] theorem maxBlock_pruneOldest (a : VtArchive) : a.pruneOldest.maxBlock = a.maxBlock := by
  unfold pruneOldest; split <;> rfl

@[simp] theorem hasBlocks_pruneOldest (a : VtArchive) : a.pruneOldest.hasBlocks = a.hasBlocks := by
  unfold pruneOldest; split <;> rfl

@[simp] theorem maxSize_addBlock (a : VtArchive) (b : Nat) (s : VtSnapshot) :
    (a.addBlock b s).maxSize = a.maxSize := by
  rw [addBlock_eq]; split <;> simp [inserted]

@[simp] theorem maxSize_addBlocks (a : VtArchive) (bs : List (Nat × VtSnapshot)) :
    (a.addBlocks bs).maxSize = a.maxSize := by
  induction bs using List.reverseRecOn with
  | nil => rfl
  | append_singleton bs p ih => simp [ih]

end VtArchive

/-! ## Retention while block 0 is never added -/

/-- The block numbers a sequence of `addBlock` calls adds. -/
def added (bs : List (Nat × VtSnapshot)) : Finset Nat := (bs.map Prod.fst).toFinset

/-- The snapshot of the latest `addBlock` of a block, if any. -/
def latest (bs : List (Nat × VtSnapshot)) (b : Nat) : Option VtSnapshot :=
  ((bs.filter (·.1 = b)).getLast?).map (·.2)

@[simp] theorem added_append_singleton (bs : List (Nat × VtSnapshot)) (b : Nat) (s : VtSnapshot) :
    added (bs ++ [(b, s)]) = insert b (added bs) := by
  simp only [added, List.map_append, List.map_cons, List.map_nil, List.toFinset_append, List.toFinset_cons,
    List.toFinset_nil, Finset.union_insert, Finset.union_empty]

theorem latest_append_singleton (bs : List (Nat × VtSnapshot)) (b x : Nat) (s : VtSnapshot) :
    latest (bs ++ [(b, s)]) x = if x = b then some s else latest bs x := by
  by_cases h : b = x
  · subst h; simp [latest]
  · simp [latest, h, Ne.symm h]

/-- What the archive holds after `addBlock` of the blocks `bs` into `newVtArchive m`: the
`min m d` greatest of the `d` numbers added, each with its latest snapshot. `oldestBlock` is its
least block, or 0 while it is empty, and `maxBlock` the greatest number added. -/
structure Retains (m : Nat) (bs : List (Nat × VtSnapshot)) (a : VtArchive) : Prop where
  maxSize_eq : a.maxSize = m
  subset : a.blocks ⊆ added bs
  card_eq : a.blocks.card = min m (added bs).card
  above : ∀ x ∈ a.blocks, ∀ y ∈ added bs, y ∉ a.blocks → y < x
  getBlock_eq : ∀ x ∈ a.blocks, a.getBlock x = latest bs x
  oldest_mem : a.blocks.Nonempty → a.oldestBlock ∈ a.blocks
  oldest_le : ∀ x ∈ a.blocks, a.oldestBlock ≤ x
  oldest_zero : a.blocks = ∅ → a.oldestBlock = 0
  hasBlocks_iff : a.hasBlocks = true ↔ (added bs).Nonempty
  max_mem : (added bs).Nonempty → a.maxBlock ∈ added bs
  le_max : ∀ x ∈ added bs, x ≤ a.maxBlock

theorem retains_new (m : Nat) : Retains m [] (newVtArchive m) where
  maxSize_eq := rfl
  subset := by simp [VtArchive.blocks, newVtArchive]
  card_eq := by simp [VtArchive.blocks, newVtArchive, added]
  above := by simp [VtArchive.blocks, newVtArchive]
  getBlock_eq := by simp [VtArchive.blocks, newVtArchive]
  oldest_mem := by simp [VtArchive.blocks, newVtArchive]
  oldest_le := by simp [VtArchive.blocks, newVtArchive]
  oldest_zero := fun _ => rfl
  hasBlocks_iff := by simp [newVtArchive, added]
  max_mem := by simp [added]
  le_max := by simp [added]

theorem Retains.inserted {m : Nat} {bs : List (Nat × VtSnapshot)} {a : VtArchive}
    (h : Retains m bs a) (h0 : 0 ∉ added bs) (b : Nat) (s : VtSnapshot)
    (hroom : (insert b a.blocks).card ≤ m) : Retains m (bs ++ [(b, s)]) (a.inserted b s) := by
  have hR : a.blocks.card ≤ m := h.card_eq ▸ min_le_left _ _
  -- A new block finds room only if the archive held every block added so far.
  have hall : b ∉ a.blocks → a.blocks = added bs := fun hb => by
    rw [Finset.card_insert_of_not_mem hb] at hroom
    exact Finset.eq_of_subset_of_card_le h.subset (by have := h.card_eq; omega)
  obtain ⟨hom, hol⟩ := VtArchive.oldest_inserted b s (fun h' => h0 (h.subset h')) h.oldest_mem
    h.oldest_le h.oldest_zero
  obtain ⟨hmm, hml⟩ := VtArchive.max_inserted b s h.hasBlocks_iff h.max_mem h.le_max
  have hbl := VtArchive.blocks_inserted a b s
  refine ⟨h.maxSize_eq, ?_, ?_, ?_, ?_, fun _ => hbl ▸ hom, hbl ▸ hol,
    fun he => absurd (hbl ▸ he) (Finset.insert_ne_empty _ _), by simp [VtArchive.inserted],
    fun _ => added_append_singleton bs b s ▸ hmm, added_append_singleton bs b s ▸ hml⟩ <;> rw [hbl]
  · simpa using Finset.insert_subset_insert b h.subset
  · by_cases hb : b ∈ a.blocks
    · rw [added_append_singleton, Finset.insert_eq_of_mem hb, Finset.insert_eq_of_mem (h.subset hb), h.card_eq]
    · rw [added_append_singleton, ← hall hb, min_eq_right (hall hb ▸ hroom)]
  · intro x hx y hy hny
    rw [added_append_singleton] at hy
    have hb : b ∈ a.blocks := by
      by_contra hb
      rw [← hall hb] at hy
      exact hny (Finset.mem_insert.mpr (Finset.mem_insert.mp hy))
    rw [Finset.insert_eq_of_mem hb] at hx hny
    exact h.above x hx y ((Finset.mem_insert.mp hy).resolve_left fun e => hny (e ▸ hb)) hny
  · intro x hx
    rw [VtArchive.getBlock_inserted, latest_append_singleton]
    split_ifs with hxb
    · rfl
    · exact h.getBlock_eq x ((Finset.mem_insert.mp hx).resolve_left hxb)

theorem Retains.pruned {m : Nat} {bs : List (Nat × VtSnapshot)} {a : VtArchive}
    (h : Retains m bs a) (hm : 0 < m) (h0 : 0 ∉ added bs) (b : Nat) (s : VtSnapshot)
    (hfull : m < (insert b a.blocks).card) :
    Retains m (bs ++ [(b, s)]) (a.inserted b s).pruneOldest := by
  have hR : a.blocks.card ≤ m := h.card_eq ▸ min_le_left _ _
  have hb : b ∉ a.blocks := fun hb => by rw [Finset.insert_eq_of_mem hb] at hfull; omega
  have hcard : (insert b a.blocks).card = m + 1 := by
    rw [Finset.card_insert_of_not_mem hb] at hfull ⊢; omega
  obtain ⟨hom, hol⟩ := VtArchive.oldest_inserted b s (fun h' => h0 (h.subset h')) h.oldest_mem
    h.oldest_le h.oldest_zero
  obtain ⟨hmm, hml⟩ := VtArchive.max_inserted b s h.hasBlocks_iff h.max_mem h.le_max
  have hbl := VtArchive.blocks_inserted a b s
  have hne : (a.inserted b s).blocks.Nonempty := hbl ▸ Finset.insert_nonempty _ _
  set o := (a.inserted b s).oldestBlock
  have hcard' : ((insert b a.blocks).erase o).card = m := by
    rw [Finset.card_erase_of_mem hom, hcard]; rfl
  have hsub : insert b a.blocks ⊆ insert b (added bs) := Finset.insert_subset_insert b h.subset
  have hpb : (a.inserted b s).pruneOldest.blocks = (insert b a.blocks).erase o := by
    rw [VtArchive.blocks_pruneOldest hne, hbl]
  have hleft : ((a.inserted b s).blocks.erase o).Nonempty := by
    rw [hbl]; exact Finset.card_pos.mp (hcard' ▸ hm)
  obtain ⟨hvm, hvl⟩ := VtArchive.oldest_pruneOldest hleft fun x hx => hml x (hsub (hbl ▸ hx))
  refine ⟨by simp [h.maxSize_eq, VtArchive.inserted], ?_, ?_, ?_, ?_, fun _ => hvm, hvl,
    fun he => ?_, by simp [VtArchive.inserted], fun _ => added_append_singleton bs b s ▸ hmm,
    added_append_singleton bs b s ▸ hml⟩ <;>
    rw [hpb] at *
  · simpa using (Finset.erase_subset o _).trans hsub
  · rw [hcard', added_append_singleton, min_eq_left]
    have := Finset.card_le_card hsub
    omega
  · intro x hx y hy hny
    obtain ⟨hxo, hx⟩ := Finset.mem_erase.mp hx
    rw [added_append_singleton] at hy
    by_cases hyo : y = o
    · exact hyo ▸ lt_of_le_of_ne (hol x hx) (Ne.symm hxo)
    have hyR : y ∉ insert b a.blocks := fun h' => hny (Finset.mem_erase.mpr ⟨hyo, h'⟩)
    have hyA : y ∈ added bs :=
      (Finset.mem_insert.mp hy).resolve_left fun e => hyR (e ▸ Finset.mem_insert_self _ _)
    have hyR' : y ∉ a.blocks := fun h' => hyR (Finset.mem_insert_of_mem h')
    rcases Finset.mem_insert.mp hx with rfl | hx
    · -- The new block stays, so the least block held before is below it.
      have ho : o ∈ a.blocks := (Finset.mem_insert.mp hom).resolve_left (Ne.symm hxo)
      exact (h.above o ho y hyA hyR').trans_le (hol _ (Finset.mem_insert_self _ _))
    · exact h.above x hx y hyA hyR'
  · intro x hx
    obtain ⟨hxo, hx⟩ := Finset.mem_erase.mp hx
    rw [VtArchive.getBlock_pruneOldest hne hxo, VtArchive.getBlock_inserted, latest_append_singleton]
    split_ifs with hxb
    · rfl
    · exact h.getBlock_eq x ((Finset.mem_insert.mp hx).resolve_left hxb)
  · exact absurd he (Finset.nonempty_iff_ne_empty.mp (Finset.card_pos.mp (hcard' ▸ hm)))

theorem Retains.addBlock {m : Nat} {bs : List (Nat × VtSnapshot)} {a : VtArchive}
    (h : Retains m bs a) (hm : 0 < m) (h0 : 0 ∉ added bs) (b : Nat) (s : VtSnapshot) :
    Retains m (bs ++ [(b, s)]) (a.addBlock b s) := by
  have hlen : ((a.snapshots.insert b s).keys.length : Int) = (insert b a.blocks).card := by
    rw [← VtArchive.blocks_inserted a b s, VtArchive.card_blocks]; rfl
  rw [VtArchive.addBlock_eq, hlen, h.maxSize_eq]
  split_ifs with hp
  · exact h.pruned hm h0 b s (by omega)
  · exact h.inserted h0 b s (by omega)

theorem retains_addBlocks {m : Nat} (hm : 0 < m) (bs : List (Nat × VtSnapshot))
    (h0 : 0 ∉ added bs) : Retains m bs ((newVtArchive m).addBlocks bs) := by
  induction bs using List.reverseRecOn with
  | nil => exact retains_new m
  | append_singleton bs p ih =>
    rw [added_append_singleton, Finset.mem_insert, not_or] at h0
    rw [VtArchive.addBlocks_append_singleton]
    exact (ih h0.2).addBlock hm h0.2 p.1 p.2

theorem Retains.maxBlock_mem {m : Nat} {bs : List (Nat × VtSnapshot)} {a : VtArchive}
    (h : Retains m bs a) (hm : 0 < m) (hne : (added bs).Nonempty) : a.maxBlock ∈ a.blocks := by
  by_contra hmax
  obtain ⟨x, hx⟩ : a.blocks.Nonempty := by
    rw [← Finset.card_pos, h.card_eq]; exact lt_min hm (Finset.card_pos.mpr hne)
  exact absurd (h.le_max x (h.subset hx)) (not_le.mpr (h.above x hx _ (h.max_mem hne) hmax))

theorem Retains.mem_blocks_iff {m : Nat} {bs : List (Nat × VtSnapshot)} {a : VtArchive}
    (h : Retains m bs a) (x : Nat) :
    x ∈ a.blocks ↔ x ∈ added bs ∧ ((added bs).filter (x < ·)).card < m := by
  have hle : a.blocks.card ≤ m := h.card_eq ▸ min_le_left _ _
  constructor
  · intro hx
    -- A greater block added is held too, so the greater blocks are fewer than those held.
    have hsub : (added bs).filter (x < ·) ⊆ a.blocks.erase x := fun y hy => by
      obtain ⟨hyA, hxy⟩ := Finset.mem_filter.1 hy
      refine Finset.mem_erase.2 ⟨Nat.ne_of_gt hxy, ?_⟩
      by_contra hyk
      exact absurd (h.above x hx y hyA hyk) (not_lt.2 hxy.le)
    refine ⟨h.subset hx, ?_⟩
    calc ((added bs).filter (x < ·)).card ≤ (a.blocks.erase x).card := Finset.card_le_card hsub
      _ < a.blocks.card := Finset.card_erase_lt_of_mem hx
      _ ≤ m := hle
  · rintro ⟨hxA, hlt⟩
    by_contra hx
    -- Every block held is above `x`, and with `x` left out the archive is full.
    have hsub : a.blocks ⊆ (added bs).filter (x < ·) := fun y hy =>
      Finset.mem_filter.2 ⟨h.subset hy, h.above y hy x hxA hx⟩
    have hfull : a.blocks.card < (added bs).card :=
      Finset.card_lt_card ⟨h.subset, fun hs => hx (hs hxA)⟩
    have hm : a.blocks.card = m := by
      have := h.card_eq
      omega
    exact absurd (Finset.card_le_card hsub) (by omega)

/-- What an archive of size `m > 0` should hold after `addBlock` of the blocks `bs`: the
`min m d` greatest of the `d` block numbers added, each with the snapshot of its latest
`addBlock`, and as its height the greatest number added, a block it holds. -/
structure KeepsGreatest (m : Nat) (bs : List (Nat × VtSnapshot)) (a : VtArchive) : Prop where
  subset : a.blocks ⊆ added bs
  card_eq : a.blocks.card = min m (added bs).card
  above : ∀ x ∈ a.blocks, ∀ y ∈ added bs, y ∉ a.blocks → y < x
  getBlock_eq : ∀ x ∈ a.blocks, a.getBlock x = latest bs x
  has_height : a.getBlockHeight.2 = true
  height_mem : a.getBlockHeight.1 ∈ added bs
  le_height : ∀ x ∈ added bs, x ≤ a.getBlockHeight.1
  height_held : (a.getBlock a.getBlockHeight.1).isSome

theorem Retains.keepsGreatest {m : Nat} {bs : List (Nat × VtSnapshot)} {a : VtArchive}
    (h : Retains m bs a) (hm : 0 < m) (hA : (added bs).Nonempty) : KeepsGreatest m bs a :=
  ⟨h.subset, h.card_eq, h.above, h.getBlock_eq, h.hasBlocks_iff.mpr hA, h.max_mem hA,
    h.le_max, AList.lookup_isSome.mpr (VtArchive.mem_blocks.mp (h.maxBlock_mem hm hA))⟩

theorem added_nonempty {bs : List (Nat × VtSnapshot)} (hne : bs ≠ []) : (added bs).Nonempty :=
  let ⟨p, hp⟩ := List.exists_mem_of_ne_nil bs hne
  ⟨p.1, List.mem_toFinset.2 (List.mem_map_of_mem _ hp)⟩

theorem zero_not_mem_added {bs : List (Nat × VtSnapshot)} (h0 : ∀ p ∈ bs, p.1 ≠ 0) : 0 ∉ added bs := by
  rw [added, List.mem_toFinset, List.mem_map]
  rintro ⟨p, hp, h⟩
  exact h0 p hp h

/-- While block 0 is never added, an archive of size `m > 0` keeps the greatest blocks. -/
theorem archive_keeps_greatest_blocks {m : Nat} (hm : 0 < m) (bs : List (Nat × VtSnapshot))
    (hne : bs ≠ []) (h0 : ∀ p ∈ bs, p.1 ≠ 0) :
    KeepsGreatest m bs ((newVtArchive m).addBlocks bs) :=
  (retains_addBlocks hm bs (zero_not_mem_added h0)).keepsGreatest hm (added_nonempty hne)

theorem archive_keeps_greatest_blocks_of_three :
    (0 < 2 ∧ [(5, ⟨[], []⟩), (3, ⟨[], []⟩), (7, ⟨[], []⟩)] ≠ ([] : List (Nat × VtSnapshot)) ∧
      ∀ p ∈ ([(5, ⟨[], []⟩), (3, ⟨[], []⟩), (7, ⟨[], []⟩)] : List (Nat × VtSnapshot)), p.1 ≠ 0) ∧
    KeepsGreatest 2 [(5, ⟨[], []⟩), (3, ⟨[], []⟩), (7, ⟨[], []⟩)]
      ((newVtArchive 2).addBlocks [(5, ⟨[], []⟩), (3, ⟨[], []⟩), (7, ⟨[], []⟩)]) :=
  ⟨⟨by decide, by simp, by decide⟩, archive_keeps_greatest_blocks (by decide) _ (by simp) (by decide)⟩

/-- An archive of size 0 never prunes: it keeps every block added, with its latest snapshot. -/
theorem unbounded_archive_keeps_all (bs : List (Nat × VtSnapshot)) (x : Nat) :
    ((newVtArchive 0).addBlocks bs).getBlock x = latest bs x := by
  induction bs using List.reverseRecOn with
  | nil => rfl
  | append_singleton bs p ih =>
    rw [VtArchive.addBlocks_append_singleton, VtArchive.addBlock_eq,
      if_neg (by simp [newVtArchive]), VtArchive.getBlock_inserted, latest_append_singleton, ih]

/-! ## Block 0 -/

/-- With block 0 as its oldest, a full archive prunes each new greatest block on arrival, while the
height moves to it. -/
theorem addBlock_prunes_new_block_after_zero {a : VtArchive} {m : Nat} (hm : 0 < m)
    (hsize : a.maxSize = m) (h0 : 0 ∈ a.blocks) (ho : a.oldestBlock = 0) (hfull : a.blocks.card = m)
    (hmaxb : ∀ x ∈ a.blocks, x ≤ a.maxBlock) {b : Nat} (hmax : a.maxBlock < b) (s : VtSnapshot) :
    (a.addBlock b s).blocks = a.blocks ∧ (a.addBlock b s).getBlockHeight = (b, true) ∧
      (a.addBlock b s).getBlock b = none ∧ (a.addBlock b s).oldestBlock = 0 := by
  have hb : b ∉ a.blocks := fun h => absurd (hmaxb b h) (by omega)
  have hlen : ((a.snapshots.insert b s).keys.length : Int) = (insert b a.blocks).card := by
    rw [← VtArchive.blocks_inserted a b s, VtArchive.card_blocks]; rfl
  have hins : (a.inserted b s).oldestBlock = b := by simp [VtArchive.inserted, ho]
  have hne : (a.inserted b s).blocks.Nonempty := by
    rw [VtArchive.blocks_inserted]; exact Finset.insert_nonempty _ _
  have hmax' : (a.inserted b s).maxBlock = b := by
    simp only [VtArchive.inserted, hmax, decide_True, Bool.or_true, if_true]
  rw [VtArchive.addBlock_eq, hlen, hsize, if_pos (by rw [Finset.card_insert_of_not_mem hb]; omega)]
  have hblocks : (a.inserted b s).pruneOldest.blocks = a.blocks := by
    rw [VtArchive.blocks_pruneOldest hne, VtArchive.blocks_inserted, hins, Finset.erase_insert hb]
  refine ⟨hblocks, ?_, ?_, ?_⟩
  · rw [VtArchive.getBlockHeight, VtArchive.maxBlock_pruneOldest, VtArchive.hasBlocks_pruneOldest, hmax']
    rfl
  · exact AList.lookup_eq_none.mpr (by rw [← VtArchive.mem_blocks, hblocks]; exact hb)
  · -- The least block left is block 0.
    have hleft : ((a.inserted b s).blocks.erase (a.inserted b s).oldestBlock).Nonempty := by
      rw [VtArchive.blocks_inserted, hins, Finset.erase_insert hb]; exact ⟨0, h0⟩
    obtain ⟨-, hvl⟩ := VtArchive.oldest_pruneOldest hleft fun x hx => by
      rw [VtArchive.blocks_inserted] at hx
      rcases Finset.mem_insert.mp hx with rfl | hx
      · exact hmax'.ge
      · rw [hmax']; exact (hmaxb x hx).trans hmax.le
    have := hvl 0 (hblocks ▸ h0)
    omega

/-- With room for one block: after block 0, block 1 is pruned on arrival. -/
theorem addBlock_prunes_block_one_after_zero :
    let a := (newVtArchive 1).addBlock 0 ⟨[], []⟩
    (0 < 1 ∧ a.maxSize = 1 ∧ 0 ∈ a.blocks ∧ a.oldestBlock = 0 ∧ a.blocks.card = 1 ∧
        (∀ x ∈ a.blocks, x ≤ a.maxBlock) ∧ a.maxBlock < 1) ∧
      (a.addBlock 1 ⟨[], []⟩).blocks = a.blocks ∧ (a.addBlock 1 ⟨[], []⟩).getBlockHeight = (1, true) ∧
      (a.addBlock 1 ⟨[], []⟩).getBlock 1 = none ∧ (a.addBlock 1 ⟨[], []⟩).oldestBlock = 0 := by
  intro a
  have h : 0 < 1 ∧ a.maxSize = 1 ∧ 0 ∈ a.blocks ∧ a.oldestBlock = 0 ∧ a.blocks.card = 1 ∧
      (∀ x ∈ a.blocks, x ≤ a.maxBlock) ∧ a.maxBlock < 1 := by decide
  obtain ⟨hm, hsize, h0, ho, hfull, hmaxb, hmax⟩ := h
  exact ⟨⟨hm, hsize, h0, ho, hfull, hmaxb, hmax⟩,
    addBlock_prunes_new_block_after_zero hm hsize h0 ho hfull hmaxb hmax ⟨[], []⟩⟩

end VerkleTrie.Memory
