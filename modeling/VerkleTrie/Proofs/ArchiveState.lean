import VerkleTrie.Proofs.Snapshot
import VerkleTrie.Proofs.Archive

/-! # States rebuilt from the archive

`GetArchiveState` restores the archived snapshot of a block into a state with an empty trie and
no written slots. The trie comes back as far as the snapshot kept it, but the written slots do
not, so `HasEmptyStorage` answers `true` for every account of every state it returns.
-/

namespace VerkleTrie.Memory

theorem VtArchive.getBlock_addBlock_of_not_full (a : VtArchive) (b : Nat) (snap : VtSnapshot)
    (h : ¬(0 < a.maxSize ∧ a.maxSize < (a.snapshots.insert b snap).keys.length)) :
    (a.addBlock b snap).getBlock b = some snap := by
  rw [VtArchive.addBlock_eq, if_neg h, VtArchive.getBlock_inserted, if_pos rfl]

namespace State

variable (E : Env)

theorem deserializeTrie_only_trie {s s' : State} {d : List UInt8} {err : Option String}
    (h : s.deserializeTrie d = some (s', err)) : s' = { s with trie := s'.trie } := by
  obtain ⟨s'', err', h', -, hs, hok⟩ := deserializeTrie_total s d
  rw [h, Option.some.injEq, Prod.mk.injEq] at h'
  obtain ⟨rfl, rfl⟩ := h'
  cases err with
  | some e => rw [hs rfl]
  | none => exact (hok rfl).1

theorem restore_only_trie {s r : State} {snap : VtSnapshot} {err : Option String}
    (h : s.restore E snap = some (r, err)) : r = { s with trie := r.trie } := by
  simp only [restore, VtSnapshot.length_getMetaData, VtSnapshot.getPartData_zero,
    sliceOf_of_le (Nat.zero_le 32) (by simp : 32 ≤ snap.getMetaData.length), if_neg (by decide : ¬ 36 < 32),
    Option.pure_def, Option.bind_eq_bind, Option.some_bind] at h
  cases hd : s.deserializeTrie snap.data with
  | none => simp [hd] at h
  | some p =>
    obtain ⟨s', e⟩ := p
    have hs' := deserializeTrie_only_trie hd
    rw [hd, Option.some_bind] at h
    have hr : r = s' := by
      cases e with
      | some e => exact (Prod.mk.inj (Option.some.inj h)).1.symm
      | none =>
        dsimp only at h
        split_ifs at h <;> exact (Prod.mk.inj (Option.some.inj h)).1.symm
    rw [hr, hs']

theorem getArchiveState_ok {s r : State} {b : Nat} (h : s.getArchiveState E b = some (.ok r)) :
    ∃ snap, s.archive.getBlock b = some snap ∧
      ({ trie := Trie.empty, archive := s.archive, writtenSlots := fun _ => ∅,
         archiveMaxSize := s.archiveMaxSize } : State).restore E snap = some (r, none) := by
  unfold getArchiveState at h
  cases hb : s.archive.getBlock b with
  | none => simp [hb] at h
  | some snap =>
    simp only [hb, Option.bind_eq_bind, Option.bind_eq_some] at h
    obtain ⟨⟨r', err⟩, hr, h⟩ := h
    cases err with
    | some e => simp at h
    | none =>
      simp only [Option.pure_def, Option.some.injEq, Except.ok.injEq] at h
      exact ⟨snap, rfl, h ▸ hr⟩

theorem getArchiveState_eq_noArchive_iff (s : State) (b : Nat) :
    s.getArchiveState E b = some (.error s!"no archived state for block {b}") ↔ b ∉ s.archive.blocks := by
  rw [VtArchive.mem_blocks, ← AList.lookup_isSome]
  unfold getArchiveState
  cases hb : s.archive.getBlock b with
  | none =>
    show some _ = _ ↔ ¬ (s.archive.getBlock b).isSome
    simp [hb]
  | some snap =>
    show _ ↔ ¬ (s.archive.getBlock b).isSome
    dsimp only
    simp only [hb, Option.isSome_some, not_true_eq_false, iff_false, Option.bind_eq_bind]
    intro h
    obtain ⟨⟨r, err⟩, -, h⟩ := Option.bind_eq_some.1 h
    cases err with
    | none => cases h
    | some e =>
      -- The two messages differ in their first character.
      have := congrArg (fun t => t.data.head?) (Except.error.inj (Option.some.inj h))
      simp only [toString, String.data_append, List.head?_append, List.head?_cons, Option.or_some] at this
      exact absurd (Option.some.inj this) (by decide)

/-- Every state `GetArchiveState` returns answers `HasEmptyStorage` with `true`, for every account. -/
theorem hasEmptyStorage_getArchiveState (s : State) (b : Nat) {r : State}
    (h : s.getArchiveState E b = some (.ok r)) (a : Address) : r.hasEmptyStorage E a = true := by
  obtain ⟨snap, -, hr⟩ := getArchiveState_ok E h
  rw [restore_only_trie E hr]
  simp [hasEmptyStorage]

section Restored

variable {s : State} {b : Nat} {snap : VtSnapshot} (hb : s.archive.getBlock b = some snap) {r : State}
include hb

theorem getArchiveState_of_restore_ok
    (hr : ({ trie := Trie.empty, archive := s.archive, writtenSlots := fun _ => ∅,
             archiveMaxSize := s.archiveMaxSize } : State).restore E snap = some (r, none)) :
    s.getArchiveState E b = some (.ok r) := by
  unfold getArchiveState
  rw [hb]
  simp only [Option.bind_eq_bind, hr, Option.some_bind]
  rfl

theorem getArchiveState_of_restore_error {e : String}
    (hr : ({ trie := Trie.empty, archive := s.archive, writtenSlots := fun _ => ∅,
             archiveMaxSize := s.archiveMaxSize } : State).restore E snap = some (r, some e)) :
    s.getArchiveState E b = some (.error s!"failed to restore archived state for block {b}: {e}") := by
  unfold getArchiveState
  rw [hb]
  simp only [Option.bind_eq_bind, hr, Option.some_bind]
  rfl

end Restored

theorem getArchiveState_of_getBlock {s t : State} {b : Nat} (hb : s.archive.getBlock b = some (t.createSnapshot E)) :
    s.getArchiveState E b =
      if (t.restoredTrie E).commit E.rootOf = t.getHash E then
        some (.ok { trie := t.restoredTrie E, archive := s.archive, writtenSlots := fun _ => ∅,
                    archiveMaxSize := s.archiveMaxSize })
      else some (.error s!"failed to restore archived state for block {b}: commitment mismatch after restore") := by
  have hr := restore_createSnapshot E t
    { trie := Trie.empty, archive := s.archive, writtenSlots := fun _ => ∅, archiveMaxSize := s.archiveMaxSize }
  by_cases h : (t.restoredTrie E).commit E.rootOf = t.getHash E
  · rw [if_pos h] at hr ⊢
    exact getArchiveState_of_restore_ok E hb hr
  · rw [if_neg h] at hr ⊢
    rw [getArchiveState_of_restore_error E hb hr]
    simp only [toString, String.append_assoc, String.append_empty]
    rfl

/-- `GetArchiveState` of the block `Apply` has just archived: the trie on the probed keys, with
no written slots, or a commitment mismatch. -/
theorem getArchiveState_apply (s : State) (b : Nat) (u : Update)
    (hheld : (s.apply E b u).archive.getBlock b = some ((s.applyUpdate E u).createSnapshot E)) :
    (s.apply E b u).getArchiveState E b =
      if ((s.applyUpdate E u).restoredTrie E).commit E.rootOf = (s.applyUpdate E u).getHash E then
        some (.ok { trie := (s.applyUpdate E u).restoredTrie E, archive := (s.apply E b u).archive,
                    writtenSlots := fun _ => ∅, archiveMaxSize := s.archiveMaxSize })
      else some (.error s!"failed to restore archived state for block {b}: commitment mismatch after restore") := by
  have hmax : (s.apply E b u).archiveMaxSize = s.archiveMaxSize :=
    (Prod.mk.inj (archive_applyUpdate E s u)).2
  rw [getArchiveState_of_getBlock E hheld, hmax]

end State

theorem getBlock_apply_sample :
    (newState.apply Env.sample 1 sampleUpdate).archive.getBlock 1 =
      some ((newState.applyUpdate Env.sample sampleUpdate).createSnapshot Env.sample) := by
  show ((newState.applyUpdate Env.sample sampleUpdate).archive.addBlock 1 _).getBlock 1 = _
  rw [(Prod.mk.inj (State.archive_applyUpdate Env.sample newState sampleUpdate)).1]
  exact VtArchive.getBlock_addBlock_of_not_full _ _ _ (by decide)

theorem getArchiveState_apply_sample :
    let s := newState.apply Env.sample 1 sampleUpdate
    let s₁ := newState.applyUpdate Env.sample sampleUpdate
    s.archive.getBlock 1 = some (s₁.createSnapshot Env.sample) ∧
      s.getArchiveState Env.sample 1 =
        some (.ok { trie := s₁.restoredTrie Env.sample, archive := s.archive,
                    writtenSlots := fun _ => ∅, archiveMaxSize := newState.archiveMaxSize }) :=
  have hc : ((newState.applyUpdate Env.sample sampleUpdate).restoredTrie Env.sample).commit Env.sample.rootOf =
      (newState.applyUpdate Env.sample sampleUpdate).getHash Env.sample :=
    Trie.commit_eq_of_get (State.get_restoredTrie_of_probed Env.sample _ sampleUpdate_state_probed)
  ⟨getBlock_apply_sample,
    (State.getArchiveState_apply Env.sample newState 1 sampleUpdate getBlock_apply_sample).trans (if_pos hc)⟩

theorem getArchiveState_sample :
    (newState.apply Env.sample 1 sampleUpdate).getArchiveState Env.sample 1 =
      some (.ok { trie := (newState.applyUpdate Env.sample sampleUpdate).restoredTrie Env.sample,
                  archive := (newState.apply Env.sample 1 sampleUpdate).archive,
                  writtenSlots := fun _ => ∅, archiveMaxSize := 1000 }) :=
  State.getArchiveState_of_restore_ok Env.sample getBlock_apply_sample
    (State.restore_createSnapshot_eq_of_probed Env.sample _ _ sampleUpdate_state_probed)

theorem hasEmptyStorage_getArchiveState_sample :
    let s := newState.apply Env.sample 1 sampleUpdate
    ∃ r, s.getArchiveState Env.sample 1 = some (.ok r) ∧
      r.hasEmptyStorage Env.sample (sampleAddress 1) = true ∧
      r.getStorage Env.sample (sampleAddress 1) (sampleKey 3) ≠ Bytes.zero 32 :=
  ⟨_, getArchiveState_sample,
    State.hasEmptyStorage_getArchiveState Env.sample _ 1 getArchiveState_sample _, by
      rw [State.getStorage]
      dsimp only
      rw [State.get_restoredTrie_of_probed Env.sample _ sampleUpdate_state_probed]
      decide⟩

/-- After block 1 writes 9 to slot 3 of account 1, the live state's storage is not empty and the
archived one's is. -/
theorem archived_hasEmptyStorage_differs_sample :
    let s := newState.apply Env.sample 1 sampleUpdate
    s.hasEmptyStorage Env.sample (sampleAddress 1) = false ∧
      ∃ r, s.getArchiveState Env.sample 1 = some (.ok r) ∧
        r.hasEmptyStorage Env.sample (sampleAddress 1) = true :=
  ⟨by decide, _, getArchiveState_sample, by simp [State.hasEmptyStorage]⟩

end VerkleTrie.Memory
