import VerkleTrie.Proofs.ArchiveState

/-! # Runs of `Apply`

A run applies updates block after block. Each `Apply` archives a snapshot of the state its loops
leave, so the archive of a run is the one `addBlock` builds from those snapshots. From `NewState`,
with no block 0, the archive keeps the 1000 greatest blocks applied, and `GetArchiveState` of each
rebuilds the state that block's last `Apply` left, as far as the snapshot holds it.
-/

namespace VerkleTrie.Memory

namespace State

variable (E : Env)

/-- `Apply` of each block and update in turn. -/
def applyAll (s : State) : List (Nat × Update) → State
  | [] => s
  | (b, u) :: rest => (s.apply E b u).applyAll rest

/-- The states the `Apply` calls of a run archive, with their blocks. -/
def runStates (s : State) : List (Nat × Update) → List (Nat × State)
  | [] => []
  | (b, u) :: rest => (b, s.applyUpdate E u) :: (s.apply E b u).runStates rest

/-- The snapshots the `Apply` calls of a run archive. -/
def runSnapshots (s : State) (runs : List (Nat × Update)) : List (Nat × VtSnapshot) :=
  (s.runStates E runs).map fun p => (p.1, p.2.createSnapshot E)

theorem map_fst_runStates (s : State) (runs : List (Nat × Update)) :
    (s.runStates E runs).map Prod.fst = runs.map Prod.fst := by
  induction runs generalizing s with
  | nil => rfl
  | cons p runs ih => exact congrArg (p.1 :: ·) (ih _)

theorem archive_applyAll (s : State) (runs : List (Nat × Update)) :
    ((s.applyAll E runs).archive, (s.applyAll E runs).archiveMaxSize) =
      (s.archive.addBlocks (s.runSnapshots E runs), s.archiveMaxSize) := by
  induction runs generalizing s with
  | nil => rfl
  | cons p runs ih =>
    obtain ⟨b, u⟩ := p
    obtain ⟨h1, h2⟩ := Prod.mk.inj (archive_applyUpdate E s u)
    rw [applyAll, ih]
    show (((s.applyUpdate E u).archive.addBlock b ((s.applyUpdate E u).createSnapshot E)).addBlocks
        ((s.apply E b u).runSnapshots E runs), (s.applyUpdate E u).archiveMaxSize) =
      ((s.archive.addBlock b ((s.applyUpdate E u).createSnapshot E)).addBlocks
        ((s.apply E b u).runSnapshots E runs), s.archiveMaxSize)
    rw [h1, h2]

theorem map_fst_runSnapshots (s : State) (runs : List (Nat × Update)) :
    (s.runSnapshots E runs).map Prod.fst = runs.map Prod.fst := by
  rw [runSnapshots, List.map_map]
  exact map_fst_runStates E s runs

theorem added_runSnapshots (s : State) (runs : List (Nat × Update)) :
    added (s.runSnapshots E runs) = (runs.map Prod.fst).toFinset := by
  rw [added, map_fst_runSnapshots]

theorem retains_newState_applyAll (runs : List (Nat × Update)) (h0 : ∀ p ∈ runs, p.1 ≠ 0) :
    Retains 1000 (newState.runSnapshots E runs) (newState.applyAll E runs).archive := by
  rw [(Prod.mk.inj (archive_applyAll E newState runs)).1]
  refine retains_addBlocks (by decide) _ ?_
  rw [added_runSnapshots, List.mem_toFinset, List.mem_map]
  rintro ⟨p, hp, h⟩
  exact h0 p hp h

theorem latest_runSnapshots (s : State) (runs : List (Nat × Update)) (x : Nat) :
    latest (s.runSnapshots E runs) x =
      (((s.runStates E runs).filter (·.1 = x)).getLast?).map fun p => p.2.createSnapshot E := by
  rw [latest, runSnapshots, List.filter_map, List.getLast?_map, Option.map_map]
  rfl

/-- Over any run from `NewState` with no block 0, the archive keeps the 1000 greatest blocks
applied, and `GetArchiveBlockHeight` returns the greatest. -/
theorem applyAll_keeps_greatest (runs : List (Nat × Update)) (hne : runs ≠ []) (h0 : ∀ p ∈ runs, p.1 ≠ 0) :
    KeepsGreatest 1000 (newState.runSnapshots E runs) (newState.applyAll E runs).archive ∧
      ∃ h, (newState.applyAll E runs).getArchiveBlockHeight = (h, false) ∧ h ∈ runs.map Prod.fst ∧
        ∀ x ∈ runs.map Prod.fst, x ≤ h := by
  have hadded := added_runSnapshots E newState runs
  have hA : (added (newState.runSnapshots E runs)).Nonempty := by
    rw [hadded, List.toFinset_nonempty_iff]
    simpa using hne
  have hk := (retains_newState_applyAll E runs h0).keepsGreatest (by decide) hA
  have hheight : (newState.applyAll E runs).archive.getBlockHeight =
      ((newState.applyAll E runs).archive.getBlockHeight.1, true) := Prod.ext rfl hk.has_height
  refine ⟨hk, _, ?_, ?_, fun x hx => hk.le_height x ?_⟩
  · rw [getArchiveBlockHeight, hheight]
    rfl
  · simpa [hadded] using hk.height_mem
  · simpa [hadded] using hx

end State

theorem applyAll_keeps_greatest_sample :
    let runs : List (Nat × Update) := [(1, sampleUpdate)]
    (runs ≠ [] ∧ ∀ p ∈ runs, p.1 ≠ 0) ∧
      KeepsGreatest 1000 (newState.runSnapshots Env.sample runs) (newState.applyAll Env.sample runs).archive ∧
        ∃ h, (newState.applyAll Env.sample runs).getArchiveBlockHeight = (h, false) ∧ h ∈ runs.map Prod.fst ∧
          ∀ x ∈ runs.map Prod.fst, x ≤ h :=
  ⟨⟨by simp, by simp⟩, State.applyAll_keeps_greatest Env.sample _ (by simp) (by simp)⟩

namespace State

variable (E : Env)

theorem getBlock_applyAll_of_mem (runs : List (Nat × Update)) (h0 : ∀ p ∈ runs, p.1 ≠ 0) {x : Nat}
    (hx : x ∈ (newState.applyAll E runs).archive.blocks) :
    ∃ t : State, ((newState.runStates E runs).filter (·.1 = x)).getLast? = some (x, t) ∧
      (newState.applyAll E runs).archive.getBlock x = some (t.createSnapshot E) := by
  have hget := (retains_newState_applyAll E runs h0).getBlock_eq x hx
  rw [latest_runSnapshots] at hget
  have hsome : ((newState.applyAll E runs).archive.getBlock x).isSome :=
    AList.lookup_isSome.2 (VtArchive.mem_blocks.1 hx)
  rw [hget, Option.isSome_map'] at hsome
  obtain ⟨⟨y, t⟩, hlast⟩ := Option.isSome_iff_exists.1 hsome
  obtain rfl : y = x := by simpa using (List.mem_filter.1 (List.mem_of_getLast?_eq_some hlast)).2
  rw [hlast, Option.map_some'] at hget
  exact ⟨t, hlast, hget⟩

/-- `GetArchiveState` of a block a run from `NewState` keeps: the trie of the state its last
`Apply` left, on the probed keys, or a commitment mismatch. -/
theorem getArchiveState_applyAll (runs : List (Nat × Update)) (h0 : ∀ p ∈ runs, p.1 ≠ 0) {x : Nat}
    (hx : x ∈ (newState.applyAll E runs).archive.blocks) :
    ∃ t : State, ((newState.runStates E runs).filter (·.1 = x)).getLast? = some (x, t) ∧
      (newState.applyAll E runs).getArchiveState E x =
        if (t.restoredTrie E).commit E.rootOf = t.getHash E then
          some (.ok { trie := t.restoredTrie E, archive := (newState.applyAll E runs).archive,
                      writtenSlots := fun _ => ∅, archiveMaxSize := 1000 })
        else some (.error s!"failed to restore archived state for block {x}: commitment mismatch after restore") := by
  obtain ⟨t, hlast, hget⟩ := getBlock_applyAll_of_mem E runs h0 hx
  have hmax : (newState.applyAll E runs).archiveMaxSize = 1000 := (Prod.mk.inj (archive_applyAll E newState runs)).2
  exact ⟨t, hlast, by rw [getArchiveState_of_getBlock E hget, hmax]⟩

end State

theorem mem_blocks_applyAll_sample : 1 ∈ (newState.applyAll Env.sample [(1, sampleUpdate)]).archive.blocks := by
  have hb : (newState.applyAll Env.sample [(1, sampleUpdate)]).archive.snapshots.lookup 1 =
      some ((newState.applyUpdate Env.sample sampleUpdate).createSnapshot Env.sample) := getBlock_apply_sample
  exact VtArchive.mem_blocks.2 (AList.lookup_isSome.1 (by rw [hb]; rfl))

theorem getArchiveState_applyAll_sample :
    let runs : List (Nat × Update) := [(1, sampleUpdate)]
    (∀ p ∈ runs, p.1 ≠ 0) ∧ 1 ∈ (newState.applyAll Env.sample runs).archive.blocks ∧
      ∃ t : State, ((newState.runStates Env.sample runs).filter (·.1 = 1)).getLast? = some (1, t) ∧
        (newState.applyAll Env.sample runs).getArchiveState Env.sample 1 =
          if (t.restoredTrie Env.sample).commit Env.sample.rootOf = t.getHash Env.sample then
            some (.ok { trie := t.restoredTrie Env.sample, archive := (newState.applyAll Env.sample runs).archive,
                        writtenSlots := fun _ => ∅, archiveMaxSize := 1000 })
          else some (.error s!"failed to restore archived state for block {1}: commitment mismatch after restore") :=
  ⟨by simp, mem_blocks_applyAll_sample,
    State.getArchiveState_applyAll Env.sample _ (by simp) mem_blocks_applyAll_sample⟩

namespace State

variable (E : Env)

theorem probed_runStates (s : State) (runs : List (Nat × Update))
    (hs : ∀ k, s.trie.get k ≠ Bytes.zero 32 → k ∈ probes.map E.key)
    (hw : ∀ p ∈ runs, ∀ l ∈ p.2.locations E, l ∈ probes) :
    ∀ p ∈ s.runStates E runs, ∀ k, p.2.trie.get k ≠ Bytes.zero 32 → k ∈ probes.map E.key := by
  induction runs generalizing s with
  | nil => exact fun _ h => absurd h (List.not_mem_nil _)
  | cons p runs ih =>
    obtain ⟨b, u⟩ := p
    have hu := probed_applyUpdate E s u hs (hw (b, u) (.head _))
    intro q hq
    rcases List.mem_cons.1 hq with rfl | hq
    · exact hu
    · exact ih (s.apply E b u) hu (fun p hp => hw p (.tail _ hp)) q hq

/-- Over any run from `NewState` with no block 0, a block has no archived state exactly when it was
never applied or 1000 greater blocks were. -/
theorem getArchiveState_applyAll_eq_noArchive_iff (runs : List (Nat × Update)) (h0 : ∀ p ∈ runs, p.1 ≠ 0)
    (x : Nat) :
    (newState.applyAll E runs).getArchiveState E x = some (.error s!"no archived state for block {x}") ↔
      x ∉ runs.map Prod.fst ∨ 1000 ≤ ((runs.map Prod.fst).toFinset.filter (x < ·)).card := by
  rw [getArchiveState_eq_noArchive_iff, (retains_newState_applyAll E runs h0).mem_blocks_iff,
    added_runSnapshots, List.mem_toFinset, not_and_or, not_lt]

end State

theorem getArchiveState_applyAll_eq_noArchive_iff_sample :
    let runs : List (Nat × Update) := [(1, sampleUpdate)]
    (∀ p ∈ runs, p.1 ≠ 0) ∧
      ((newState.applyAll Env.sample runs).getArchiveState Env.sample 2 =
          some (.error s!"no archived state for block {2}") ↔
        2 ∉ runs.map Prod.fst ∨ 1000 ≤ ((runs.map Prod.fst).toFinset.filter (2 < ·)).card) :=
  ⟨by simp, State.getArchiveState_applyAll_eq_noArchive_iff Env.sample _ (by simp) 2⟩

end VerkleTrie.Memory
