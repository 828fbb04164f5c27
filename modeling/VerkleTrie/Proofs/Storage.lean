import VerkleTrie.Proofs.Run

/-! # `HasEmptyStorage` over runs of `Apply`

`Apply` records each slot it writes in `writtenSlots`, and no function of the state takes a
record out. So over a run from `NewState`, `HasEmptyStorage` of an account checks exactly the
slots the run wrote for it. A slot the run never wrote still reads zero when no key the run
writes is its key. Together: on the live state, `HasEmptyStorage` tells whether every slot of
the account reads zero, among the slots the run wrote and those apart from its writes. An
archived state has lost the record and answers `true` for every account.
-/

namespace VerkleTrie.Memory

/-- The places a run of `Apply` writes: those of each update in turn. -/
def runLocations (E : Env) (runs : List (Nat × Update)) : List Location :=
  runs.flatMap fun p => p.2.locations E

@[simp] theorem runLocations_cons (E : Env) (p : Nat × Update) (runs : List (Nat × Update)) :
    runLocations E (p :: runs) = p.2.locations E ++ runLocations E runs :=
  List.flatMap_cons _ _ _

theorem storage_mem_locations (E : Env) (u : Update) (a : Address) (k : Key) :
    Location.storage a k ∈ u.locations E ↔ ∃ x ∈ u.slots, x.account = a ∧ x.key = k := by
  simp only [Update.locations, List.mem_append, List.mem_flatMap, List.mem_map, List.mem_cons,
    List.mem_singleton, Location.storage.injEq, reduceCtorEq, false_or, or_false, and_false, exists_false,
    List.not_mem_nil]

namespace State

variable (E : Env)

theorem hasEmptyStorage_eq_true_iff (s : State) (a : Address) :
    s.hasEmptyStorage E a = true ↔ ∀ k ∈ s.writtenSlots a, s.getStorage E a k = Bytes.zero 32 := by
  unfold hasEmptyStorage getStorage
  split_ifs with h
  · simp [h]
  · exact decide_eq_true_iff

theorem writtenSlots_foldl {α : Type} (f : State → α → State)
    (hf : ∀ s x, (f s x).writtenSlots = s.writtenSlots) (l : List α) (s : State) :
    (l.foldl f s).writtenSlots = s.writtenSlots := by
  induction l generalizing s with
  | nil => rfl
  | cons x l ih => exact (ih (f s x)).trans (hf s x)

theorem mem_writtenSlots_foldl_applySlot (l : List SlotUpdate) (s : State) (a : Address) (k : Key) :
    k ∈ (l.foldl (applySlot E) s).writtenSlots a ↔
      k ∈ s.writtenSlots a ∨ ∃ x ∈ l, x.account = a ∧ x.key = k := by
  induction l generalizing s with
  | nil => simp only [List.foldl_nil, List.not_mem_nil, false_and, exists_false, or_false]
  | cons x l ih =>
    rw [List.foldl_cons, ih, writtenSlots_applySlot]
    simp only [List.mem_cons, or_and_right, exists_or, exists_eq_left]
    by_cases h : a = x.account
    · subst h
      simp only [if_pos, Finset.mem_insert, true_and, @eq_comm _ x.key k]
      rw [or_assoc, or_left_comm]
    · rw [if_neg h]
      simp only [Ne.symm h, false_and, false_or]

theorem mem_writtenSlots_apply (s : State) (b : Nat) (u : Update) (a : Address) (k : Key) :
    k ∈ (s.apply E b u).writtenSlots a ↔ k ∈ s.writtenSlots a ∨ .storage a k ∈ u.locations E := by
  have hinit : ∀ (t : State) (x : Address), (t.initAccount E x).writtenSlots = t.writtenSlots :=
    fun t x => by unfold initAccount; dsimp only; split <;> rfl
  rw [apply, writtenSlots_archiveCurrentState, storage_mem_locations]
  simp only [applyUpdate]
  rw [writtenSlots_foldl (applyCode E) (fun _ _ => rfl), mem_writtenSlots_foldl_applySlot,
    writtenSlots_foldl (applyBalance E) (fun _ _ => rfl), writtenSlots_foldl (applyNonce E) (fun _ _ => rfl),
    writtenSlots_foldl (initAccount E) hinit]

theorem mem_writtenSlots_applyAll (s : State) (runs : List (Nat × Update)) (a : Address) (k : Key) :
    k ∈ (s.applyAll E runs).writtenSlots a ↔ k ∈ s.writtenSlots a ∨ .storage a k ∈ runLocations E runs := by
  induction runs generalizing s with
  | nil => simp [applyAll, runLocations]
  | cons p runs ih =>
    obtain ⟨b, u⟩ := p
    rw [applyAll, ih, mem_writtenSlots_apply, runLocations_cons, List.mem_append, or_assoc]

theorem mem_writtenSlots_newState_applyAll (runs : List (Nat × Update)) (a : Address) (k : Key) :
    k ∈ (newState.applyAll E runs).writtenSlots a ↔ .storage a k ∈ runLocations E runs :=
  (mem_writtenSlots_applyAll E newState runs a k).trans (or_iff_right (Finset.not_mem_empty k))

theorem get_applyAll_of_not_mem (s : State) (runs : List (Nat × Update)) {k : Key}
    (hk : k ∉ (runLocations E runs).map E.key) : (s.applyAll E runs).trie.get k = s.trie.get k := by
  induction runs generalizing s with
  | nil => rfl
  | cons p runs ih =>
    obtain ⟨b, u⟩ := p
    rw [runLocations_cons, List.map_append, List.mem_append, not_or] at hk
    rw [applyAll, ih _ hk.2]
    exact get_applyUpdate_of_not_mem E s u hk.1

theorem getStorage_applyAll_of_not_mem (runs : List (Nat × Update)) (a : Address) (k : Key)
    (hsep : E.Separates (runLocations E runs) [.storage a k]) (hk : .storage a k ∉ runLocations E runs) :
    (newState.applyAll E runs).getStorage E a k = Bytes.zero 32 :=
  get_applyAll_of_not_mem E newState runs fun h => by
    obtain ⟨w, hw, hkey⟩ := List.mem_map.1 h
    exact hk (hsep w hw _ (List.mem_singleton_self _) hkey ▸ hw)

/-- Over any run from `NewState`, `HasEmptyStorage` checks the slots the run wrote and those whose
key it never reached. -/
theorem hasEmptyStorage_applyAll (runs : List (Nat × Update)) (a : Address) :
    (newState.applyAll E runs).hasEmptyStorage E a = true ↔
      ∀ k, (.storage a k ∈ runLocations E runs ∨ E.Separates (runLocations E runs) [.storage a k]) →
        (newState.applyAll E runs).getStorage E a k = Bytes.zero 32 := by
  have hw := mem_writtenSlots_newState_applyAll E runs a
  rw [hasEmptyStorage_eq_true_iff]
  constructor
  · intro h k hk
    by_cases hm : .storage a k ∈ runLocations E runs
    · exact h k ((hw k).2 hm)
    · exact getStorage_applyAll_of_not_mem E runs a k (hk.resolve_left hm) hm
  · exact fun h k hk => h k (.inl ((hw k).1 hk))

end State

end VerkleTrie.Memory
