import VerkleTrie.Proofs.Deserialize
import VerkleTrie.Proofs.Apply
import Mathlib.Data.Finset.Card

/-! # What a snapshot keeps

`serializeTrie` writes the probed keys whose value is not zero, each once, with their number in
the header, and `deserializeTrie` reads them back exactly. Restoring a snapshot therefore
rebuilds the trie on the probed keys and zero everywhere else. A state whose non-zero keys are
all probed comes back whole. Any other state loses its unprobed keys, and `Restore` then reports
a commitment mismatch wherever the commitment tells the two tries apart.
-/

namespace VerkleTrie.Memory

/-! ## The probes -/

theorem length_probes : probes.length = 256 * 1282 := by
  simp only [probes, List.length_flatMap, Function.comp_def, List.length_cons, List.length_append,
    List.length_map, List.length_range, List.map_const', List.sum_replicate, smul_eq_mul]

theorem sampleAddress_mem_probes {x : Nat} (hx : x < 256) :
    Location.basicData (sampleAddress x) ∈ probes ∧ Location.codeHash (sampleAddress x) ∈ probes ∧
      (∀ y < 256, Location.storage (sampleAddress x) (sampleKey y) ∈ probes) ∧
      ∀ i < 1024, Location.codeChunk (sampleAddress x) i ∈ probes := by
  simp only [probes, List.mem_flatMap, List.mem_range]
  exact ⟨⟨x, hx, by simp⟩, ⟨x, hx, by simp⟩, fun y hy => ⟨x, hx, by simpa using ⟨y, hy, rfl⟩⟩,
    fun i hi => ⟨x, hx, by simp [hi]⟩⟩

theorem sampleUpdate_probed : ∀ l ∈ sampleUpdate.locations Env.sample, l ∈ probes := by
  obtain ⟨b1, c1, s1, k1⟩ := sampleAddress_mem_probes (by decide : 1 < 256)
  have b2 := (sampleAddress_mem_probes (by decide : 2 < 256)).1
  intro l hl
  simp [Update.locations, sampleUpdate, Env.sample] at hl
  rcases hl with rfl | rfl | rfl | rfl | rfl | rfl | rfl | rfl | rfl <;>
    first | assumption | exact s1 3 (by decide) | exact k1 0 (by decide)

theorem sample_key_probe_byte19 {p : Location} (hp : p ∈ probes) :
    (Env.sample.key p).toList[19]? = some 0 := by
  have hprefix : ∀ x (t : List UInt8),
      (Bytes.ofList ((sampleAddress x).toList ++ t) : Bytes 32).toList[19]? = some 0 := by
    intro x t
    rw [Bytes.getElem?_toList_ofList _ (by decide), List.getD_eq_getElem?_getD,
      List.getElem?_append_left (by simp), sampleAddress, Bytes.getElem?_toList_ofList _ (by decide)]
    rfl
  simp only [probes, List.mem_flatMap, List.mem_range, List.mem_cons, List.mem_append, List.mem_map] at hp
  obtain ⟨x, -, hp⟩ := hp
  rcases hp with (rfl | rfl | ⟨y, -, rfl⟩) | ⟨i, -, rfl⟩ <;> exact hprefix x _

/-! ## The records of a part -/

theorem encodeEntries_cons (e : Σ _ : Key, Value) (es : List (Σ _ : Key, Value)) :
    encodeEntries (e :: es) = record e.1 e.2 ++ encodeEntries es := rfl

theorem length_encodeEntries (es : List (Σ _ : Key, Value)) :
    (encodeEntries es).length = 64 * es.length := by
  induction es with
  | nil => rfl
  | cons e es ih => simp [encodeEntries_cons, record, ih]; ring

theorem recordAt_encodeEntries (pre : List UInt8) (es : List (Σ _ : Key, Value)) :
    (List.range es.length).map (fun i => recordAt (pre ++ encodeEntries es) (pre.length + 64 * i)) =
      es.map fun e => (e.1, e.2) := by
  induction es generalizing pre with
  | nil => rfl
  | cons e es ih =>
    rw [List.length_cons, List.range_succ_eq_map, List.map_cons, List.map_map, List.map_cons, ← ih (pre ++ record e.1 e.2)]
    congr 1
    · simp [recordAt, encodeEntries_cons, record, Bytes.ofList_toList]
    · refine List.map_congr_left fun i _ => ?_
      simp only [Function.comp, encodeEntries_cons, List.append_assoc, List.length_append, record, Bytes.length_toList]
      congr 1
      omega

/-! ## A snapshot of a state, read back -/

namespace State

variable (E : Env)

theorem lookup_foldl_collect (s : State) (ks : List Key) (acc : AList (fun _ : Key => Value)) (k : Key) :
    (ks.foldl (fun entries k => if s.trie.get k ≠ Bytes.zero 32 then entries.insert k (s.trie.get k) else entries) acc).lookup k =
      if k ∈ ks ∧ s.trie.get k ≠ Bytes.zero 32 then some (s.trie.get k) else acc.lookup k := by
  induction ks generalizing acc with
  | nil => simp
  | cons k' ks ih =>
    rw [List.foldl_cons, ih]
    by_cases hk : k = k'
    · subst hk; by_cases hv : s.trie.get k = Bytes.zero 32 <;> simp [hv]
    · by_cases hv : s.trie.get k' = Bytes.zero 32 <;> simp [hk, hv, AList.lookup_insert_ne hk]

theorem lookup_collectEntries (s : State) (k : Key) :
    (s.collectEntries E).lookup k =
      if k ∈ probes.map E.key ∧ s.trie.get k ≠ Bytes.zero 32 then some (s.trie.get k) else none := by
  rw [collectEntries, lookup_foldl_collect, AList.lookup_empty]

theorem length_collectEntries_le (s : State) : (s.collectEntries E).entries.length ≤ probes.length := by
  have hsub : (s.collectEntries E).keys.toFinset ⊆ (probes.map E.key).toFinset := by
    intro k hk
    have hsome := AList.lookup_isSome.2 (AList.mem_keys.1 (List.mem_toFinset.1 hk))
    rw [lookup_collectEntries] at hsome
    rw [List.mem_toFinset]
    split_ifs at hsome with h
    · exact h.1
    · cases hsome
  calc (s.collectEntries E).entries.length = (s.collectEntries E).keys.toFinset.card := by
        rw [List.toFinset_card_of_nodup (AList.keys_nodup _)]; simp [AList.keys, List.keys]
    _ ≤ (probes.map E.key).toFinset.card := Finset.card_le_card hsub
    _ ≤ probes.length := (List.toFinset_card_le _).trans (List.length_map _ _).le

theorem length_collectEntries_lt (s : State) : (s.collectEntries E).entries.length < 2 ^ 32 := by
  have h := length_collectEntries_le E s
  rw [length_probes] at h
  omega

theorem serializeTrie_eq (s : State) :
    s.serializeTrie E =
      natToBe 4 (s.collectEntries E).entries.length ++ encodeEntries (s.collectEntries E).entries := by
  rw [serializeTrie, Nat.mod_eq_of_lt (length_collectEntries_lt E s)]

/-- The trie `deserializeTrie` rebuilds from `serializeTrie s`. -/
def restoredTrie (s : State) : Trie :=
  Trie.empty.setAll ((s.collectEntries E).entries.map fun e => (e.1, e.2))

theorem deserializeTrie_serializeTrie (s s' : State) :
    s'.deserializeTrie (s.serializeTrie E) = some ({ s' with trie := s.restoredTrie E }, none) := by
  set es := (s.collectEntries E).entries
  have hlt : es.length < 256 ^ 4 := length_collectEntries_lt E s
  have hn : beToNat ((natToBe 4 es.length ++ encodeEntries es).take 4) = es.length := by
    rw [List.take_left' (length_natToBe 4 _), beToNat_natToBe, Nat.mod_eq_of_lt hlt]
  have hrec := recordAt_encodeEntries (natToBe 4 es.length) es
  rw [length_natToBe] at hrec
  have hlen : (natToBe 4 es.length ++ encodeEntries es).length =
      4 + beToNat ((natToBe 4 es.length ++ encodeEntries es).take 4) * 64 := by
    rw [hn, List.length_append, length_natToBe, length_encodeEntries, Nat.mul_comm]
  rw [serializeTrie_eq, deserializeTrie_ok s' hlen, hn,
    partRecords, hrec]
  rfl

theorem get_setAll_of_nodupKeys (t : Trie) (l : List (Σ _ : Key, Value)) (hl : l.NodupKeys) (k : Key) :
    (t.setAll (l.map fun e => (e.1, e.2))).get k = (l.dlookup k).getD (t.get k) := by
  induction l generalizing t with
  | nil => rfl
  | cons e l ih =>
    obtain ⟨k', v⟩ := e
    rw [List.nodupKeys_cons] at hl
    rw [List.map_cons, Trie.setAll_cons, ih _ hl.2]
    by_cases hk : k = k'
    · subst hk
      rw [List.dlookup_eq_none.2 hl.1, List.dlookup_cons_eq]
      simp
    · rw [List.dlookup_cons_ne _ _ hk]
      simp [Ne.symm hk]

theorem get_restoredTrie (s : State) (k : Key) :
    (s.restoredTrie E).get k = if k ∈ probes.map E.key then s.trie.get k else Bytes.zero 32 := by
  rw [restoredTrie, get_setAll_of_nodupKeys _ _ (s.collectEntries E).nodupKeys]
  show ((s.collectEntries E).lookup k).getD _ = _
  rw [lookup_collectEntries]
  by_cases hp : k ∈ probes.map E.key
  · by_cases hv : s.trie.get k = Bytes.zero 32 <;> simp [hp, hv]
  · simp [hp]

theorem restore_of_deserializeTrie (s s'' : State) (snap : VtSnapshot)
    (hd : s.deserializeTrie snap.data = some (s'', none)) :
    s.restore E snap =
      some (s'', if (s''.getHash E).toList = snap.getMetaData.take 32 then none
        else some "commitment mismatch after restore") := by
  rw [restore, if_neg (by simp)]
  simp only [Option.pure_def, Option.bind_eq_bind, Option.some_bind,
    sliceOf_of_le (Nat.zero_le 32) (by simp : 32 ≤ snap.getMetaData.length), VtSnapshot.getPartData_zero,
    List.drop_zero, Nat.sub_zero, hd]
  by_cases h : (s''.getHash E).toList = snap.getMetaData.take 32 <;> simp [h]

theorem restore_createSnapshot (s s' : State) :
    s'.restore E (s.createSnapshot E) =
      some ({ s' with trie := s.restoredTrie E },
        if (s.restoredTrie E).commit E.rootOf = s.getHash E then none
        else some "commitment mismatch after restore") := by
  have hmeta : (s.createSnapshot E).getMetaData.take 32 = (s.getHash E).toList := by
    simp [VtSnapshot.getMetaData, createSnapshot, Bytes.ofList_toList]
  rw [restore_of_deserializeTrie E s' _ (s.createSnapshot E) (deserializeTrie_serializeTrie E s s'), hmeta]
  rw [getHash, getHash]
  dsimp only
  by_cases h : (s.restoredTrie E).commit E.rootOf = s.trie.commit E.rootOf
  · rw [if_pos h, if_pos (congrArg Bytes.toList h)]
  · rw [if_neg h, if_neg (mt Bytes.ext h)]

/-- A non-zero key `serializeTrie` does not probe is lost: the snapshot restores a trie with zero
there, and `Restore` reports a mismatch whenever the commitment tells the tries apart. -/
theorem snapshot_loses_unprobed_key (s s' : State) (k : Key) (hk : k ∉ probes.map E.key)
    (hv : s.trie.get k ≠ Bytes.zero 32) :
    ∃ t : Trie, t.get k = Bytes.zero 32 ∧ t.content ≠ s.trie.content ∧
      s'.deserializeTrie (s.serializeTrie E) = some ({ s' with trie := t }, none) ∧
      s'.restore E (s.createSnapshot E) =
        some ({ s' with trie := t }, if t.commit E.rootOf = s.getHash E then none
          else some "commitment mismatch after restore") := by
  have hzero : (s.restoredTrie E).get k = Bytes.zero 32 := by rw [get_restoredTrie, if_neg hk]
  refine ⟨s.restoredTrie E, hzero, fun h => hv ?_, deserializeTrie_serializeTrie E s s',
    restore_createSnapshot E s s'⟩
  rw [← Trie.content_eq_iff.1 h k, hzero]

end State

/-- The account `0x00…01`, whose last byte `serializeTrie`'s probes never set. -/
def unprobedAddress : Address := Bytes.ofList (List.replicate 19 0 ++ [1])

/-- A nonce for `unprobedAddress`. -/
def unprobedUpdate : Update where
  nonces := [⟨unprobedAddress, Bytes.ofList [0, 0, 0, 0, 0, 0, 0, 1]⟩]

theorem basicDataKey_unprobed_not_mem : Env.sample.getBasicDataKey unprobedAddress ∉ probes.map Env.sample.key := by
  intro h
  obtain ⟨p, hp, hpk⟩ := List.mem_map.1 h
  have h19 := sample_key_probe_byte19 hp
  rw [hpk] at h19
  exact absurd h19 (by decide)

theorem restoredTrie_unprobed_commit_ne :
    ((newState.apply Env.sample 1 unprobedUpdate).restoredTrie Env.sample).commit Env.sample.rootOf ≠
      (newState.apply Env.sample 1 unprobedUpdate).getHash Env.sample := by
  have ht : (newState.apply Env.sample 1 unprobedUpdate).trie =
      Trie.empty.set (Env.sample.getBasicDataKey unprobedAddress)
        ((Trie.empty.get (Env.sample.getBasicDataKey unprobedAddress)).copy 8 16 [0, 0, 0, 0, 0, 0, 0, 1]) := rfl
  have hempty : ∀ k, ((newState.apply Env.sample 1 unprobedUpdate).restoredTrie Env.sample).get k =
      Trie.empty.get k := by
    intro k
    rw [State.get_restoredTrie, ht, Trie.get_set]
    split_ifs with hk hk'
    · subst hk'
      exact absurd hk basicDataKey_unprobed_not_mem
    · rfl
    · rfl
  rw [Trie.commit_eq_of_get hempty, State.getHash, ht]
  decide

theorem snapshot_loses_unprobed_key_sample :
    let s := newState.apply Env.sample 1 unprobedUpdate
    let k := Env.sample.getBasicDataKey unprobedAddress
    k ∉ probes.map Env.sample.key ∧ s.trie.get k ≠ Bytes.zero 32 ∧
      ∃ t : Trie, t.get k = Bytes.zero 32 ∧ t.content ≠ s.trie.content ∧
        newState.deserializeTrie (s.serializeTrie Env.sample) = some ({ newState with trie := t }, none) ∧
        newState.restore Env.sample (s.createSnapshot Env.sample) =
          some ({ newState with trie := t }, some "commitment mismatch after restore") := by
  have hv : (newState.apply Env.sample 1 unprobedUpdate).trie.get (Env.sample.getBasicDataKey unprobedAddress) ≠
      Bytes.zero 32 := by decide
  obtain ⟨t, hzero, hne, hd, hr⟩ :=
    State.snapshot_loses_unprobed_key Env.sample _ newState _ basicDataKey_unprobed_not_mem hv
  -- The trie of the existential is the restored one; compare by projection, never by unfolding it.
  have ht := congrArg State.trie (Prod.mk.inj (Option.some.inj (hd.symm.trans
    (State.deserializeTrie_serializeTrie Env.sample (newState.apply Env.sample 1 unprobedUpdate) newState)))).1
  dsimp only at ht
  have hc : ¬ t.commit Env.sample.rootOf = (newState.apply Env.sample 1 unprobedUpdate).getHash Env.sample :=
    ht ▸ restoredTrie_unprobed_commit_ne
  rw [if_neg hc] at hr
  exact ⟨basicDataKey_unprobed_not_mem, hv, _, hzero, hne, hd, hr⟩

namespace State

variable (E : Env)

theorem get_restoredTrie_of_probed (s : State)
    (hprobed : ∀ k, s.trie.get k ≠ Bytes.zero 32 → k ∈ probes.map E.key) (k : Key) :
    (s.restoredTrie E).get k = s.trie.get k := by
  rw [get_restoredTrie]
  split_ifs with h
  · rfl
  · exact (not_not.1 (mt (hprobed k) h)).symm

theorem restore_createSnapshot_eq_of_probed (s s' : State)
    (hprobed : ∀ k, s.trie.get k ≠ Bytes.zero 32 → k ∈ probes.map E.key) :
    s'.restore E (s.createSnapshot E) = some ({ s' with trie := s.restoredTrie E }, none) := by
  have hc : (s.restoredTrie E).commit E.rootOf = s.getHash E :=
    Trie.commit_eq_of_get (get_restoredTrie_of_probed E s hprobed)
  rw [restore_createSnapshot, if_pos hc]

theorem probed_applyUpdate (s : State) (u : Update)
    (hs : ∀ k, s.trie.get k ≠ Bytes.zero 32 → k ∈ probes.map E.key)
    (hu : ∀ l ∈ u.locations E, l ∈ probes) (k : Key) (hk : (s.applyUpdate E u).trie.get k ≠ Bytes.zero 32) :
    k ∈ probes.map E.key := by
  by_cases hw : k ∈ (u.locations E).map E.key
  · obtain ⟨l, hl, rfl⟩ := List.mem_map.1 hw
    exact List.mem_map_of_mem _ (hu l hl)
  · exact hs k (get_applyUpdate_of_not_mem E s u hw ▸ hk)

end State

theorem sampleUpdate_state_probed (k : Key)
    (hk : (newState.applyUpdate Env.sample sampleUpdate).trie.get k ≠ Bytes.zero 32) :
    k ∈ probes.map Env.sample.key :=
  State.probed_applyUpdate Env.sample newState sampleUpdate (fun k hk => absurd (Trie.get_empty k) hk)
    sampleUpdate_probed k hk

end VerkleTrie.Memory
