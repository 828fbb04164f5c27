import VerkleTrie.Proofs.Witness

/-! # The elements of a witness proof

`GetElements` writes a proof as byte strings: the account's fields and address, then one element
for each slot the proof covers. Read at the offsets the code writes them, the elements give back
the proof's fields and exactly its slots, one element each, in whatever order the map is walked.
`GetAccountElements` and `GetStorageElements` give the same bytes for the account and for one
slot. The elements of a proof derived from a state therefore carry the state's values.
-/

namespace VerkleTrie.Memory

/-- Reads an account element at the offsets `GetElements` writes: balance, nonce, code hash and
address. -/
def decodeAccount (e : List UInt8) : Amount × Nonce × Hash × Address :=
  (Amount.newFromBytes (e.take 32), Bytes.ofList ((e.drop 32).take 8), Bytes.ofList ((e.drop 40).take 32),
    Bytes.ofList ((e.drop 72).take 20))

/-- Reads a storage element: the key, then the value. -/
def decodeSlot (e : List UInt8) : Key × Value :=
  (Bytes.ofList (e.take 32), Bytes.ofList ((e.drop 32).take 32))

theorem Amount.newFromBytes_bytes32 (a : Amount) : Amount.newFromBytes a.bytes32.toList = a := by
  obtain ⟨x, hx⟩ := a
  have hx' : x < 256 ^ 32 := hx
  simp only [Amount.newFromBytes, Amount.bytes32, beToNat_natToBe, Nat.mod_eq_of_lt hx', Nat.mod_eq_of_lt hx]

theorem filter_key_eq_of_nodupKeys {l : List (Σ _ : Key, Value)} (hl : l.NodupKeys) (k : Key) :
    l.filter (fun e => e.1 = k) = ((l.dlookup k).map fun v => (⟨k, v⟩ : Σ _ : Key, Value)).toList := by
  induction l with
  | nil => rfl
  | cons e l ih =>
    obtain ⟨he, hl'⟩ := List.nodupKeys_cons.1 hl
    by_cases h : e.1 = k
    · obtain ⟨k', v⟩ := e
      subst h
      have hnil : l.filter (fun e => e.1 = k') = [] := by
        rw [ih hl', List.dlookup_eq_none.2 he]
        rfl
      simp [hnil]
    · rw [List.filter_cons_of_neg (by simpa using h), ih hl', List.dlookup_cons_ne _ _ (Ne.symm h)]

namespace VtWitnessProof

variable (p : VtWitnessProof)

theorem slices_accountFields {n : Nat} (hn : 72 ≤ n) :
    (p.accountFields : Bytes n).slice 0 32 = p.balance.bytes32.toList ∧
      (p.accountFields : Bytes n).slice 32 40 = p.nonce.toList ∧
      (p.accountFields : Bytes n).slice 40 72 = p.codeHash.toList := by
  unfold accountFields
  refine ⟨?_, ?_, ?_⟩
  · rw [Bytes.slice_copy_of_disjoint _ (by omega) hn (by simp) (by omega),
      Bytes.slice_copy_of_disjoint _ (by omega) (by omega) (by simp) (by omega),
      Bytes.slice_copy_self _ (by omega) (by omega) (by simp)]
  · rw [Bytes.slice_copy_of_disjoint _ (by omega) hn (by simp) (by omega),
      Bytes.slice_copy_self _ (by omega) (by omega) (by simp)]
  · rw [Bytes.slice_copy_self _ (by omega) hn (by simp)]

theorem decodeAccount_accountElement :
    decodeAccount ((p.accountFields : Bytes 104).copy 72 104 p.address.toList).toList =
      (p.balance, p.nonce, p.codeHash, p.address) := by
  obtain ⟨h1, h2, h3⟩ := p.slices_accountFields (show 72 ≤ 104 by decide)
  set b := (p.accountFields : Bytes 104).copy 72 104 p.address.toList
  have hb : decodeAccount b.toList = (Amount.newFromBytes (b.slice 0 32), Bytes.ofList (b.slice 32 40),
      Bytes.ofList (b.slice 40 72), Bytes.ofList (b.slice 72 92)) := rfl
  have haddr := Bytes.slice_copy_prefix (p.accountFields : Bytes 104) (le_refl 104)
    (show 72 + p.address.toList.length ≤ 104 by simp)
  simp only [Bytes.length_toList] at haddr
  have hd : ∀ {lo hi}, hi ≤ 72 → b.slice lo hi = (p.accountFields : Bytes 104).slice lo hi :=
    fun h => Bytes.slice_copy_of_le_of_disjoint _ (le_refl 104) (by simp) (Or.inl h)
  rw [hb, haddr, hd (by decide), hd (by decide), hd (le_refl 72), h1, h2, h3, Amount.newFromBytes_bytes32,
    Bytes.ofList_toList, Bytes.ofList_toList, Bytes.ofList_toList]

theorem decodeSlot_storageElement (k : Key) (v : Value) : decodeSlot (storageElement k v) = (k, v) := by
  set b := ((Bytes.zero 64).copy 0 32 k.toList).copy 32 64 v.toList
  have hb : decodeSlot (storageElement k v) = (Bytes.ofList (b.slice 0 32), Bytes.ofList (b.slice 32 64)) := rfl
  rw [hb, Bytes.slice_copy_of_disjoint _ (by decide) (le_refl 64) (by simp) (Or.inl (le_refl 32)),
    Bytes.slice_copy_self _ (by decide) (by decide) (by simp), Bytes.slice_copy_self _ (by decide) (le_refl 64) (by simp),
    Bytes.ofList_toList, Bytes.ofList_toList]

theorem map_decodeSlot_getElements :
    p.getElements.tail.map decodeSlot = p.storage.entries.map fun e => (e.1, e.2) := by
  simp only [getElements, List.tail_cons, List.map_map, Function.comp_def, decodeSlot_storageElement]

theorem mem_decodeSlots {k : Key} {v : Value} :
    (k, v) ∈ p.getElements.tail.map decodeSlot ↔ p.storage.lookup k = some v := by
  rw [map_decodeSlot_getElements, ← Option.mem_def, AList.mem_lookup_iff, List.mem_map]
  constructor
  · rintro ⟨⟨k', v'⟩, he, h⟩
    simp only [Prod.mk.injEq] at h
    obtain ⟨rfl, rfl⟩ := h
    exact he
  · exact fun he => ⟨_, he, rfl⟩

theorem nodup_decodeSlots : ((p.getElements.tail.map decodeSlot).map Prod.fst).Nodup := by
  rw [map_decodeSlot_getElements, List.map_map]
  exact p.storage.nodupKeys

/-- `GetElements` reads back: the proof's account fields, then exactly its slots, one each. -/
theorem decode_getElements :
    ∃ acc slots, p.getElements = acc :: slots ∧
      decodeAccount acc = (p.balance, p.nonce, p.codeHash, p.address) ∧
      ((slots.map decodeSlot).map Prod.fst).Nodup ∧
      ∀ k v, (k, v) ∈ slots.map decodeSlot ↔ p.storage.lookup k = some v :=
  ⟨_, _, rfl, p.decodeAccount_accountElement, p.nodup_decodeSlots, fun _ _ => p.mem_decodeSlots⟩

theorem accountFields_eq_take :
    (p.accountFields : Bytes 72).toList = ((p.accountFields : Bytes 104).copy 72 104 p.address.toList).toList.take 72 := by
  obtain ⟨a1, a2, a3⟩ := p.slices_accountFields (le_refl 72)
  obtain ⟨b1, b2, b3⟩ := p.slices_accountFields (show 72 ≤ 104 by decide)
  set b := (p.accountFields : Bytes 104).copy 72 104 p.address.toList
  have hd : ∀ {lo hi}, hi ≤ 72 → b.slice lo hi = (p.accountFields : Bytes 104).slice lo hi :=
    fun h => Bytes.slice_copy_of_le_of_disjoint _ (le_refl 104) (by simp) (Or.inl h)
  have htake : b.toList.take 72 = b.slice 0 72 := rfl
  rw [htake, ← Bytes.slice_append b 0 40 72 (by decide) (by decide), ← Bytes.slice_append b 0 32 40 (by decide) (by decide),
    hd (by decide), hd (by decide), hd (le_refl 72), b1, b2, b3,
    Bytes.toList_eq_slice_append _ 40, ← Bytes.slice_append _ 0 32 40 (by decide) (by decide), a1, a2, a3]

/-- For the proof's own root and address, both getters give the matching elements of
`GetElements`, and otherwise nothing. -/
theorem getAccountElements_getStorageElements (root : Hash) (b : Address) (k : Key) :
    p.getAccountElements root b =
      (if root = p.rootHash ∧ b = p.address then ([(p.getElements.headD []).take 72], p.rootHash, true)
       else ([], Bytes.zero 32, false)) ∧
    p.getStorageElements root b k =
      (if root = p.rootHash ∧ b = p.address then
        (p.getElements.tail.filter fun e => (decodeSlot e).1 = k, (p.storage.lookup k).isSome)
       else ([], false)) := by
  by_cases h : root = p.rootHash ∧ b = p.address
  · have hn : ¬(root ≠ p.rootHash ∨ b ≠ p.address) := by simpa using h
    rw [if_pos h, if_pos h, getAccountElements, if_neg hn, getStorageElements, if_neg hn,
      accountFields_eq_take]
    refine ⟨rfl, ?_⟩
    have hf : p.getElements.tail.filter (fun e => (decodeSlot e).1 = k) =
        ((p.storage.lookup k).map fun v => storageElement k v).toList := by
      simp only [getElements, List.tail_cons, List.filter_map, Function.comp_def,
        decodeSlot_storageElement]
      rw [filter_key_eq_of_nodupKeys p.storage.nodupKeys k, AList.lookup]
      cases p.storage.entries.dlookup k <;> rfl
    rw [hf]
    cases p.storage.lookup k <;> rfl
  · have hn : root ≠ p.rootHash ∨ b ≠ p.address := by
      by_contra hc
      exact h (by simpa using hc)
    rw [if_neg h, if_neg h, getAccountElements, if_pos hn, getStorageElements, if_pos hn]
    exact ⟨rfl, rfl⟩

variable {E : Env} {s : State}

/-- The elements of a created or extracted proof carry the state's values. -/
theorem derived_elements_sound {a : Address} {p : VtWitnessProof} (hp : Derived E s a p) :
    ∃ acc slots, p.getElements = acc :: slots ∧ (decodeAccount acc).2.2.2 = a ∧
      (p.exists → decodeAccount acc = (s.getBalance E a, s.getNonce E a, s.getCodeHash E a, a)) ∧
      ∀ e ∈ slots, (decodeSlot e).2 = s.getStorage E a (decodeSlot e).1 := by
  obtain ⟨hagree, rfl⟩ := hp.agreesWith
  refine ⟨_, _, rfl, by rw [p.decodeAccount_accountElement], fun hex => ?_, fun e he => ?_⟩
  · rw [p.decodeAccount_accountElement, hagree.balance_eq hex, hagree.nonce_eq hex, hagree.codeHash_eq hex]
  · have hmem : decodeSlot e ∈ p.getElements.tail.map decodeSlot := List.mem_map_of_mem _ he
    exact hagree.storage_eq _ _ (p.mem_decodeSlots.1 hmem)

theorem derived_elements_sound_sample :
    let s := newState.apply Env.sample 1 sampleUpdate
    let p := s.createWitnessProof Env.sample (sampleAddress 1) [sampleKey 3]
    ∃ acc slots, p.getElements = acc :: slots ∧ (decodeAccount acc).2.2.2 = sampleAddress 1 ∧
      (p.exists → decodeAccount acc = (s.getBalance Env.sample (sampleAddress 1),
        s.getNonce Env.sample (sampleAddress 1), s.getCodeHash Env.sample (sampleAddress 1), sampleAddress 1)) ∧
      ∀ e ∈ slots, (decodeSlot e).2 = s.getStorage Env.sample (sampleAddress 1) (decodeSlot e).1 :=
  derived_elements_sound (Derived.create [sampleKey 3])

end VtWitnessProof

end VerkleTrie.Memory
