import VerkleTrie.Proofs.Apply
import VerkleTrie.Memory.Witness

/-! # What witness proofs answer

`CreateWitnessProof` copies an account's fields and the requested slots out of the state, and
`Extract` keeps a part of that copy. Every answer such a proof marks `ok`, and every `False`, is
then what the state says. `AllStatesZero` answers `True` from the copy alone: a proof that
covers no slot answers `True` for every range of every state.
-/

namespace VerkleTrie.Memory

/-! ## The slots a proof covers -/

theorem lookup_foldl_insert (f : Key → Value) (keys : List Key) (acc : AList (fun _ : Key => Value))
    (k : Key) :
    (keys.foldl (fun m key => m.insert key (f key)) acc).lookup k =
      if k ∈ keys then some (f k) else acc.lookup k := by
  induction keys generalizing acc with
  | nil => simp
  | cons key keys ih =>
    rw [List.foldl_cons, ih]
    by_cases hk : k = key
    · subst hk; simp
    · simp [hk, AList.lookup_insert_ne hk]

theorem State.lookup_collectStorage (E : Env) (s : State) (a : Address) (keys : List Key) (k : Key) :
    (s.collectStorage E a keys).lookup k = if k ∈ keys then some (s.getStorage E a k) else none := by
  rw [State.collectStorage, lookup_foldl_insert, AList.lookup_empty]

namespace VtWitnessProof

theorem lookup_foldl_filter (p : VtWitnessProof) (keys : List Key)
    (acc : AList (fun _ : Key => Value)) (k : Key) :
    (keys.foldl (fun filtered key =>
        match p.storage.lookup key with
        | some value => filtered.insert key value
        | none => filtered) acc).lookup k =
      if k ∈ keys then (p.storage.lookup k).or (acc.lookup k) else acc.lookup k := by
  induction keys generalizing acc with
  | nil => simp
  | cons key keys ih =>
    rw [List.foldl_cons, ih]
    by_cases hk : k = key
    · subst hk
      cases p.storage.lookup k <;> simp
    · cases p.storage.lookup key <;> simp [hk, AList.lookup_insert_ne hk]

theorem lookup_filterStorage (p : VtWitnessProof) (keys : List Key) (k : Key) :
    (p.filterStorage keys).lookup k = if k ∈ keys then p.storage.lookup k else none := by
  have h := lookup_foldl_filter p keys ∅ k
  rw [AList.lookup_empty] at h
  refine h.trans ?_
  cases p.storage.lookup k <;> simp

/-! ## Proofs that agree with a state -/

variable {E : Env} {s : State}

/-- A proof that agrees with `s`: its root is `s`'s hash, it says whether its account exists as
`s` does, its fields are `s`'s when the account exists, and each slot it covers holds `s`'s
value. -/
structure AgreesWith (E : Env) (s : State) (p : VtWitnessProof) : Prop where
  rootHash_eq : p.rootHash = s.getHash E
  exists_eq : p.exists = s.exists E p.address
  balance_eq : p.exists → p.balance = s.getBalance E p.address
  nonce_eq : p.exists → p.nonce = s.getNonce E p.address
  codeHash_eq : p.exists → p.codeHash = s.getCodeHash E p.address
  storage_eq : ∀ k v, p.storage.lookup k = some v → v = s.getStorage E p.address k

theorem agreesWith_createWitnessProof (E : Env) (s : State) (a : Address) (keys : List Key) :
    (s.createWitnessProof E a keys).AgreesWith E s where
  rootHash_eq := rfl
  exists_eq := rfl
  balance_eq h := if_pos h
  nonce_eq h := if_pos h
  codeHash_eq h := if_pos h
  storage_eq k v h := by
    rw [State.createWitnessProof, State.lookup_collectStorage] at h
    show v = s.getStorage E a k
    split at h <;> simp_all

theorem AgreesWith.extract {p q : VtWitnessProof} (hp : p.AgreesWith E s) {root : Hash}
    {address : Address} {keys : List Key} (h : (p.extract root address keys).1 = some q) :
    q.AgreesWith E s ∧ q.address = p.address := by
  unfold VtWitnessProof.extract at h
  split_ifs at h
  cases h
  refine ⟨⟨hp.rootHash_eq, hp.exists_eq, hp.balance_eq, hp.nonce_eq, hp.codeHash_eq, fun k v hk => ?_⟩, rfl⟩
  rw [lookup_filterStorage] at hk
  split at hk
  · exact hp.storage_eq k v hk
  · cases hk

/-- The proofs `CreateWitnessProof` gives for `s` and `a`, and those `Extract` derives from
them. -/
inductive Derived (E : Env) (s : State) (a : Address) : VtWitnessProof → Prop
  | create (keys : List Key) : Derived E s a (s.createWitnessProof E a keys)
  | extract {p q : VtWitnessProof} (root : Hash) (address : Address) (keys : List Key) :
      Derived E s a p → (p.extract root address keys).1 = some q → Derived E s a q

theorem Derived.agreesWith {a : Address} {p : VtWitnessProof} (hp : Derived E s a p) :
    p.AgreesWith E s ∧ p.address = a := by
  induction hp with
  | create keys => exact ⟨agreesWith_createWitnessProof E s a keys, rfl⟩
  | extract root address keys _ he ih =>
    obtain ⟨hq, hadd⟩ := ih.1.extract he
    exact ⟨hq, hadd.trans ih.2⟩

/-! ## Each answer -/

theorem accountField_ok {α : Type} {p : VtWitnessProof} {root : Hash} {b : Address} {field zero : α}
    (h : (p.accountField root b field zero).2 = true) :
    b = p.address ∧ p.exists = true ∧ (p.accountField root b field zero).1 = field := by
  unfold accountField at h ⊢
  split_ifs at h ⊢ with h1 h2
  simp only [not_or, not_not, Bool.not_eq_true', Bool.not_eq_false] at h1 h2
  exact ⟨h1.2, h2, rfl⟩

theorem AgreesWith.getBalance_ok {p : VtWitnessProof} (hp : p.AgreesWith E s) {root : Hash}
    {b : Address} (h : (p.getBalance root b).2 = true) : (p.getBalance root b).1 = s.getBalance E b := by
  obtain ⟨rfl, hex, hval⟩ := accountField_ok h
  exact hval.trans (hp.balance_eq hex)

theorem AgreesWith.getNonce_ok {p : VtWitnessProof} (hp : p.AgreesWith E s) {root : Hash}
    {b : Address} (h : (p.getNonce root b).2 = true) : (p.getNonce root b).1 = s.getNonce E b := by
  obtain ⟨rfl, hex, hval⟩ := accountField_ok h
  exact hval.trans (hp.nonce_eq hex)

theorem AgreesWith.getCodeHash_ok {p : VtWitnessProof} (hp : p.AgreesWith E s) {root : Hash}
    {b : Address} (h : (p.getCodeHash root b).2 = true) : (p.getCodeHash root b).1 = s.getCodeHash E b := by
  obtain ⟨rfl, hex, hval⟩ := accountField_ok h
  exact hval.trans (hp.codeHash_eq hex)

theorem AgreesWith.getState_ok {p : VtWitnessProof} (hp : p.AgreesWith E s) {root : Hash}
    {b : Address} {k : Key} (h : (p.getState root b k).2 = true) :
    (p.getState root b k).1 = s.getStorage E b k := by
  unfold getState at h ⊢
  split_ifs at h ⊢ with h1
  obtain rfl : b = p.address := by simp only [not_or, not_not] at h1; exact h1.2
  cases hv : p.storage.lookup k with
  | none => simp [hv] at h
  | some v => simpa [hv] using hp.storage_eq k v hv

theorem AgreesWith.allStatesZero_false {p : VtWitnessProof} (hp : p.AgreesWith E s) {root : Hash}
    {b : Address} {lo hi : Key} (h : p.allStatesZero root b lo hi = .false) :
    ∃ k, inRange k.toList lo.toList hi.toList ∧ s.getStorage E b k ≠ Bytes.zero 32 := by
  unfold allStatesZero at h
  split_ifs at h with h1 h2
  obtain rfl : b = p.address := by simp only [not_or, not_not] at h1; exact h1.2
  obtain ⟨⟨k, v⟩, hmem, hk⟩ := List.any_eq_true.1 h2
  simp only [Bool.and_eq_true, bne_iff_ne] at hk
  exact ⟨k, hk.1, hp.storage_eq k v (AList.mem_lookup_iff.2 hmem) ▸ hk.2⟩

theorem AgreesWith.allAddressesEmpty_false {p : VtWitnessProof} (hp : p.AgreesWith E s) {root : Hash}
    {lo hi : Address} (h : p.allAddressesEmpty root lo hi = .false) :
    ∃ b, inRange b.toList lo.toList hi.toList ∧
      (s.getNonce E b ≠ Bytes.zero 8 ∨ (s.getBalance E b).toNat ≠ 0) := by
  unfold allAddressesEmpty at h
  split_ifs at h with h1 h2
  simp only [Bool.and_eq_true] at h2
  exact ⟨p.address, h2.1, (State.exists_iff E s p.address).1 (hp.exists_eq ▸ h2.2.1)⟩

/-- Every definite answer of a created or extracted proof is the state's. -/
theorem derived_answers_sound {a : Address} {p : VtWitnessProof} (hp : Derived E s a p) (root : Hash)
    (b : Address) (k lo hi : Key) (alo ahi : Address) :
    ((p.getBalance root b).2 = true → (p.getBalance root b).1 = s.getBalance E b) ∧
      ((p.getNonce root b).2 = true → (p.getNonce root b).1 = s.getNonce E b) ∧
      ((p.getCodeHash root b).2 = true → (p.getCodeHash root b).1 = s.getCodeHash E b) ∧
      ((p.getState root b k).2 = true → (p.getState root b k).1 = s.getStorage E b k) ∧
      (p.allStatesZero root b lo hi = .false →
        ∃ k, inRange k.toList lo.toList hi.toList ∧ s.getStorage E b k ≠ Bytes.zero 32) ∧
      (p.allAddressesEmpty root alo ahi = .false →
        ∃ b, inRange b.toList alo.toList ahi.toList ∧
          (s.getNonce E b ≠ Bytes.zero 8 ∨ (s.getBalance E b).toNat ≠ 0)) :=
  have h := hp.agreesWith.1
  ⟨h.getBalance_ok, h.getNonce_ok, h.getCodeHash_ok, h.getState_ok, h.allStatesZero_false,
    h.allAddressesEmpty_false⟩

theorem derived_answers_sound_sample :
    let s := newState.apply Env.sample 1 sampleUpdate
    let p := s.createWitnessProof Env.sample (sampleAddress 1) [sampleKey 3]
    let root := s.getHash Env.sample
    ((p.getBalance root (sampleAddress 1)).2 = true →
        (p.getBalance root (sampleAddress 1)).1 = s.getBalance Env.sample (sampleAddress 1)) ∧
      ((p.getNonce root (sampleAddress 1)).2 = true →
        (p.getNonce root (sampleAddress 1)).1 = s.getNonce Env.sample (sampleAddress 1)) ∧
      ((p.getCodeHash root (sampleAddress 1)).2 = true →
        (p.getCodeHash root (sampleAddress 1)).1 = s.getCodeHash Env.sample (sampleAddress 1)) ∧
      ((p.getState root (sampleAddress 1) (sampleKey 3)).2 = true →
        (p.getState root (sampleAddress 1) (sampleKey 3)).1 =
          s.getStorage Env.sample (sampleAddress 1) (sampleKey 3)) ∧
      (p.allStatesZero root (sampleAddress 1) (sampleKey 0) (sampleKey 255) = .false →
        ∃ k, inRange k.toList (sampleKey 0).toList (sampleKey 255).toList ∧
          s.getStorage Env.sample (sampleAddress 1) k ≠ Bytes.zero 32) ∧
      (p.allAddressesEmpty root (sampleAddress 0) (sampleAddress 255) = .false →
        ∃ b, inRange b.toList (sampleAddress 0).toList (sampleAddress 255).toList ∧
          (s.getNonce Env.sample b ≠ Bytes.zero 8 ∨ (s.getBalance Env.sample b).toNat ≠ 0)) :=
  derived_answers_sound (Derived.create _) _ _ _ _ _ _ _

/-- The proof for `keys` answers `GetState` for each of them, with the state's value. -/
theorem getState_createWitnessProof (E : Env) (s : State) (a : Address) {keys : List Key} {k : Key}
    (hk : k ∈ keys) :
    (s.createWitnessProof E a keys).getState (s.getHash E) a k = (s.getStorage E a k, true) := by
  rw [getState, if_neg (by simp [State.createWitnessProof])]
  simp [State.createWitnessProof, State.lookup_collectStorage, hk]

theorem getState_createWitnessProof_sample :
    sampleKey 3 ∈ [sampleKey 3] ∧
      ((newState.apply Env.sample 1 sampleUpdate).createWitnessProof Env.sample (sampleAddress 1)
          [sampleKey 3]).getState ((newState.apply Env.sample 1 sampleUpdate).getHash Env.sample)
          (sampleAddress 1) (sampleKey 3) =
        ((newState.apply Env.sample 1 sampleUpdate).getStorage Env.sample (sampleAddress 1) (sampleKey 3),
          true) :=
  ⟨List.mem_singleton_self _, getState_createWitnessProof _ _ _ (List.mem_singleton_self _)⟩

/-- `AllStatesZero` answers from the slots the proof covers: the proof for no key answers `True`
for every state, account and range. -/
theorem allStatesZero_createWitnessProof_nil (E : Env) (s : State) (a : Address) (lo hi : Key) :
    (s.createWitnessProof E a []).allStatesZero (s.getHash E) a lo hi = .true := by
  simp [allStatesZero, State.createWitnessProof, State.collectStorage]

/-- After an update that writes 9 to slot 3 of account 1, the proof for no key still answers
that every slot from 3 to 3 is zero. -/
theorem allStatesZero_true_on_nonzero_slot :
    let s := newState.apply Env.sample 1 sampleUpdate
    (s.createWitnessProof Env.sample (sampleAddress 1) []).allStatesZero (s.getHash Env.sample)
        (sampleAddress 1) (sampleKey 3) (sampleKey 3) = .true ∧
      inRange (sampleKey 3).toList (sampleKey 3).toList (sampleKey 3).toList ∧
      s.getStorage Env.sample (sampleAddress 1) (sampleKey 3) ≠ Bytes.zero 32 :=
  ⟨allStatesZero_createWitnessProof_nil _ _ _ _ _, by decide, by decide⟩

end VtWitnessProof

end VerkleTrie.Memory
