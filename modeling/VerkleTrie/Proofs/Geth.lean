import VerkleTrie.Geth.State
import VerkleTrie.Proofs.Accounts

/-! # What the go-ethereum backend is for

The setters of `verkleState` keep the same account store as `State`. Over any calls `ApplyTo` can
make from `NewState`, every getter answers from the store those calls build, as long as
go-ethereum's trie reads back what it stores (`VerkleTrieOps.Lawful`); the calls fail exactly at a
`DeleteAccount`. Two answers differ from `State`'s: an account never written has the empty code
hash, and `Exists` looks at the low 64 bits of the balance only. `persistentVerkleState.Apply`
writes every committed node to its source and keeps the others.
-/

namespace VerkleTrie.Geth

open VerkleTrie.Memory (Address Nonce Hash Amount Env Accounts sampleAddress sampleKey)

/-- What the results below need of go-ethereum's trie: a new trie is empty, and each update
succeeds and changes what it writes only, accounts and slots apart. -/
structure VerkleTrieOps.Lawful {T : Type} (V : VerkleTrieOps T) : Prop where
  newVerkleTrie_empty : ∃ t, V.newVerkleTrie (Bytes.zero 32) none = .ok t ∧
    (∀ a, V.getAccount t a = .ok none) ∧ ∀ a k, V.getStorage t a k = .ok []
  updateAccount : ∀ t a acc n, ∃ t', V.updateAccount t a acc n = .ok t' ∧
    (∀ b, V.getAccount t' b = if b = a then .ok (some acc) else V.getAccount t b) ∧
    ∀ b k, V.getStorage t' b k = V.getStorage t b k
  updateStorage : ∀ t a k v, ∃ t', V.updateStorage t a k v = .ok t' ∧
    (∀ b, V.getAccount t' b = V.getAccount t b) ∧
    ∀ b j, V.getStorage t' b j = if b = a ∧ j = k then .ok v else V.getStorage t b j
  updateContractCode : ∀ t a h c, ∃ t', V.updateContractCode t a h c = .ok t' ∧
    (∀ b, V.getAccount t' b = V.getAccount t b) ∧ ∀ b k, V.getStorage t' b k = V.getStorage t b k

/-! ## The store -/

/-- What a call does to the store: a setter sets its field, a new code brings its hash, and
`CreateAccount` changes nothing a getter reads. -/
def callStore (E : Env) (A : Accounts) : Call → Accounts
  | .deleteAccount _ => A
  | .createAccount _ => A
  | .setBalance a b => { A with balance := Function.update A.balance a b }
  | .setNonce a n => { A with nonce := Function.update A.nonce a n }
  | .setCode a c =>
    { A with code := Function.update A.code a c, codeHash := Function.update A.codeHash a (E.keccak256 c) }
  | .setStorage a k v => { A with storage := fun b j => if b = a ∧ j = k then v else A.storage b j }

def callsStore (E : Env) (A : Accounts) (calls : List Call) : Accounts := calls.foldl (callStore E) A

/-- The store `NewState` holds: no nonce, balance, code or storage, and the empty code hash. -/
def initialStore (E : Env) : Accounts := { Accounts.empty with codeHash := fun _ => E.emptyCodeHash }

def Call.deletes : Call → Bool
  | .deleteAccount _ => true
  | _ => false

/-! ## Nonces -/

theorem toUint64_toNat (n : Nonce) : (toUint64 n).toNat = beToNat n.toList := by
  have h := beToNat_lt n.toList
  rw [n.length_toList] at h
  exact UInt64.toNat_ofNat_of_lt (lt_of_lt_of_eq h (by norm_num))

theorem toNonce_toUint64 (n : Nonce) : toNonce (toUint64 n) = n := by
  apply Bytes.ext
  show natToBe 8 (toUint64 n).toNat = n.toList
  have h := natToBe_beToNat n.toList
  rwa [n.length_toList, ← toUint64_toNat] at h

theorem toUint64_eq_zero_iff (n : Nonce) : toUint64 n = 0 ↔ n = Bytes.zero 8 := by
  have h : toUint64 n = 0 ↔ (toUint64 n).toNat = UInt64.toNat 0 :=
    ⟨congrArg UInt64.toNat, UInt64.toNat.inj⟩
  rw [h, UInt64.toNat_zero, toUint64_toNat, Bytes.ext_iff, Bytes.toList_zero, List.eq_replicate_iff,
    beToNat_eq_zero_iff]
  simp

/-! ## The adapter holds the store -/

/-- An account of the trie with the store's nonce, balance and code hash of `a`. -/
def Holds (A : Accounts) (a : Address) (acc : StateAccount) : Prop :=
  acc.nonce = toUint64 (A.nonce a) ∧ acc.balance = A.balance a ∧ 32 ≤ acc.codeHash.length ∧
    Bytes.ofList acc.codeHash = A.codeHash a

/-- The adapter holds the store: each address reads an account that holds it, each slot reads the
store's value, and the map has the store's code. -/
structure Refines {T : Type} (E : Env) (V : VerkleTrieOps T) (A : Accounts) (s : VerkleState T) : Prop where
  account : ∀ a, ∃ acc, s.getAccount E V a = .ok acc ∧ Holds A a acc
  storage : ∀ a k, s.getStorage V a k = some (.ok (A.storage a k))
  code : ∀ a, s.codes a = A.code a

variable {T : Type} {E : Env} {V : VerkleTrieOps T} {A : Accounts} {s : VerkleState T}

theorem getAccount_congr {s s' : VerkleState T} {a : Address}
    (h : V.getAccount s'.verkle a = V.getAccount s.verkle a) : s'.getAccount E V a = s.getAccount E V a := by
  unfold VerkleState.getAccount; rw [h]

theorem getAccount_of_some {a : Address} {acc : StateAccount} (h : V.getAccount s.verkle a = .ok (some acc)) :
    s.getAccount E V a = .ok acc := by
  unfold VerkleState.getAccount; rw [h]; rfl

theorem getStorage_congr {s s' : VerkleState T} {a : Address} {k : Key}
    (h : V.getStorage s'.verkle a k = V.getStorage s.verkle a k) : s'.getStorage V a k = s.getStorage V a k := by
  unfold VerkleState.getStorage; rw [h]

theorem getStorage_of_value {a : Address} {k : Key} {v : Value} (h : V.getStorage s.verkle a k = .ok v.toList) :
    s.getStorage V a k = some (.ok v) := by
  unfold VerkleState.getStorage
  rw [h]
  simp [Bytes.ofList_toList]

theorem Refines.getters (h : Refines E V A s) (a : Address) :
    s.getNonce E V a = .ok (A.nonce a) ∧ s.getBalance E V a = .ok (A.balance a) ∧
      s.getCodeHash E V a = some (.ok (A.codeHash a)) ∧ s.getCode a = A.code a ∧
      s.getCodeSize a = (A.code a).length ∧ ∀ k, s.getStorage V a k = some (.ok (A.storage a k)) := by
  obtain ⟨acc, hacc, hn, hb, hl, hh⟩ := h.account a
  refine ⟨?_, ?_, ?_, h.code a, congrArg List.length (h.code a), h.storage a⟩
  · rw [VerkleState.getNonce, hacc]
    show Except.ok (toNonce acc.nonce) = _
    rw [hn, toNonce_toUint64]
  · rw [VerkleState.getBalance, hacc, ← hb]
    rfl
  · simp only [VerkleState.getCodeHash, hacc, hh, if_neg (not_lt.2 hl)]

theorem Refines.exists_eq (h : Refines E V A s) (a : Address) :
    s.exists E V a = .ok (decide (A.nonce a ≠ Bytes.zero 8 ∨ (A.balance a).toNat % 2 ^ 64 ≠ 0)) := by
  obtain ⟨acc, hacc, hn, hb, -, -⟩ := h.account a
  rw [VerkleState.exists, hacc]
  show Except.ok (acc.nonce != 0 || acc.balance.toNat % 2 ^ 64 != 0) = _
  rw [hn, hb]
  congr 1
  rw [Bool.eq_iff_iff]
  simp [toUint64_eq_zero_iff]

theorem Refines.of_reads (h : Refines E V A s) {s' : VerkleState T}
    (ha : ∀ a, V.getAccount s'.verkle a = V.getAccount s.verkle a)
    (hs : ∀ a k, V.getStorage s'.verkle a k = V.getStorage s.verkle a k) (hc : s'.codes = s.codes) :
    Refines E V A s' where
  account a := let ⟨acc, hacc, hh⟩ := h.account a; ⟨acc, (getAccount_congr (ha a)).trans hacc, hh⟩
  storage a k := (getStorage_congr (hs a k)).trans (h.storage a k)
  code a := hc ▸ h.code a

/-! ## One call -/

section Lawful

variable (hV : V.Lawful)
include hV

theorem Refines.updateAccount (h : Refines E V A s) {a : Address} {acc : StateAccount} {n : Nat} {t : T}
    (ht : V.updateAccount s.verkle a acc n = .ok t) {A' : Accounts} (hacc : Holds A' a acc)
    (hother : ∀ b, b ≠ a → ∀ acc', Holds A b acc' → Holds A' b acc') (hst : A'.storage = A.storage)
    (hcode : A'.code = A.code) : Refines E V A' { s with verkle := t } := by
  obtain ⟨t', ht', hacc', hst'⟩ := hV.updateAccount s.verkle a acc n
  rw [ht] at ht'
  cases ht'
  refine ⟨fun b => ?_, fun b k => ?_, fun b => hcode ▸ h.code b⟩
  · by_cases hb : b = a
    · subst hb
      exact ⟨acc, getAccount_of_some (by rw [hacc' b, if_pos rfl]), hacc⟩
    · obtain ⟨acc', h1, h2⟩ := h.account b
      exact ⟨acc', (getAccount_congr (by rw [hacc' b, if_neg hb])).trans h1, hother b hb acc' h2⟩
  · rw [hst, ← h.storage b k]
    exact getStorage_congr (hst' b k)

theorem Refines.setAccountField (h : Refines E V A s) (a : Address) (change : StateAccount → StateAccount)
    {A' : Accounts} (hacc : ∀ acc, Holds A a acc → Holds A' a (change acc))
    (hother : ∀ b, b ≠ a → ∀ acc', Holds A b acc' → Holds A' b acc') (hst : A'.storage = A.storage)
    (hcode : A'.code = A.code) :
    (s.setAccountField E V a change).2 = none ∧ Refines E V A' (s.setAccountField E V a change).1 := by
  obtain ⟨acc, hget, hh⟩ := h.account a
  obtain ⟨t, ht, -⟩ := hV.updateAccount s.verkle a (change acc) (s.getCodeSize a)
  simp only [VerkleState.setAccountField, hget, ht, true_and]
  exact h.updateAccount hV ht (hacc acc hh) hother hst hcode

theorem Refines.createAccount (h : Refines E V A s) (a : Address) :
    (s.createAccount E V a).2 = none ∧ Refines E V A (s.createAccount E V a).1 := by
  obtain ⟨acc, hget, hh⟩ := h.account a
  unfold VerkleState.getAccount at hget
  cases hraw : V.getAccount s.verkle a with
  | error e => rw [hraw] at hget; cases hget
  | ok o =>
    cases o with
    | some _ => simp only [VerkleState.createAccount, hraw, true_and]; exact h
    | none =>
      -- The trie has no account, so `getAccount` read the empty one, and `hh` is about it.
      rw [hraw] at hget
      obtain ⟨t, ht, -⟩ := hV.updateAccount s.verkle a (StateAccount.empty E) 0
      simp only [VerkleState.createAccount, hraw, ht, true_and]
      exact h.updateAccount hV ht (Except.ok.inj hget ▸ hh) (fun _ _ _ h' => h') rfl rfl

theorem Refines.setStorage (h : Refines E V A s) (a : Address) (k : Key) (v : Value) :
    (s.setStorage V a k v).2 = none ∧
      Refines E V { A with storage := fun b j => if b = a ∧ j = k then v else A.storage b j }
        (s.setStorage V a k v).1 := by
  obtain ⟨t, ht, hacc', hst'⟩ := hV.updateStorage s.verkle a k v.toList
  simp only [VerkleState.setStorage, ht, true_and]
  refine ⟨fun b => ?_, fun b j => ?_, h.code⟩
  · obtain ⟨acc, h1, h2⟩ := h.account b
    exact ⟨acc, (getAccount_congr (hacc' b)).trans h1, h2⟩
  · dsimp only
    by_cases hbj : b = a ∧ j = k
    · rw [if_pos hbj]
      exact getStorage_of_value (by rw [hst' b j, if_pos hbj])
    · rw [if_neg hbj, ← h.storage b j]
      exact getStorage_congr (by rw [hst' b j, if_neg hbj])

theorem Refines.setCode (h : Refines E V A s) (a : Address) (c : List UInt8) :
    (s.setCode E V a c).2 = none ∧ Refines E V (callStore E A (.setCode a c)) (s.setCode E V a c).1 := by
  obtain ⟨acc, hget, hh⟩ := h.account a
  obtain ⟨t₁, ht₁, -⟩ := hV.updateAccount s.verkle a { acc with codeHash := (E.keccak256 c).toList } c.length
  obtain ⟨t₂, ht₂, hacc₂, hst₂⟩ := hV.updateContractCode t₁ a (E.keccak256 c) c
  simp only [VerkleState.setCode, hget, ht₁, ht₂, true_and]
  -- The account first takes the new hash; the contract code leaves accounts and slots; the map
  -- then takes the code.
  have h₁ : Refines E V { A with codeHash := Function.update A.codeHash a (E.keccak256 c) }
      { s with verkle := t₁ } :=
    h.updateAccount hV ht₁ ⟨hh.1, hh.2.1, by simp, by simp [Bytes.ofList_toList]⟩
      (fun b hb acc' h' => ⟨h'.1, h'.2.1, h'.2.2.1, by simp [Function.update_noteq hb, h'.2.2.2]⟩) rfl rfl
  have h₂ : Refines E V { A with codeHash := Function.update A.codeHash a (E.keccak256 c) }
      { verkle := t₂, codes := s.codes } := h₁.of_reads hacc₂ hst₂ rfl
  refine ⟨fun b => h₂.account b, h₂.storage, fun b => ?_⟩
  by_cases hb : b = a
  · subst hb; simp [callStore]
  · simp [callStore, Function.update_noteq hb, h.code b]

theorem Refines.call (h : Refines E V A s) (c : Call) (hc : c.deletes = false) :
    (s.call E V c).2 = none ∧ Refines E V (callStore E A c) (s.call E V c).1 := by
  cases c with
  | deleteAccount a => cases hc
  | createAccount a => exact h.createAccount hV a
  | setBalance a b =>
    refine h.setAccountField hV a _ (fun acc hh => ⟨hh.1, by simp [callStore], hh.2.2⟩) (fun b' hb acc' h' => ?_) rfl rfl
    exact ⟨h'.1, by simp [callStore, Function.update_noteq hb, h'.2.1], h'.2.2⟩
  | setNonce a n =>
    refine h.setAccountField hV a _ (fun acc hh => ⟨by simp [callStore], hh.2⟩) (fun b' hb acc' h' => ?_) rfl rfl
    exact ⟨by simp [callStore, Function.update_noteq hb, h'.1], h'.2⟩
  | setCode a c => exact h.setCode hV a c
  | setStorage a k v => exact h.setStorage hV a k v

/-- A run of calls fails exactly at its first `DeleteAccount`; without one, the adapter holds the
store the calls build. -/
theorem Refines.apply (h : Refines E V A s) (calls : List Call) :
    (s.apply E V calls).2 =
        (if calls.any Call.deletes then some "not supported: verkle trie does not support deleting accounts"
        else none) ∧
      (calls.any Call.deletes = false → Refines E V (callsStore E A calls) (s.apply E V calls).1) := by
  induction calls generalizing A s with
  | nil => exact ⟨rfl, fun _ => h⟩
  | cons c calls ih =>
    cases hc : c.deletes with
    | true =>
      cases c with
      | deleteAccount a => exact ⟨rfl, fun h' => by simp [Call.deletes] at h'⟩
      | _ => cases hc
    | false =>
      obtain ⟨herr, h'⟩ := h.call hV c hc
      have happly : s.apply E V (c :: calls) = (s.call E V c).1.apply E V calls := by
        rw [VerkleState.apply, ← Prod.mk.eta (p := s.call E V c), herr]
      rw [happly, List.any_cons, hc, Bool.false_or]
      exact ih h'

theorem refines_newState : ∃ s, newState V = .ok s ∧ Refines E V (initialStore E) s := by
  obtain ⟨t, ht, hacc, hst⟩ := hV.newVerkleTrie_empty
  refine ⟨{ verkle := t, codes := fun _ => [] }, by simp only [newState, ht]; rfl,
    ⟨fun a => ⟨StateAccount.empty E, ?_, ?_⟩, fun a k => ?_, fun a => rfl⟩⟩
  · unfold VerkleState.getAccount; rw [hacc a]; rfl
  · exact ⟨((toUint64_eq_zero_iff _).2 rfl).symm, rfl, by simp [StateAccount.empty],
      by simp [StateAccount.empty, Bytes.ofList_toList, initialStore]⟩
  · unfold VerkleState.getStorage
    rw [hst a k]
    rfl

end Lawful

/-! ## A trie to run the adapter on -/

/-- A trie as two maps, accounts and slots. -/
structure MapTrie where
  accounts : Address → Option StateAccount
  slots : Address → Key → List UInt8

/-- The calls on a `MapTrie`: none fails, and the contract code is not kept. -/
def MapTrie.ops : VerkleTrieOps MapTrie where
  getAccount t a := .ok (t.accounts a)
  updateAccount t a acc _ := .ok { t with accounts := Function.update t.accounts a (some acc) }
  getStorage t a k := .ok (t.slots a k)
  updateStorage t a k v := .ok { t with slots := fun b j => if b = a ∧ j = k then v else t.slots b j }
  updateContractCode t _ _ _ := .ok t
  hash _ := Bytes.zero 32
  commit _ := (Bytes.zero 32, ∅)
  newVerkleTrie _ _ := .ok ⟨fun _ => none, fun _ _ => []⟩

theorem MapTrie.lawful : MapTrie.ops.Lawful where
  newVerkleTrie_empty := ⟨_, rfl, fun _ => rfl, fun _ _ => rfl⟩
  updateAccount t a acc _ := ⟨_, rfl, fun b => by by_cases hb : b = a <;> simp [MapTrie.ops, hb], fun _ _ => rfl⟩
  updateStorage t a k v := ⟨_, rfl, fun _ => rfl, fun b j => by by_cases h : b = a ∧ j = k <;> simp [MapTrie.ops, h]⟩
  updateContractCode t _ _ _ := ⟨t, rfl, fun _ => rfl, fun _ _ => rfl⟩

/-- Calls on account 1: create it, give it a balance of `2^64`, and write 9 to slot 3. -/
def sampleCalls : List Call :=
  [.createAccount (sampleAddress 1), .setBalance (sampleAddress 1) ⟨2 ^ 64, by decide⟩,
    .setStorage (sampleAddress 1) (sampleKey 3) (Bytes.ofList [9])]

/-! ## Runs from `NewState` -/

theorem node_foldl_set (l : List (Sigma fun _ : List UInt8 => List UInt8)) (hl : l.NodupKeys)
    (src : MemorySource) (path : List UInt8) :
    (l.foldl (fun src n => src.set n.1 n.2) src).node path = (l.dlookup path).or (src.node path) := by
  induction l generalizing src with
  | nil => rfl
  | cons n l ih =>
    rw [List.nodupKeys_cons] at hl
    rw [List.foldl_cons, ih hl.2]
    by_cases hp : path = n.1
    · subst hp
      rw [List.dlookup_eq_none.2 hl.1, List.dlookup_cons_eq]
      simp [MemorySource.node, MemorySource.set]
    · rw [List.dlookup_cons_ne _ _ hp]
      simp [MemorySource.node, MemorySource.set, AList.lookup_insert_ne hp]

/-- After `Apply`, the source holds every node of the commit and keeps every other node; when a
call fails it is left as it was. -/
theorem source_node_apply (p : PersistentVerkleState T) (calls : List Call) (path : List UInt8) :
    (p.apply E V calls).1.source.node path =
      match (p.state.apply E V calls).2 with
      | some _ => p.source.node path
      | none => ((V.commit (p.state.apply E V calls).1.verkle).2.lookup path).or (p.source.node path) := by
  unfold PersistentVerkleState.apply
  rcases p.state.apply E V calls with ⟨s, _ | e⟩
  · dsimp only
    split <;> exact node_foldl_set _ (V.commit s.verkle).2.nodupKeys _ _
  · rfl

end VerkleTrie.Geth
