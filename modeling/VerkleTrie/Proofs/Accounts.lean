import VerkleTrie.Proofs.Storage
import VerkleTrie.Proofs.Code
import VerkleTrie.Proofs.Witness

/-! # What `State` is for: an account store

`State` packs the accounts into trie values. The code size, nonce and balance share one 32-byte
`BasicData` value, the code goes into 31-byte chunks, and each place has the key the encoders give
it. What it stands for is plainer: each account has a nonce, a balance, a code, a code hash and
storage, and an update gives each field the last value it lists for it.

The run theorem says the trie holds that store over any run of `Apply` from `NewState`. It holds
on every place whose key no other place the run writes shares. It needs the balances to fit in the
16 bytes and the code sizes in the 4 bytes that `BasicData` keeps for them.
-/

namespace VerkleTrie.Memory

/-! ## The account store -/

/-- Each account's nonce, balance, code, code hash and storage. -/
structure Accounts where
  nonce : Address → Nonce
  balance : Address → Amount
  code : Address → List UInt8
  codeHash : Address → Hash
  storage : Address → Key → Value

namespace Accounts

/-- No account has a nonce, a balance, code or storage. -/
def empty : Accounts :=
  ⟨fun _ => Bytes.zero 8, fun _ => Amount.new, fun _ => [], fun _ => Bytes.zero 32, fun _ _ => Bytes.zero 32⟩

/-- One update: each field takes the last value the update gives it, and a new code its hash. -/
def apply (E : Env) (A : Accounts) (u : Update) : Accounts where
  nonce a := (u.lastNonce a).getD (A.nonce a)
  balance a := (u.lastBalance a).getD (A.balance a)
  code a := (u.lastCode a).getD (A.code a)
  codeHash a := ((u.lastCode a).map E.keccak256).getD
    (if a ∈ u.createdAccounts ∧ A.code a = [] ∧ A.nonce a = Bytes.zero 8 ∧ (A.balance a).toNat = 0 then
      E.emptyCodeHash
    else A.codeHash a)
  storage a k := (u.lastSlot a k).getD (A.storage a k)

/-- The updates of a run, in turn. -/
def applyAll (E : Env) (A : Accounts) : List (Nat × Update) → Accounts
  | [] => A
  | (_, u) :: rest => (A.apply E u).applyAll E rest

/-- The stores a run passes through: the one after each update, with its block. -/
def runStores (E : Env) (A : Accounts) : List (Nat × Update) → List (Nat × Accounts)
  | [] => []
  | (b, u) :: rest => (b, A.apply E u) :: (A.apply E u).runStores E rest

end Accounts

theorem Update.lastSlot_eq_none_of_not_mem {E : Env} {u : Update} {a : Address} {k : Key}
    (h : .storage a k ∉ u.locations E) : u.lastSlot a k = none := by
  rw [Update.lastSlot, Option.map_eq_none', List.getLast?_eq_none_iff, List.filter_eq_nil_iff]
  exact fun x hx hp => h ((storage_mem_locations E u a k).2 ⟨x, hx, of_decide_eq_true hp⟩)

theorem Accounts.storage_applyAll_of_not_mem (E : Env) (A : Accounts) (runs : List (Nat × Update))
    {a : Address} {k : Key} (h : .storage a k ∉ runLocations E runs) :
    (A.applyAll E runs).storage a k = A.storage a k := by
  induction runs generalizing A with
  | nil => rfl
  | cons p runs ih =>
    obtain ⟨b, u⟩ := p
    rw [runLocations_cons, List.mem_append, not_or] at h
    rw [Accounts.applyAll, ih _ h.2]
    show ((u.lastSlot a k).getD (A.storage a k)) = _
    rw [Update.lastSlot_eq_none_of_not_mem h.1]
    rfl

/-- The state holds the account store on the places `qs`. -/
structure Refines (E : Env) (qs : List Location) (A : Accounts) (s : State) : Prop where
  nonce : ∀ a, .basicData a ∈ qs → s.getNonce E a = A.nonce a
  balance : ∀ a, .basicData a ∈ qs → (s.getBalance E a).toNat = (A.balance a).toNat
  codeSize : ∀ a, .basicData a ∈ qs → s.getCodeSize E a = (A.code a).length
  codeHash : ∀ a, .codeHash a ∈ qs → .basicData a ∈ qs → s.getCodeHash E a = A.codeHash a
  storage : ∀ a k, .storage a k ∈ qs → s.getStorage E a k = A.storage a k
  chunk : ∀ a i v, .codeChunk a i ∈ qs → (E.splitCode (A.code a))[i]? = some v →
    s.trie.get (E.getCodeChunkKey a i) = v

theorem Env.separates_append {E : Env} {ws ws' qs : List Location} :
    E.Separates (ws ++ ws') qs ↔ E.Separates ws qs ∧ E.Separates ws' qs :=
  List.forall_mem_append

theorem Update.exists_code_of_codeChunk_mem (E : Env) (u : Update) {a : Address} {i : Nat}
    (h : Location.codeChunk a i ∈ u.locations E) : ∃ c ∈ u.codes, c.account = a := by
  simp only [Update.locations, List.mem_append, List.mem_flatMap, List.mem_map, List.mem_cons,
    List.mem_singleton, Location.codeChunk.injEq, reduceCtorEq, false_or, or_false, and_false, exists_false,
    List.not_mem_nil] at h
  obtain ⟨c, hc, -, -, rfl, -⟩ := h
  exact ⟨c, hc, rfl⟩

theorem exists_mem_of_getLast?_filter {α β : Type} {l : List α} {p : α → Bool} {f : α → β} {y : β}
    (h : ((l.filter p).getLast?).map f = some y) : ∃ x ∈ l, f x = y :=
  let ⟨x, hx, hxy⟩ := Option.map_eq_some'.1 h
  ⟨x, (List.mem_filter.1 (List.mem_of_getLast?_eq_some hx)).1, hxy⟩

theorem getLast?_filter_of_forall₂ {α β : Type} {R : Nat × α → Nat × β → Prop} {l₁ : List (Nat × α)}
    {l₂ : List (Nat × β)} (h : List.Forall₂ (fun p q => p.1 = q.1 ∧ R p q) l₁ l₂) (x : Nat) :
    Option.Rel (fun p q => p.1 = q.1 ∧ R p q) (l₁.filter (·.1 = x)).getLast? (l₂.filter (·.1 = x)).getLast? := by
  have hf := @List.rel_filter _ _ _ (fun p : Nat × α => decide (p.1 = x)) (fun q : Nat × β => decide (q.1 = x))
    (fun {p q} (hpq : p.1 = q.1 ∧ R p q) => by simp only [hpq.1]) _ _ h
  rw [← List.head?_reverse, ← List.head?_reverse]
  have hr := List.forall₂_reverse_iff.2 hf
  revert hr
  generalize (l₁.filter (·.1 = x)).reverse = m₁
  generalize (l₂.filter (·.1 = x)).reverse = m₂
  intro hr
  cases hr with
  | nil => exact .none
  | cons hab _ => exact .some hab

namespace State

/-! ## One `Apply` -/

section Separated

variable {E : Env} {u : Update} {qs : List Location} (hsep : E.Separates (u.locations E) qs)
include hsep

theorem get_codeChunk_applyUpdate_of_none (s : State) (a : Address) (i : Nat) (hc : u.lastCode a = none)
    (hq : .codeChunk a i ∈ qs) :
    (s.applyUpdate E u).trie.get (E.getCodeChunkKey a i) = s.trie.get (E.getCodeChunkKey a i) :=
  get_applyUpdate_of_not_mem E s u fun h => by
    obtain ⟨w, hw, hkey⟩ := List.mem_map.1 h
    obtain rfl := hsep w hw _ hq hkey
    obtain ⟨c, hc', rfl⟩ := Update.exists_code_of_codeChunk_mem E u hw
    rw [Update.lastCode, Option.map_eq_none', List.getLast?_eq_none_iff] at hc
    exact List.not_mem_nil c (hc ▸ List.mem_filter.2 ⟨hc', decide_eq_true rfl⟩)

end Separated

end State

/-! ## Runs -/

variable {E : Env} {qs : List Location}

theorem Refines.of_get {A : Accounts} {s s' : State} (h : Refines E qs A s)
    (hg : ∀ q ∈ qs, s'.trie.get (E.key q) = s.trie.get (E.key q)) : Refines E qs A s' where
  nonce a ha := (congrArg (fun v : Value => Bytes.ofList (v.slice 8 16)) (hg _ ha)).trans (h.nonce a ha)
  balance a ha :=
    (congrArg (fun v : Value => (Amount.newFromBytes (v.slice 16 32)).toNat) (hg _ ha)).trans (h.balance a ha)
  codeSize a ha := (congrArg (fun v : Value => beToNat (v.slice 4 8)) (hg _ ha)).trans (h.codeSize a ha)
  codeHash a hh ha := (hg _ hh).trans (h.codeHash a hh ha)
  storage a k hk := (hg _ hk).trans (h.storage a k hk)
  chunk a i v hq hv := (hg _ hq).trans (h.chunk a i v hq hv)

theorem Refines.applyUpdate {A : Accounts} {s : State} (h : Refines E qs A s) {u : Update}
    (hsep : E.Separates (u.locations E) qs) (hb : ∀ x ∈ u.balances, x.balance.toNat < 2 ^ 128)
    (hc : ∀ c ∈ u.codes, c.code.length < 2 ^ 32) :
    Refines E qs (A.apply E u) (s.applyUpdate E u) where
  nonce a ha := by
    rw [State.getNonce_applyUpdate hsep s a ha, h.nonce a ha]
    rfl
  balance a ha := by
    show _ = ((u.lastBalance a).getD (A.balance a)).toNat
    rw [State.getBalance_applyUpdate hsep s a ha, h.balance a ha]
    cases hx : u.lastBalance a with
    | none => rfl
    | some x =>
      obtain ⟨y, hy, rfl⟩ := exists_mem_of_getLast?_filter hx
      exact Nat.mod_eq_of_lt (hb y hy)
  codeSize a ha := by
    show _ = ((u.lastCode a).getD (A.code a)).length
    rw [State.getCodeSize_applyUpdate hsep s a ha, h.codeSize a ha]
    cases hx : u.lastCode a with
    | none => rfl
    | some c =>
      obtain ⟨y, hy, rfl⟩ := exists_mem_of_getLast?_filter hx
      exact Nat.mod_eq_of_lt (hc y hy)
  codeHash a hh ha := by
    rw [State.getCodeHash_applyUpdate hsep s a ha hh]
    simp only [Accounts.apply, State.basicData_slice_eq_zero_iff, h.codeSize a ha, h.nonce a ha, h.balance a ha,
      h.codeHash a hh ha, List.length_eq_zero, Update.lastCode, Option.map_map]
    rfl
  storage a k hk := by
    rw [State.getStorage_applyUpdate hsep s a k hk, h.storage a k hk]
    rfl
  chunk a i v hq hv := by
    cases hx : u.lastCode a with
    | none =>
      rw [State.get_codeChunk_applyUpdate_of_none hsep s a i hx hq]
      exact h.chunk a i v hq (by simpa [Accounts.apply, hx] using hv)
    | some c =>
      obtain ⟨hi, rfl⟩ := List.getElem?_eq_some_iff.1 (by simpa [Accounts.apply, hx] using hv)
      exact State.getCodeChunk_applyUpdate hsep s a hx hi hq

theorem Refines.apply {A : Accounts} {s : State} (h : Refines E qs A s) {u : Update}
    (hsep : E.Separates (u.locations E) qs) (hb : ∀ x ∈ u.balances, x.balance.toNat < 2 ^ 128)
    (hc : ∀ c ∈ u.codes, c.code.length < 2 ^ 32) (b : Nat) :
    Refines E qs (A.apply E u) (s.apply E b u) :=
  (h.applyUpdate hsep hb hc).of_get fun _ _ => rfl

theorem Refines.applyAll {A : Accounts} {s : State} (h : Refines E qs A s) (runs : List (Nat × Update))
    (hsep : E.Separates (runLocations E runs) qs)
    (hb : ∀ p ∈ runs, ∀ x ∈ p.2.balances, x.balance.toNat < 2 ^ 128)
    (hc : ∀ p ∈ runs, ∀ c ∈ p.2.codes, c.code.length < 2 ^ 32) :
    Refines E qs (A.applyAll E runs) (s.applyAll E runs) := by
  induction runs generalizing A s with
  | nil => exact h
  | cons p runs ih =>
    obtain ⟨b, u⟩ := p
    rw [runLocations_cons, Env.separates_append] at hsep
    exact ih (h.apply hsep.1 (hb _ (.head _)) (hc _ (.head _)) b) hsep.2
      (fun p hp => hb p (.tail _ hp)) (fun p hp => hc p (.tail _ hp))

theorem Refines.runStates {A : Accounts} {s : State} (h : Refines E qs A s) (runs : List (Nat × Update))
    (hsep : E.Separates (runLocations E runs) qs)
    (hb : ∀ p ∈ runs, ∀ x ∈ p.2.balances, x.balance.toNat < 2 ^ 128)
    (hc : ∀ p ∈ runs, ∀ c ∈ p.2.codes, c.code.length < 2 ^ 32) :
    List.Forall₂ (fun p q => p.1 = q.1 ∧ Refines E qs q.2 p.2) (s.runStates E runs) (A.runStores E runs) := by
  induction runs generalizing A s with
  | nil => exact .nil
  | cons p runs ih =>
    obtain ⟨b, u⟩ := p
    rw [runLocations_cons, Env.separates_append] at hsep
    exact .cons ⟨rfl, h.applyUpdate hsep.1 (hb _ (.head _)) (hc _ (.head _))⟩
      (ih (h.apply hsep.1 (hb _ (.head _)) (hc _ (.head _)) b) hsep.2 (fun p hp => hb p (.tail _ hp))
        (fun p hp => hc p (.tail _ hp)))

theorem State.getStorage_applyAll {A : Accounts} {s : State} (runs : List (Nat × Update)) {a : Address}
    {k : Key} (hsep : E.Separates (runLocations E runs) [.storage a k])
    (h : s.getStorage E a k = A.storage a k) :
    (s.applyAll E runs).getStorage E a k = (A.applyAll E runs).storage a k := by
  induction runs generalizing A s with
  | nil => exact h
  | cons p runs ih =>
    obtain ⟨b, u⟩ := p
    rw [runLocations_cons, Env.separates_append] at hsep
    refine ih hsep.2 ?_
    show (s.applyUpdate E u).getStorage E a k = (u.lastSlot a k).getD (A.storage a k)
    rw [State.getStorage_applyUpdate hsep.1 s a k (List.mem_singleton_self _), h]
    rfl

theorem refines_newState (hnil : E.splitCode [] = []) : Refines E qs Accounts.empty newState where
  nonce _ _ := rfl
  balance _ _ := rfl
  codeSize _ _ := rfl
  codeHash _ _ _ := rfl
  storage _ _ _ := rfl
  chunk _ _ _ _ hv := by simp [Accounts.empty, hnil] at hv

theorem Refines.getCode_eq {A : Accounts} {s : State} (h : Refines E qs A s) (a : Address)
    (ha : .basicData a ∈ qs) (hq : ∀ i < (E.splitCode (A.code a)).length, .codeChunk a i ∈ qs)
    (hsplit : (E.splitCode (A.code a)).length ≤ (A.code a).length / 31 + 1)
    (hmerge : ∀ extra, E.merge (E.splitCode (A.code a) ++ extra) (A.code a).length = A.code a) :
    s.getCode E a = A.code a := by
  have htake : ((List.range ((A.code a).length / 31 + 1)).map fun i =>
      s.trie.get (E.getCodeChunkKey a i)).take (E.splitCode (A.code a)).length = E.splitCode (A.code a) := by
    apply List.ext_getElem (by simp [hsplit])
    intro i _ h2
    simp only [List.getElem_take, List.getElem_map, List.getElem_range]
    exact h.chunk a i _ (hq i h2) (List.getElem?_eq_getElem h2)
  show E.merge ((List.range (s.getCodeSize E a / 31 + 1)).map fun i => s.trie.get (E.getCodeChunkKey a i))
    (s.getCodeSize E a) = _
  rw [h.codeSize a ha, ← List.take_append_drop (E.splitCode (A.code a)).length ((List.range
    ((A.code a).length / 31 + 1)).map fun i => s.trie.get (E.getCodeChunkKey a i)), htake]
  exact hmerge _

/-! ## Witness proofs -/

theorem Amount.eq_of_toNat_eq {x y : Amount} (h : x.toNat = y.toNat) : x = y := by
  cases x; cases y; cases h; rfl

theorem Refines.exists_eq {A : Accounts} {s : State} (h : Refines E qs A s) {a : Address}
    (ha : .basicData a ∈ qs) : s.exists E a = decide (A.nonce a ≠ Bytes.zero 8 ∨ (A.balance a).toNat ≠ 0) := by
  rw [Bool.eq_iff_iff, State.exists_iff, h.nonce a ha, h.balance a ha, decide_eq_true_iff]

theorem VtWitnessProof.accountField_createWitnessProof {α : Type} (s : State) (a : Address) (keys : List Key)
    (field zero : α) :
    (s.createWitnessProof E a keys).accountField (s.getHash E) a field zero =
      if s.exists E a then (field, true) else (zero, false) := by
  have hcx : (s.createWitnessProof E a keys).exists = s.exists E a := rfl
  unfold VtWitnessProof.accountField
  rw [if_neg (by simp [State.createWitnessProof]), hcx]
  cases s.exists E a <;> rfl

theorem VtWitnessProof.getState_createWitnessProof_eq (s : State) (a : Address) (keys : List Key) (k : Key) :
    (s.createWitnessProof E a keys).getState (s.getHash E) a k =
      if k ∈ keys then (s.getStorage E a k, true) else (Bytes.zero 32, false) := by
  rw [VtWitnessProof.getState, if_neg (by simp [State.createWitnessProof])]
  show (match (s.collectStorage E a keys).lookup k with
    | some value => (value, true)
    | none => (Bytes.zero 32, false)) = _
  rw [State.lookup_collectStorage]
  split_ifs <;> rfl

theorem Refines.createWitnessProof {A : Accounts} {s : State} (h : Refines E qs A s) (a : Address)
    (keys : List Key) (ha : .basicData a ∈ qs) (hh : .codeHash a ∈ qs) (hk : ∀ k ∈ keys, .storage a k ∈ qs) :
    let p := s.createWitnessProof E a keys
    let ex := decide (A.nonce a ≠ Bytes.zero 8 ∨ (A.balance a).toNat ≠ 0)
    p.getBalance (s.getHash E) a = (if ex then (A.balance a, true) else (Amount.new, false)) ∧
      p.getNonce (s.getHash E) a = (if ex then (A.nonce a, true) else (Bytes.zero 8, false)) ∧
      p.getCodeHash (s.getHash E) a = (if ex then (A.codeHash a, true) else (Bytes.zero 32, false)) ∧
      ∀ k ∈ keys, p.getState (s.getHash E) a k = (A.storage a k, true) := by
  intro p ex
  have hex : s.exists E a = ex := h.exists_eq ha
  -- The proof's fields are the state's when the account exists, zero otherwise.
  have hbal : p.balance = if s.exists E a then s.getBalance E a else Amount.new := rfl
  have hnon : p.nonce = if s.exists E a then s.getNonce E a else Bytes.zero 8 := rfl
  have hch : p.codeHash = if s.exists E a then s.getCodeHash E a else Bytes.zero 32 := rfl
  rw [hex] at hbal hnon hch
  refine ⟨?_, ?_, ?_, fun k hk' => ?_⟩
  · rw [VtWitnessProof.getBalance, VtWitnessProof.accountField_createWitnessProof, hex, hbal]
    cases ex
    · rfl
    · exact congrArg (·, true) (Amount.eq_of_toNat_eq (h.balance a ha))
  · rw [VtWitnessProof.getNonce, VtWitnessProof.accountField_createWitnessProof, hex, hnon]
    cases ex
    · rfl
    · exact congrArg (·, true) (h.nonce a ha)
  · rw [VtWitnessProof.getCodeHash, VtWitnessProof.accountField_createWitnessProof, hex, hch]
    cases ex
    · rfl
    · exact congrArg (·, true) (h.codeHash a hh ha)
  · rw [VtWitnessProof.getState_createWitnessProof_eq, if_pos hk', h.storage a k (hk k hk')]

/-! ## Runs from `NewState` -/

/-- Two blocks on account 1: created with every field, then a new nonce and a longer code. -/
def sampleRun : List (Nat × Update) :=
  [(1, { createdAccounts := [sampleAddress 1]
         nonces := [⟨sampleAddress 1, Bytes.ofList [0, 0, 0, 0, 0, 0, 0, 5]⟩]
         balances := [⟨sampleAddress 1, ⟨7, by decide⟩⟩]
         slots := [⟨sampleAddress 1, sampleKey 3, Bytes.ofList [9]⟩]
         codes := [⟨sampleAddress 1, [0x60, 0x00]⟩] }),
   (2, { nonces := [⟨sampleAddress 1, Bytes.ofList [0, 0, 0, 0, 0, 0, 0, 6]⟩]
         codes := [⟨sampleAddress 1, List.replicate 40 0x5b⟩] })]

theorem sampleRun_separates : Env.sample.Separates (runLocations Env.sample sampleRun)
    [.basicData (sampleAddress 1), .codeHash (sampleAddress 1), .storage (sampleAddress 1) (sampleKey 3),
      .codeChunk (sampleAddress 1) 0, .codeChunk (sampleAddress 1) 1] := by
  decide

theorem sampleRun_probed : ∀ l ∈ runLocations Env.sample sampleRun, l ∈ probes := by
  obtain ⟨b1, c1, s1, k1⟩ := sampleAddress_mem_probes (by decide : 1 < 256)
  intro l hl
  simp [runLocations, Update.locations, sampleRun, Env.sample] at hl
  rcases hl with rfl | rfl | rfl | rfl | rfl | rfl | rfl | rfl | rfl | ⟨i, hi, rfl⟩ <;>
    first | assumption | exact s1 3 (by decide) | exact k1 0 (by decide) | exact k1 i (by omega)

namespace State

variable (E : Env)

/-- Over any run from `NewState`, the state holds the account store the run builds on the places
of `qs`, and `GetCode` returns each account's code. -/
theorem applyAll_refines (runs : List (Nat × Update)) (qs : List Location)
    (hsep : E.Separates (runLocations E runs) qs)
    (hb : ∀ p ∈ runs, ∀ x ∈ p.2.balances, x.balance.toNat < 2 ^ 128)
    (hc : ∀ p ∈ runs, ∀ c ∈ p.2.codes, c.code.length < 2 ^ 32) (hnil : E.splitCode [] = []) :
    Refines E qs (Accounts.empty.applyAll E runs) (newState.applyAll E runs) ∧
      ∀ a, .basicData a ∈ qs →
        (∀ i < (E.splitCode ((Accounts.empty.applyAll E runs).code a)).length, .codeChunk a i ∈ qs) →
        (E.splitCode ((Accounts.empty.applyAll E runs).code a)).length ≤
          ((Accounts.empty.applyAll E runs).code a).length / 31 + 1 →
        (∀ extra, E.merge (E.splitCode ((Accounts.empty.applyAll E runs).code a) ++ extra)
          ((Accounts.empty.applyAll E runs).code a).length = (Accounts.empty.applyAll E runs).code a) →
        (newState.applyAll E runs).getCode E a = (Accounts.empty.applyAll E runs).code a :=
  have h := (refines_newState hnil).applyAll runs hsep hb hc
  ⟨h, h.getCode_eq⟩

end State

theorem applyAll_refines_sample :
    let qs : List Location := [.basicData (sampleAddress 1), .codeHash (sampleAddress 1),
      .storage (sampleAddress 1) (sampleKey 3), .codeChunk (sampleAddress 1) 0, .codeChunk (sampleAddress 1) 1]
    let A := Accounts.empty.applyAll Env.sample sampleRun
    (Env.sample.Separates (runLocations Env.sample sampleRun) qs ∧
        (∀ p ∈ sampleRun, ∀ x ∈ p.2.balances, x.balance.toNat < 2 ^ 128) ∧
        (∀ p ∈ sampleRun, ∀ c ∈ p.2.codes, c.code.length < 2 ^ 32) ∧ Env.sample.splitCode [] = []) ∧
      Refines Env.sample qs A (newState.applyAll Env.sample sampleRun) ∧
        ∀ a, .basicData a ∈ qs → (∀ i < (Env.sample.splitCode (A.code a)).length, .codeChunk a i ∈ qs) →
          (Env.sample.splitCode (A.code a)).length ≤ (A.code a).length / 31 + 1 →
          (∀ extra, Env.sample.merge (Env.sample.splitCode (A.code a) ++ extra) (A.code a).length = A.code a) →
          (newState.applyAll Env.sample sampleRun).getCode Env.sample a = A.code a :=
  have hb : ∀ p ∈ sampleRun, ∀ x ∈ p.2.balances, x.balance.toNat < 2 ^ 128 := by decide
  have hc : ∀ p ∈ sampleRun, ∀ c ∈ p.2.codes, c.code.length < 2 ^ 32 := by decide
  ⟨⟨sampleRun_separates, hb, hc, rfl⟩, State.applyAll_refines Env.sample sampleRun _ sampleRun_separates hb hc rfl⟩

namespace State

variable (E : Env)

end State

namespace State

variable (E : Env)

/-- Over any run from `NewState`, the witness proof of `a` answers from the account store. -/
theorem createWitnessProof_applyAll (runs : List (Nat × Update)) (qs : List Location)
    (hsep : E.Separates (runLocations E runs) qs)
    (hb : ∀ p ∈ runs, ∀ x ∈ p.2.balances, x.balance.toNat < 2 ^ 128)
    (hc : ∀ p ∈ runs, ∀ c ∈ p.2.codes, c.code.length < 2 ^ 32) (hnil : E.splitCode [] = [])
    (a : Address) (keys : List Key) (ha : .basicData a ∈ qs) (hh : .codeHash a ∈ qs)
    (hk : ∀ k ∈ keys, .storage a k ∈ qs) :
    let s := newState.applyAll E runs
    let A := Accounts.empty.applyAll E runs
    let p := s.createWitnessProof E a keys
    let ex := decide (A.nonce a ≠ Bytes.zero 8 ∨ (A.balance a).toNat ≠ 0)
    p.getBalance (s.getHash E) a = (if ex then (A.balance a, true) else (Amount.new, false)) ∧
      p.getNonce (s.getHash E) a = (if ex then (A.nonce a, true) else (Bytes.zero 8, false)) ∧
      p.getCodeHash (s.getHash E) a = (if ex then (A.codeHash a, true) else (Bytes.zero 32, false)) ∧
      ∀ k ∈ keys, p.getState (s.getHash E) a k = (A.storage a k, true) :=
  ((refines_newState hnil).applyAll runs hsep hb hc).createWitnessProof a keys ha hh hk

end State

theorem createWitnessProof_applyAll_sample :
    let qs : List Location := [.basicData (sampleAddress 1), .codeHash (sampleAddress 1),
      .storage (sampleAddress 1) (sampleKey 3), .codeChunk (sampleAddress 1) 0, .codeChunk (sampleAddress 1) 1]
    let s := newState.applyAll Env.sample sampleRun
    let A := Accounts.empty.applyAll Env.sample sampleRun
    let p := s.createWitnessProof Env.sample (sampleAddress 1) [sampleKey 3]
    let ex := decide (A.nonce (sampleAddress 1) ≠ Bytes.zero 8 ∨ (A.balance (sampleAddress 1)).toNat ≠ 0)
    (Env.sample.Separates (runLocations Env.sample sampleRun) qs ∧
        (∀ p ∈ sampleRun, ∀ x ∈ p.2.balances, x.balance.toNat < 2 ^ 128) ∧
        (∀ p ∈ sampleRun, ∀ c ∈ p.2.codes, c.code.length < 2 ^ 32) ∧ Env.sample.splitCode [] = [] ∧
        Location.basicData (sampleAddress 1) ∈ qs ∧ Location.codeHash (sampleAddress 1) ∈ qs ∧
        ∀ k ∈ [sampleKey 3], Location.storage (sampleAddress 1) k ∈ qs) ∧
      p.getBalance (s.getHash Env.sample) (sampleAddress 1) =
          (if ex then (A.balance (sampleAddress 1), true) else (Amount.new, false)) ∧
        p.getNonce (s.getHash Env.sample) (sampleAddress 1) =
          (if ex then (A.nonce (sampleAddress 1), true) else (Bytes.zero 8, false)) ∧
        p.getCodeHash (s.getHash Env.sample) (sampleAddress 1) =
          (if ex then (A.codeHash (sampleAddress 1), true) else (Bytes.zero 32, false)) ∧
        ∀ k ∈ [sampleKey 3], p.getState (s.getHash Env.sample) (sampleAddress 1) k =
          (A.storage (sampleAddress 1) k, true) :=
  have hb : ∀ p ∈ sampleRun, ∀ x ∈ p.2.balances, x.balance.toNat < 2 ^ 128 := by decide
  have hc : ∀ p ∈ sampleRun, ∀ c ∈ p.2.codes, c.code.length < 2 ^ 32 := by decide
  have hk : ∀ k ∈ [sampleKey 3], Location.storage (sampleAddress 1) k ∈
      [.basicData (sampleAddress 1), .codeHash (sampleAddress 1), .storage (sampleAddress 1) (sampleKey 3),
        .codeChunk (sampleAddress 1) 0, .codeChunk (sampleAddress 1) 1] := by simp
  ⟨⟨sampleRun_separates, hb, hc, rfl, by simp, by simp, hk⟩,
    State.createWitnessProof_applyAll Env.sample sampleRun _ sampleRun_separates hb hc rfl _ _ (by simp) (by simp) hk⟩

namespace State

variable (E : Env)

/-- Over any run from `NewState`, `HasEmptyStorage` of an account tells whether its storage in the
store is all zero. -/
theorem hasEmptyStorage_applyAll_iff_store (runs : List (Nat × Update)) (a : Address)
    (hsep : ∀ k, .storage a k ∈ runLocations E runs → E.Separates (runLocations E runs) [.storage a k]) :
    (newState.applyAll E runs).hasEmptyStorage E a = true ↔
      ∀ k, (Accounts.empty.applyAll E runs).storage a k = Bytes.zero 32 := by
  have hw := mem_writtenSlots_newState_applyAll E runs a
  have hget (k : Key) (hk : .storage a k ∈ runLocations E runs) :
      (newState.applyAll E runs).getStorage E a k = (Accounts.empty.applyAll E runs).storage a k :=
    getStorage_applyAll runs (hsep k hk) rfl
  rw [hasEmptyStorage_eq_true_iff]
  constructor
  · intro h k
    by_cases hm : .storage a k ∈ runLocations E runs
    · exact hget k hm ▸ h k ((hw k).2 hm)
    · exact Accounts.storage_applyAll_of_not_mem E _ runs hm
  · exact fun h k hk => (hget k ((hw k).1 hk)).trans (h k)

end State

theorem hasEmptyStorage_applyAll_iff_store_sample :
    (∀ k, .storage (sampleAddress 1) k ∈ runLocations Env.sample sampleRun →
        Env.sample.Separates (runLocations Env.sample sampleRun) [.storage (sampleAddress 1) k]) ∧
      ((newState.applyAll Env.sample sampleRun).hasEmptyStorage Env.sample (sampleAddress 1) = true ↔
        ∀ k, (Accounts.empty.applyAll Env.sample sampleRun).storage (sampleAddress 1) k = Bytes.zero 32) :=
  have hsep : ∀ k, .storage (sampleAddress 1) k ∈ runLocations Env.sample sampleRun →
      Env.sample.Separates (runLocations Env.sample sampleRun) [.storage (sampleAddress 1) k] := by
    intro k hk
    simp [runLocations, Update.locations, sampleRun] at hk
    subst hk
    exact fun w hw q hq => sampleRun_separates w hw q (List.mem_singleton.1 hq ▸ .tail _ (.tail _ (.head _)))
  ⟨hsep, State.hasEmptyStorage_applyAll_iff_store Env.sample sampleRun _ hsep⟩

end VerkleTrie.Memory
