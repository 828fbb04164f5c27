import VerkleTrie.Memory.Apply

/-! # What `Apply` does to one account

Each loop of `Apply` is a fold over the update, and the value of one trie key after the loop is
a fold over the writes to that key alone. When no key the update writes collides with the keys
of account `a` and its slot `k`, each getter of `a` reads the last write of its own field: the
nonce, balance and code-size loops copy into disjoint byte ranges of the shared `BasicData`
value, so no field disturbs another.
-/

namespace VerkleTrie.Memory

/-- The places `Apply` writes for `u`, in the order of its loops. -/
def Update.locations (E : Env) (u : Update) : List Location :=
  u.createdAccounts.flatMap (fun a => [.basicData a, .codeHash a]) ++
    u.nonces.map (fun x => .basicData x.account) ++
    u.balances.map (fun x => .basicData x.account) ++
    u.slots.map (fun x => .storage x.account x.key) ++
    u.codes.flatMap fun c => .basicData c.account :: .codeHash c.account ::
      (List.range (E.splitCode c.code).length).map (.codeChunk c.account)

/-- The last nonce `u` sets for `a`. -/
def Update.lastNonce (u : Update) (a : Address) : Option Nonce :=
  (u.nonces.filter (·.account = a)).getLast?.map (·.nonce)

/-- The last balance `u` sets for `a`. -/
def Update.lastBalance (u : Update) (a : Address) : Option Amount :=
  (u.balances.filter (·.account = a)).getLast?.map (·.balance)

/-- The last code `u` sets for `a`. -/
def Update.lastCode (u : Update) (a : Address) : Option (List UInt8) :=
  (u.codes.filter (·.account = a)).getLast?.map (·.code)

/-- The last value `u` sets for slot `k` of `a`. -/
def Update.lastSlot (u : Update) (a : Address) (k : Key) : Option Value :=
  (u.slots.filter fun x => x.account = a ∧ x.key = k).getLast?.map (·.value)

theorem Update.mem_locations (E : Env) (u : Update) :
    (∀ b ∈ u.createdAccounts, .codeHash b ∈ u.locations E) ∧
    (∀ x ∈ u.nonces, .basicData x.account ∈ u.locations E) ∧
    (∀ x ∈ u.balances, .basicData x.account ∈ u.locations E) ∧
    (∀ x ∈ u.slots, .storage x.account x.key ∈ u.locations E) ∧
    (∀ c ∈ u.codes, .basicData c.account ∈ u.locations E ∧ .codeHash c.account ∈ u.locations E ∧
      ∀ j < (E.splitCode c.code).length, .codeChunk c.account j ∈ u.locations E) := by
  simp only [Update.locations, List.mem_append]
  refine ⟨fun b hb => .inl (.inl (.inl (.inl (List.mem_flatMap.2 ⟨b, hb, by simp⟩)))),
    fun x hx => .inl (.inl (.inl (.inr (List.mem_map_of_mem _ hx)))),
    fun x hx => .inl (.inl (.inr (List.mem_map_of_mem _ hx))),
    fun x hx => .inl (.inr (List.mem_map_of_mem (fun x => Location.storage x.account x.key) hx)),
    fun c hc => ⟨.inr (List.mem_flatMap.2 ⟨c, hc, by simp⟩), .inr (List.mem_flatMap.2 ⟨c, hc, by simp⟩),
      fun j hj => .inr (List.mem_flatMap.2 ⟨c, hc, by simp [hj]⟩)⟩⟩

theorem Env.Separates.key_eq_iff {E : Env} {ws qs : List Location} (h : E.Separates ws qs)
    {w q : Location} (hw : w ∈ ws) (hq : q ∈ qs) : E.key w = E.key q ↔ w = q :=
  ⟨h w hw q hq, fun h => h ▸ rfl⟩

/-! ## Repeated writes to one value -/

theorem foldl_filter_eq {α β : Type} (p : α → Bool) (f : β → α → β) (l : List α) (b : β) :
    (l.filter p).foldl f b = l.foldl (fun v x => if p x then f v x else v) b := by
  induction l generalizing b with
  | nil => rfl
  | cons x l ih => by_cases h : p x <;> simp [List.filter_cons, h, ih]

theorem foldl_ite_eq_getLast? {α β : Type} (p : α → Bool) (g : α → β) (l : List α) (b : β) :
    l.foldl (fun v x => if p x then g x else v) b = ((l.filter p).getLast?.map g).getD b := by
  induction l using List.reverseRecOn with
  | nil => rfl
  | append_singleton l x ih => by_cases h : p x <;> simp [List.filter_append, h, ih]

/-! ## Each loop, on one key -/

theorem Amount.beToNat_low_bytes32 (x : Amount) :
    beToNat (x.bytes32.toList.drop 16) = x.toNat % 2 ^ 128 := by
  rw [show x.bytes32.toList.drop 16 = natToBe 16 x.toNat from drop_natToBe 16 16 x.toNat,
    beToNat_natToBe]
  norm_num

namespace State

theorem get_foldl {α : Type} (f : State → α → State) (g : α → Value → Value) (k : Key) (l : List α)
    (h : ∀ s, ∀ x ∈ l, (f s x).trie.get k = g x (s.trie.get k)) (s : State) :
    (l.foldl f s).trie.get k = l.foldl (fun v x => g x v) (s.trie.get k) := by
  induction l generalizing s with
  | nil => rfl
  | cons x l ih => rw [List.foldl_cons, ih (fun s y hy => h s y (.tail _ hy)), h s x (.head _)]; rfl

variable (E : Env)

theorem get_foldl_setBasicData {α : Type} (account : α → Address) (src : α → List UInt8) (lo hi : Nat)
    (l : List α) (s : State) (k : Key) :
    (l.foldl (fun s x => s.setBasicData E (account x) lo hi (src x)) s).trie.get k =
      (l.filter fun x => E.getBasicDataKey (account x) = k).foldl (fun v x => v.copy lo hi (src x))
        (s.trie.get k) := by
  rw [get_foldl _ (fun x v => if E.getBasicDataKey (account x) = k then v.copy lo hi (src x) else v) k l
    (fun s x _ => get_setBasicData E s _ _ _ _ k), foldl_filter_eq]
  simp

theorem get_foldl_applyNonce (l : List NonceUpdate) (s : State) (k : Key) :
    (l.foldl (applyNonce E) s).trie.get k =
      (l.filter fun x => E.getBasicDataKey x.account = k).foldl (fun v x => v.copy 8 16 x.nonce.toList)
        (s.trie.get k) :=
  get_foldl_setBasicData E _ _ 8 16 l s k

theorem get_foldl_applyBalance (l : List BalanceUpdate) (s : State) (k : Key) :
    (l.foldl (applyBalance E) s).trie.get k =
      (l.filter fun x => E.getBasicDataKey x.account = k).foldl
        (fun v x => v.copy 16 32 (x.balance.bytes32.toList.drop 16)) (s.trie.get k) :=
  get_foldl_setBasicData E _ _ 16 32 l s k

theorem get_foldl_applySlot (l : List SlotUpdate) (s : State) (k : Key) :
    (l.foldl (applySlot E) s).trie.get k =
      ((l.filter fun x => E.getStorageKey x.account x.key = k).getLast?.map (·.value)).getD
        (s.trie.get k) := by
  rw [get_foldl _ (fun x v => if E.getStorageKey x.account x.key = k then x.value else v) k l
    (fun s x _ => get_applySlot E s x k), ← foldl_ite_eq_getLast?]
  simp

theorem get_foldl_applyCode (l : List CodeUpdate) (s : State) (k : Key)
    (h : ∀ c ∈ l, ∀ j < (E.splitCode c.code).length, E.getCodeChunkKey c.account j ≠ k) :
    (l.foldl (applyCode E) s).trie.get k =
      l.foldl (fun v c => if E.getCodeHashKey c.account = k then E.keccak256 c.code
        else if E.getBasicDataKey c.account = k then v.copy 4 8 (natToBe 4 (c.code.length % 2 ^ 32))
        else v) (s.trie.get k) :=
  get_foldl _ _ k l (fun s c hc => get_applyCode E s c k (h c hc)) s

theorem get_foldl_initAccount_of_ne (l : List Address) (s : State) (k : Key)
    (h : ∀ a ∈ l, E.getCodeHashKey a ≠ k) : (l.foldl (initAccount E) s).trie.get k = s.trie.get k := by
  induction l generalizing s with
  | nil => rfl
  | cons a l ih =>
    rw [List.foldl_cons, ih _ fun b hb => h b (.tail _ hb), get_initAccount,
      if_neg fun h' => h a (.head _) h'.2]

theorem getCodeHash_foldl_initAccount (l : List Address) (s : State) (a : Address)
    (hb : ∀ b ∈ l, E.getCodeHashKey b ≠ E.getBasicDataKey a)
    (hc : ∀ b ∈ l, E.getCodeHashKey b = E.getCodeHashKey a → b = a) :
    (l.foldl (initAccount E) s).getCodeHash E a =
      if a ∈ l ∧ (s.basicData E a).slice 4 32 = List.replicate 28 0 then E.emptyCodeHash
      else s.getCodeHash E a := by
  induction l generalizing s with
  | nil => simp
  | cons b l ih =>
    have hbasic : (s.initAccount E b).basicData E a = s.basicData E a := by
      rw [basicData, get_initAccount, if_neg fun h => hb b (.head _) h.2]; rfl
    rw [List.foldl_cons, ih _ (fun c h => hb c (.tail _ h)) (fun c h => hc c (.tail _ h)), hbasic,
      getCodeHash, get_initAccount]
    by_cases hba : b = a
    · subst hba
      have hbd : s.trie.get (E.getBasicDataKey b) = s.basicData E b := rfl
      by_cases hz : (s.basicData E b).slice 4 32 = List.replicate 28 0
      · simp only [hbd, hz, and_true, List.mem_cons_self, if_true, ite_self]
      · simp only [hbd, hz, and_false, false_and, if_false]
        rfl
    · have hne : E.getCodeHashKey b ≠ E.getCodeHashKey a := fun h => hba (hc b (.head _) h)
      simp [hne, Ne.symm hba, getCodeHash]

theorem get_applyUpdate_of_not_mem (s : State) (u : Update) {k : Key}
    (hk : k ∉ (u.locations E).map E.key) : (s.applyUpdate E u).trie.get k = s.trie.get k := by
  obtain ⟨hC, hN, hB, hS, hK⟩ := Update.mem_locations E u
  have hne : ∀ w ∈ u.locations E, E.key w ≠ k := fun w hw h => hk (List.mem_map.2 ⟨w, hw, h⟩)
  simp only [applyUpdate]
  rw [get_foldl_applyCode E _ _ _ fun c hc j hj => hne _ ((hK c hc).2.2 j hj), get_foldl_applySlot,
    List.filter_eq_nil_iff.2 fun x hx h => hne _ (hS x hx) (by simpa using h), get_foldl_applyBalance,
    List.filter_eq_nil_iff.2 fun x hx h => hne _ (hB x hx) (by simpa using h), get_foldl_applyNonce,
    List.filter_eq_nil_iff.2 fun x hx h => hne _ (hN x hx) (by simpa using h),
    get_foldl_initAccount_of_ne E _ _ _ fun b hb => hne _ (hC b hb)]
  simp only [List.getLast?_nil, Option.map_none', Option.getD_none, List.foldl_nil]
  refine (List.foldl_ext _ (fun v _ => v) _ fun v c hc => ?_).trans (List.foldl_fixed _)
  have h1 : E.getCodeHashKey c.account ≠ k := hne _ (hK c hc).2.1
  have h2 : E.getBasicDataKey c.account ≠ k := hne _ (hK c hc).1
  rw [if_neg h1, if_neg h2]

/-! ## One account, when the update's keys are apart from it -/

section Separated

variable {E : Env} {u : Update} {qs : List Location} (hsep : E.Separates (u.locations E) qs)
include hsep

theorem filter_key_eq_nil {α : Type} (l : List α) (loc : α → Location) (key : α → Key)
    (hl : ∀ x ∈ l, loc x ∈ u.locations E) (hkey : ∀ x, E.key (loc x) = key x) {q : Location}
    (hq : q ∈ qs) (k : Key) (hk : E.key q = k) (hne : ∀ x ∈ l, loc x ≠ q) :
    l.filter (fun x => key x = k) = [] :=
  List.filter_eq_nil_iff.2 fun x hx h =>
    hne x hx (hsep _ (hl x hx) q hq ((hkey x).trans ((of_decide_eq_true h).trans hk.symm)))

theorem basicData_applyUpdate (s : State) (a : Address) (ha : .basicData a ∈ qs) :
    (s.applyUpdate E u).basicData E a =
      (u.codes.filter (·.account = a)).foldl (fun v c => v.copy 4 8 (natToBe 4 (c.code.length % 2 ^ 32)))
        ((u.balances.filter (·.account = a)).foldl
          (fun v x => v.copy 16 32 (x.balance.bytes32.toList.drop 16))
          ((u.nonces.filter (·.account = a)).foldl (fun v x => v.copy 8 16 x.nonce.toList)
            (s.basicData E a))) := by
  obtain ⟨hC, hN, hB, hS, hK⟩ := Update.mem_locations E u
  have key {w} (hw : w ∈ u.locations E) : E.key w = E.getBasicDataKey a ↔ w = .basicData a :=
    hsep.key_eq_iff hw ha
  have hn : u.nonces.filter (fun x => E.getBasicDataKey x.account = E.getBasicDataKey a) =
      u.nonces.filter (·.account = a) :=
    List.filter_congr fun x hx => by simpa [Env.key] using key (hN x hx)
  have hb : u.balances.filter (fun x => E.getBasicDataKey x.account = E.getBasicDataKey a) =
      u.balances.filter (·.account = a) :=
    List.filter_congr fun x hx => by simpa [Env.key] using key (hB x hx)
  simp only [applyUpdate, basicData]
  rw [get_foldl_applyCode E _ _ _ fun c hc j hj h => by simpa using (key ((hK c hc).2.2 j hj)).1 h,
    get_foldl_applySlot, filter_key_eq_nil hsep u.slots _ (fun x => E.getStorageKey x.account x.key) hS
      (fun _ => rfl) ha (E.getBasicDataKey a) rfl fun _ _ => nofun,
    get_foldl_applyBalance, hb, get_foldl_applyNonce, hn,
    get_foldl_initAccount_of_ne E _ _ _ fun b hb h => by simpa using (key (hC b hb)).1 h,
    List.getLast?_nil, Option.map_none', Option.getD_none, foldl_filter_eq fun c : CodeUpdate => c.account = a]
  refine List.foldl_ext _ _ _ fun v c hc => ?_
  have h1 : E.getCodeHashKey c.account ≠ E.getBasicDataKey a := fun h => by
    simpa using (key (hK c hc).2.1).1 h
  have h2 := key (hK c hc).1
  simp only [Env.key, Location.basicData.injEq] at h2
  simp [h1, h2]

-- The code-size writes at bytes 4 to 8 miss the nonce at 8 to 16 and the balance at 16 to 32.
theorem basicData_slices_applyUpdate (s : State) (a : Address) (ha : .basicData a ∈ qs) :
    ((s.applyUpdate E u).basicData E a).slice 8 16 =
        ((u.nonces.filter (·.account = a)).getLast?.map (·.nonce.toList)).getD ((s.basicData E a).slice 8 16) ∧
      ((s.applyUpdate E u).basicData E a).slice 16 32 =
        ((u.balances.filter (·.account = a)).getLast?.map (·.balance.bytes32.toList.drop 16)).getD
          ((s.basicData E a).slice 16 32) := by
  have hN : ∀ x ∈ u.nonces.filter (·.account = a), x.nonce.toList.length = 16 - 8 := by simp
  have hB : ∀ x ∈ u.balances.filter (·.account = a),
      (x.balance.bytes32.toList.drop 16).length = 32 - 16 := by simp
  have hC : ∀ x ∈ u.codes.filter (·.account = a),
      (natToBe 4 (x.code.length % 2 ^ 32)).length = 8 - 4 := by simp
  rw [basicData_applyUpdate hsep s a ha, Bytes.slice_foldl_copy_of_disjoint (by decide) (by decide) _ _ hC _ (.inr le_rfl),
    Bytes.slice_foldl_copy_of_disjoint (by decide) (by decide) _ _ hC _ (.inr (by decide)),
    Bytes.slice_foldl_copy_of_disjoint (by decide) (by decide) _ _ hB _ (.inl le_rfl),
    Bytes.slice_foldl_copy (by decide) (by decide) _ _ hB,
    Bytes.slice_foldl_copy_of_disjoint (by decide) (by decide) _ _ hN _ (.inr le_rfl),
    Bytes.slice_foldl_copy (by decide) (by decide) _ _ hN]
  exact ⟨rfl, rfl⟩

theorem getNonce_applyUpdate (s : State) (a : Address) (ha : .basicData a ∈ qs) :
    (s.applyUpdate E u).getNonce E a = (u.lastNonce a).getD (s.getNonce E a) := by
  show Bytes.ofList (((s.applyUpdate E u).basicData E a).slice 8 16) = _
  rw [(basicData_slices_applyUpdate hsep s a ha).1, Update.lastNonce]
  cases (u.nonces.filter (·.account = a)).getLast? <;> simp [getNonce, Bytes.ofList_toList]

theorem getBalance_applyUpdate (s : State) (a : Address) (ha : .basicData a ∈ qs) :
    ((s.applyUpdate E u).getBalance E a).toNat =
      ((u.lastBalance a).map (·.toNat % 2 ^ 128)).getD (s.getBalance E a).toNat := by
  show beToNat (((s.applyUpdate E u).basicData E a).slice 16 32) % 2 ^ 256 = _
  rw [(basicData_slices_applyUpdate hsep s a ha).2, Update.lastBalance]
  cases (u.balances.filter (·.account = a)).getLast? with
  | none => rfl
  | some x =>
    rw [Option.map_some', Option.getD_some, Amount.beToNat_low_bytes32]
    exact Nat.mod_eq_of_lt ((Nat.mod_lt _ (by decide)).trans (by decide))

theorem getCodeSize_applyUpdate (s : State) (a : Address) (ha : .basicData a ∈ qs) :
    (s.applyUpdate E u).getCodeSize E a =
      ((u.lastCode a).map (·.length % 2 ^ 32)).getD (s.getCodeSize E a) := by
  have hN : ∀ x ∈ u.nonces.filter (·.account = a), x.nonce.toList.length = 16 - 8 := by simp
  have hB : ∀ x ∈ u.balances.filter (·.account = a),
      (x.balance.bytes32.toList.drop 16).length = 32 - 16 := by simp
  have hC : ∀ x ∈ u.codes.filter (·.account = a),
      (natToBe 4 (x.code.length % 2 ^ 32)).length = 8 - 4 := by simp
  show beToNat (((s.applyUpdate E u).basicData E a).slice 4 8) = _
  rw [basicData_applyUpdate hsep s a ha, Bytes.slice_foldl_copy (by decide) (by decide) _ _ hC,
    Bytes.slice_foldl_copy_of_disjoint (by decide) (by decide) _ _ hB _ (.inl (by decide)),
    Bytes.slice_foldl_copy_of_disjoint (by decide) (by decide) _ _ hN _ (.inl le_rfl), Update.lastCode]
  cases (u.codes.filter (·.account = a)).getLast? <;> simp [getCodeSize, beToNat_natToBe]

theorem getCodeHash_applyUpdate (s : State) (a : Address) (ha : .basicData a ∈ qs)
    (hc : .codeHash a ∈ qs) :
    (s.applyUpdate E u).getCodeHash E a =
      ((u.codes.filter (·.account = a)).getLast?.map (E.keccak256 ·.code)).getD
        (if a ∈ u.createdAccounts ∧ (s.basicData E a).slice 4 32 = List.replicate 28 0 then
          E.emptyCodeHash else s.getCodeHash E a) := by
  obtain ⟨hC, hN, hB, hS, hK⟩ := Update.mem_locations E u
  have key {w} (hw : w ∈ u.locations E) : E.key w = E.getCodeHashKey a ↔ w = .codeHash a :=
    hsep.key_eq_iff hw hc
  have hcreated := getCodeHash_foldl_initAccount E u.createdAccounts s a
    (fun b hb h => by simpa using (hsep.key_eq_iff (hC b hb) ha).1 h)
    (fun b hb h => by simpa using (key (hC b hb)).1 h)
  simp only [getCodeHash, applyUpdate] at hcreated ⊢
  rw [get_foldl_applyCode E _ _ _ fun c hc j hj h => by simpa using (key ((hK c hc).2.2 j hj)).1 h,
    get_foldl_applySlot, filter_key_eq_nil hsep u.slots _ (fun x => E.getStorageKey x.account x.key) hS
      (fun _ => rfl) hc (E.getCodeHashKey a) rfl fun _ _ => nofun,
    get_foldl_applyBalance, filter_key_eq_nil hsep u.balances _ (fun x => E.getBasicDataKey x.account) hB
      (fun _ => rfl) hc (E.getCodeHashKey a) rfl fun _ _ => nofun,
    get_foldl_applyNonce, filter_key_eq_nil hsep u.nonces _ (fun x => E.getBasicDataKey x.account) hN
      (fun _ => rfl) hc (E.getCodeHashKey a) rfl fun _ _ => nofun]
  simp only [List.getLast?_nil, Option.map_none', Option.getD_none, List.foldl_nil, hcreated]
  rw [← foldl_ite_eq_getLast?]
  refine List.foldl_ext _ _ _ fun v c hc => ?_
  have h1 := key (hK c hc).2.1
  have h2 : E.getBasicDataKey c.account ≠ E.getCodeHashKey a := fun h => by
    simpa using (key (hK c hc).1).1 h
  simp only [Env.key, Location.codeHash.injEq] at h1
  simp [h1, h2]

theorem getStorage_applyUpdate (s : State) (a : Address) (k : Key) (hk : .storage a k ∈ qs) :
    (s.applyUpdate E u).getStorage E a k =
      ((u.slots.filter fun x => x.account = a ∧ x.key = k).getLast?.map (·.value)).getD
        (s.getStorage E a k) := by
  obtain ⟨hC, hN, hB, hS, hK⟩ := Update.mem_locations E u
  have key {w} (hw : w ∈ u.locations E) : E.key w = E.getStorageKey a k ↔ w = .storage a k :=
    hsep.key_eq_iff hw hk
  have hs : u.slots.filter (fun x => E.getStorageKey x.account x.key = E.getStorageKey a k) =
      u.slots.filter fun x => x.account = a ∧ x.key = k :=
    List.filter_congr fun x hx => by
      rw [decide_eq_decide]; simpa [Env.key] using key (hS x hx)
  simp only [getStorage, applyUpdate]
  rw [get_foldl_applyCode E _ _ _ fun c hc j hj h => by simpa using (key ((hK c hc).2.2 j hj)).1 h,
    get_foldl_applySlot, hs, get_foldl_applyBalance, filter_key_eq_nil hsep u.balances _
      (fun x => E.getBasicDataKey x.account) hB (fun _ => rfl) hk (E.getStorageKey a k) rfl fun _ _ => nofun,
    get_foldl_applyNonce, filter_key_eq_nil hsep u.nonces _ (fun x => E.getBasicDataKey x.account) hN
      (fun _ => rfl) hk (E.getStorageKey a k) rfl fun _ _ => nofun,
    get_foldl_initAccount_of_ne E _ _ _ fun b hb h => by simpa using (key (hC b hb)).1 h,
    List.foldl_nil, List.foldl_nil]
  refine (List.foldl_ext _ (fun v _ => v) _ fun v c hc => ?_).trans (List.foldl_fixed _)
  have h1 : E.getCodeHashKey c.account ≠ E.getStorageKey a k := fun h => by
    simpa using (key (hK c hc).2.1).1 h
  have h2 : E.getBasicDataKey c.account ≠ E.getStorageKey a k := fun h => by
    simpa using (key (hK c hc).1).1 h
  simp [h1, h2]

end Separated

variable (E : Env)

/-- `Apply` on account `a` and its slot `k`, when the update's keys are apart from theirs: each
getter reads the last write of its own field, else the old value. -/
theorem apply_account_fields (s : State) (b : Nat) (u : Update) (a : Address) (k : Key)
    (hsep : E.Separates (u.locations E) [.basicData a, .codeHash a, .storage a k]) :
    (s.apply E b u).getNonce E a = (u.lastNonce a).getD (s.getNonce E a) ∧
      ((s.apply E b u).getBalance E a).toNat =
        ((u.lastBalance a).map (·.toNat % 2 ^ 128)).getD (s.getBalance E a).toNat ∧
      (s.apply E b u).getCodeSize E a =
        ((u.lastCode a).map (·.length % 2 ^ 32)).getD (s.getCodeSize E a) ∧
      (s.apply E b u).getCodeHash E a =
        ((u.lastCode a).map E.keccak256).getD
          (if a ∈ u.createdAccounts ∧ s.getCodeSize E a = 0 ∧ s.getNonce E a = Bytes.zero 8 ∧
              (s.getBalance E a).toNat = 0 then E.emptyCodeHash
            else s.getCodeHash E a) ∧
      (s.apply E b u).getStorage E a k = (u.lastSlot a k).getD (s.getStorage E a k) := by
  have ha : Location.basicData a ∈ [.basicData a, .codeHash a, .storage a k] := by simp
  refine ⟨getNonce_applyUpdate hsep s a ha, getBalance_applyUpdate hsep s a ha,
    getCodeSize_applyUpdate hsep s a ha, ?codeHash, getStorage_applyUpdate hsep s a k (by simp)⟩
  show (s.applyUpdate E u).getCodeHash E a = _
  rw [getCodeHash_applyUpdate hsep s a ha (by simp), Update.lastCode, Option.map_map]
  simp only [basicData_slice_eq_zero_iff]
  rfl

end State

/-- An update that writes every field of account 1, twice its nonce, and a nonce of account 2. -/
def sampleUpdate : Update where
  createdAccounts := [sampleAddress 1]
  nonces := [⟨sampleAddress 1, Bytes.ofList [0, 0, 0, 0, 0, 0, 0, 5]⟩,
    ⟨sampleAddress 2, Bytes.ofList [0, 0, 0, 0, 0, 0, 0, 1]⟩,
    ⟨sampleAddress 1, Bytes.ofList [0, 0, 0, 0, 0, 0, 0, 6]⟩]
  balances := [⟨sampleAddress 1, ⟨2 ^ 130 + 7, by decide⟩⟩]
  slots := [⟨sampleAddress 1, sampleKey 3, Bytes.ofList [9]⟩]
  codes := [⟨sampleAddress 1, [0x60, 0x00]⟩]

theorem apply_account_fields_sample :
    Env.sample.Separates (sampleUpdate.locations Env.sample)
        [.basicData (sampleAddress 1), .codeHash (sampleAddress 1), .storage (sampleAddress 1) (sampleKey 3)] ∧
      (newState.apply Env.sample 1 sampleUpdate).getNonce Env.sample (sampleAddress 1) =
        (sampleUpdate.lastNonce (sampleAddress 1)).getD (newState.getNonce Env.sample (sampleAddress 1)) ∧
      ((newState.apply Env.sample 1 sampleUpdate).getBalance Env.sample (sampleAddress 1)).toNat =
        ((sampleUpdate.lastBalance (sampleAddress 1)).map (·.toNat % 2 ^ 128)).getD
          (newState.getBalance Env.sample (sampleAddress 1)).toNat ∧
      (newState.apply Env.sample 1 sampleUpdate).getCodeSize Env.sample (sampleAddress 1) =
        ((sampleUpdate.lastCode (sampleAddress 1)).map (·.length % 2 ^ 32)).getD
          (newState.getCodeSize Env.sample (sampleAddress 1)) ∧
      (newState.apply Env.sample 1 sampleUpdate).getCodeHash Env.sample (sampleAddress 1) =
        ((sampleUpdate.lastCode (sampleAddress 1)).map Env.sample.keccak256).getD
          (if sampleAddress 1 ∈ sampleUpdate.createdAccounts ∧
              newState.getCodeSize Env.sample (sampleAddress 1) = 0 ∧
              newState.getNonce Env.sample (sampleAddress 1) = Bytes.zero 8 ∧
              (newState.getBalance Env.sample (sampleAddress 1)).toNat = 0 then Env.sample.emptyCodeHash
            else newState.getCodeHash Env.sample (sampleAddress 1)) ∧
      (newState.apply Env.sample 1 sampleUpdate).getStorage Env.sample (sampleAddress 1) (sampleKey 3) =
        (sampleUpdate.lastSlot (sampleAddress 1) (sampleKey 3)).getD
          (newState.getStorage Env.sample (sampleAddress 1) (sampleKey 3)) :=
  have hsep : Env.sample.Separates (sampleUpdate.locations Env.sample)
      [.basicData (sampleAddress 1), .codeHash (sampleAddress 1), .storage (sampleAddress 1) (sampleKey 3)] := by
    decide
  ⟨hsep, State.apply_account_fields Env.sample newState 1 sampleUpdate _ _ hsep⟩

end VerkleTrie.Memory
