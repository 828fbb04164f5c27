import VerkleTrie.Memory.Snapshot

/-! # `Apply` and the archive of past blocks

`Apply` runs five loops over the update: created accounts, nonces, balances, storage slots and
codes, in this order. It then archives a snapshot of the state under the block number.
`GetArchiveState` rebuilds a state from such a snapshot.
-/

namespace VerkleTrie.Memory

namespace State

variable (E : Env)

/-- One account of `update.CreatedAccounts`: if its code size, nonce and balance are all zero,
it gets the empty code hash. -/
def initAccount (s : State) (address : Address) : State :=
  let accountKey := E.getBasicDataKey address
  let value := s.trie.get accountKey
  if value.slice 4 32 = List.replicate 28 0 then
    { s with trie := (s.trie.set accountKey value).set (E.getCodeHashKey address) E.emptyCodeHash }
  else s

/-- The read-modify-write of bytes `lo` to `hi` of an account's `BasicData`, which the nonce,
balance and code loops of `Apply` share. -/
def setBasicData (s : State) (address : Address) (lo hi : Nat) (src : List UInt8) : State :=
  let key := E.getBasicDataKey address
  let value := s.trie.get key
  { s with trie := s.trie.set key (value.copy lo hi src) }

/-- One entry of `update.Nonces`. -/
def applyNonce (s : State) (u : NonceUpdate) : State :=
  s.setBasicData E u.account 8 16 u.nonce.toList

/-- One entry of `update.Balances`: the low 16 bytes of the 32-byte balance. -/
def applyBalance (s : State) (u : BalanceUpdate) : State :=
  s.setBasicData E u.account 16 32 (u.balance.bytes32.toList.drop 16)

/-- One entry of `update.Slots`, recorded in `writtenSlots`. -/
def applySlot (s : State) (u : SlotUpdate) : State :=
  { s with
    trie := s.trie.set (E.getStorageKey u.account u.key) u.value
    writtenSlots := Function.update s.writtenSlots u.account (insert u.key (s.writtenSlots u.account)) }

/-- The chunk loop of a code update: chunk `i` and those after it. -/
def storeChunks (address : Address) (t : Trie) : Nat → List Value → Trie
  | _, [] => t
  | i, chunk :: chunks => storeChunks address (t.set (E.getCodeChunkKey address i) chunk) (i + 1) chunks

/-- One entry of `update.Codes`: the code length as a `uint32`, the code hash, the chunks. -/
def applyCode (s : State) (u : CodeUpdate) : State :=
  let s := s.setBasicData E u.account 4 8 (natToBe 4 (u.code.length % 2 ^ 32))
  let trie := s.trie.set (E.getCodeHashKey u.account) (E.keccak256 u.code)
  { s with trie := storeChunks E u.account trie 0 (E.splitCode u.code) }

/-- The five loops of `Apply`. -/
def applyUpdate (s : State) (update : Update) : State :=
  let s := update.createdAccounts.foldl (initAccount E) s
  let s := update.nonces.foldl (applyNonce E) s
  let s := update.balances.foldl (applyBalance E) s
  let s := update.slots.foldl (applySlot E) s
  update.codes.foldl (applyCode E) s

/-- `archiveCurrentState`. `CreateSnapshot` returns no error and always a `*vtSnapshot`, so the
two error returns are never taken. -/
def archiveCurrentState (s : State) (block : Nat) : State :=
  { s with archive := s.archive.addBlock block (s.createSnapshot E) }

/-- `Apply`. Its one error return, from `archiveCurrentState`, is never taken. -/
def apply (s : State) (block : Nat) (update : Update) : State :=
  (s.applyUpdate E update).archiveCurrentState E block

/-! ## What one step of each loop writes -/

theorem get_initAccount (s : State) (address : Address) (k : Key) :
    (s.initAccount E address).trie.get k =
      if (s.trie.get (E.getBasicDataKey address)).slice 4 32 = List.replicate 28 0 ∧
          E.getCodeHashKey address = k then E.emptyCodeHash
      else s.trie.get k := by
  unfold initAccount
  by_cases h1 : (s.trie.get (E.getBasicDataKey address)).slice 4 32 = List.replicate 28 0
  · by_cases h2 : E.getCodeHashKey address = k
    · simp [h1, h2]
    · by_cases h3 : E.getBasicDataKey address = k
      · subst h3; simp [h1, h2]
      · simp [h1, h2, h3]
  · rw [if_neg h1, if_neg fun h => h1 h.1]

theorem get_setBasicData (s : State) (address : Address) (lo hi : Nat) (src : List UInt8) (k : Key) :
    (s.setBasicData E address lo hi src).trie.get k =
      if E.getBasicDataKey address = k then (s.trie.get k).copy lo hi src else s.trie.get k := by
  unfold setBasicData
  split_ifs with h
  · subst h; simp
  · simp [h]

theorem get_applySlot (s : State) (u : SlotUpdate) (k : Key) :
    (s.applySlot E u).trie.get k = if E.getStorageKey u.account u.key = k then u.value else s.trie.get k :=
  Trie.get_set _ _ _ _

theorem writtenSlots_applySlot (s : State) (u : SlotUpdate) (a : Address) :
    (s.applySlot E u).writtenSlots a =
      if a = u.account then insert u.key (s.writtenSlots a) else s.writtenSlots a := by
  by_cases h : a = u.account
  · subst h; simp [applySlot]
  · simp [applySlot, h]

theorem get_storeChunks (address : Address) (t : Trie) (i : Nat) (chunks : List Value) (k : Key)
    (h : ∀ j < chunks.length, E.getCodeChunkKey address (i + j) ≠ k) :
    (storeChunks E address t i chunks).get k = t.get k := by
  induction chunks generalizing t i with
  | nil => rfl
  | cons c cs ih =>
    rw [storeChunks, ih _ _ fun j hj => by simpa [Nat.add_assoc, Nat.add_comm 1] using h (j + 1) (by simpa using hj),
      Trie.get_set_of_ne _ _ (by simpa using h 0 (by simp))]

theorem get_applyCode (s : State) (u : CodeUpdate) (k : Key)
    (h : ∀ j < (E.splitCode u.code).length, E.getCodeChunkKey u.account j ≠ k) :
    (s.applyCode E u).trie.get k =
      if E.getCodeHashKey u.account = k then E.keccak256 u.code
      else if E.getBasicDataKey u.account = k then (s.trie.get k).copy 4 8 (natToBe 4 (u.code.length % 2 ^ 32))
      else s.trie.get k := by
  unfold applyCode
  rw [get_storeChunks E _ _ 0 _ _ (by simpa using h), Trie.get_set, get_setBasicData]

theorem archive_foldl {α : Type} (f : State → α → State)
    (hf : ∀ s x, ((f s x).archive, (f s x).archiveMaxSize) = (s.archive, s.archiveMaxSize))
    (l : List α) (s : State) :
    ((l.foldl f s).archive, (l.foldl f s).archiveMaxSize) = (s.archive, s.archiveMaxSize) := by
  induction l generalizing s with
  | nil => rfl
  | cons x l ih => exact (ih (f s x)).trans (hf s x)

theorem archive_applyUpdate (s : State) (u : Update) :
    ((s.applyUpdate E u).archive, (s.applyUpdate E u).archiveMaxSize) = (s.archive, s.archiveMaxSize) := by
  have hinit : ∀ (t : State) (a : Address),
      ((t.initAccount E a).archive, (t.initAccount E a).archiveMaxSize) = (t.archive, t.archiveMaxSize) :=
    fun t a => by unfold initAccount; dsimp only; split <;> rfl
  exact (archive_foldl (applyCode E) (fun _ _ => rfl) _ _).trans <|
    (archive_foldl (applySlot E) (fun _ _ => rfl) _ _).trans <|
    (archive_foldl (applyBalance E) (fun _ _ => rfl) _ _).trans <|
    (archive_foldl (applyNonce E) (fun _ _ => rfl) _ _).trans <| archive_foldl (initAccount E) hinit _ _

@[simp] theorem trie_archiveCurrentState (s : State) (block : Nat) :
    (s.archiveCurrentState E block).trie = s.trie := rfl

@[simp] theorem writtenSlots_archiveCurrentState (s : State) (block : Nat) :
    (s.archiveCurrentState E block).writtenSlots = s.writtenSlots := rfl

/-- `GetArchiveState`: a new state with an empty `writtenSlots`, restored from the snapshot of
the block; `none` for a panic. -/
def getArchiveState (s : State) (block : Nat) : Option (Except String State) := do
  match s.archive.getBlock block with
  | none => return .error s!"no archived state for block {block}"
  | some snapshot =>
    let archivedState : State :=
      { trie := Trie.empty, archive := s.archive, writtenSlots := fun _ => ∅,
        archiveMaxSize := s.archiveMaxSize }
    let (restored, err) ← archivedState.restore E snapshot
    match err with
    | some e => return .error s!"failed to restore archived state for block {block}: {e}"
    | none => return .ok restored

/-- `GetArchiveBlockHeight`: the height, and whether the archive is empty. -/
def getArchiveBlockHeight (s : State) : Nat × Bool :=
  let (height, hasBlocks) := s.archive.getBlockHeight
  if !hasBlocks then (0, true) else (height, false)

end State

end VerkleTrie.Memory
