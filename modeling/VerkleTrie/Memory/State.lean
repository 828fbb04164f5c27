import VerkleTrie.Memory.Types
import VerkleTrie.Memory.Archive

/-! # The state and its getters

`State` keeps accounts and storage in one trie. An account's code size, nonce and balance
share one 32-byte `BasicData` value: bytes 4 to 8 hold the code size, 8 to 16 the nonce and
16 to 32 the balance, all big-endian.
-/

namespace VerkleTrie.Memory

/-- `State`. `writtenSlots` is the Go map of maps of the storage keys `Apply` wrote, with an
absent address read as the empty set. -/
structure State where
  trie : Trie
  archive : VtArchive
  writtenSlots : Address → Finset Key
  archiveMaxSize : Int

/-- `NewState` and `newState`: an empty trie, and an archive that keeps the last 1000 blocks. -/
def newState : State := ⟨Trie.empty, newVtArchive 1000, fun _ => ∅, 1000⟩

namespace State

variable (E : Env)

/-- The `BasicData` value of an account, which `Exists` and the three field getters read. -/
def basicData (s : State) (address : Address) : Value := s.trie.get (E.getBasicDataKey address)

/-- `Exists`: a non-zero nonce or balance. -/
def «exists» (s : State) (address : Address) : Bool :=
  (s.basicData E address).slice 8 32 != List.replicate 24 0

/-- `GetBalance`. -/
def getBalance (s : State) (address : Address) : Amount :=
  Amount.newFromBytes ((s.basicData E address).slice 16 32)

/-- `GetNonce`. -/
def getNonce (s : State) (address : Address) : Nonce :=
  Bytes.ofList ((s.basicData E address).slice 8 16)

/-- `GetStorage`. -/
def getStorage (s : State) (address : Address) (key : Key) : Value :=
  s.trie.get (E.getStorageKey address key)

/-- `GetCodeSize`. -/
def getCodeSize (s : State) (address : Address) : Nat :=
  beToNat ((s.basicData E address).slice 4 8)

/-- `GetCode`: the chunks `0` to `size / 31`, merged. The size is a `uint32` widened to Go's `int`,
taken as 64 bits, so it and the chunk count below it are exact `Nat`s. -/
def getCode (s : State) (address : Address) : List UInt8 :=
  let size := s.getCodeSize E address
  E.merge ((List.range (size / 31 + 1)).map fun i => s.trie.get (E.getCodeChunkKey address i)) size

/-- `GetCodeHash`. -/
def getCodeHash (s : State) (address : Address) : Hash := s.trie.get (E.getCodeHashKey address)

/-- `HasEmptyStorage`: consults the slots `Apply` recorded for the address, and only those. -/
def hasEmptyStorage (s : State) (addr : Address) : Bool :=
  if s.writtenSlots addr = ∅ then true
  else decide (∀ key ∈ s.writtenSlots addr, s.trie.get (E.getStorageKey addr key) = Bytes.zero 32)

/-- `GetHash`: the compressed root commitment of the trie. -/
def getHash (s : State) : Hash := s.trie.commit E.rootOf

/-! ## The fields of `BasicData` -/

theorem getCodeSize_eq_zero_iff (s : State) (a : Address) :
    s.getCodeSize E a = 0 ↔ ∀ x ∈ (s.basicData E a).slice 4 8, x = 0 :=
  beToNat_eq_zero_iff _

theorem getNonce_eq_zero_iff (s : State) (a : Address) :
    s.getNonce E a = Bytes.zero 8 ↔ ∀ x ∈ (s.basicData E a).slice 8 16, x = 0 := by
  rw [getNonce, Bytes.ext_iff, Bytes.toList_zero,
    Bytes.toList_ofList ((s.basicData E a).slice_length (by decide)),
    Bytes.slice_eq_zero_iff _ (by decide) (by decide)]

theorem getBalance_toNat (s : State) (a : Address) :
    (s.getBalance E a).toNat = beToNat ((s.basicData E a).slice 16 32) :=
  Nat.mod_eq_of_lt ((beToNat_lt _).trans_le (by rw [Bytes.slice_length _ (by decide)]; decide))

theorem getBalance_eq_zero_iff (s : State) (a : Address) :
    (s.getBalance E a).toNat = 0 ↔ ∀ x ∈ (s.basicData E a).slice 16 32, x = 0 := by
  rw [getBalance_toNat, beToNat_eq_zero_iff]

theorem basicData_slice_eq_zero_iff (s : State) (a : Address) :
    (s.basicData E a).slice 4 32 = List.replicate 28 0 ↔
      s.getCodeSize E a = 0 ∧ s.getNonce E a = Bytes.zero 8 ∧ (s.getBalance E a).toNat = 0 := by
  rw [getCodeSize_eq_zero_iff, getNonce_eq_zero_iff, getBalance_eq_zero_iff,
    Bytes.slice_eq_zero_iff _ (by decide) (by decide), ← Bytes.slice_append _ 4 8 32 (by decide) (by decide),
    ← Bytes.slice_append _ 8 16 32 (by decide) (by decide)]
  simp [or_imp, forall_and]

theorem exists_iff (s : State) (a : Address) :
    s.exists E a = true ↔ s.getNonce E a ≠ Bytes.zero 8 ∨ (s.getBalance E a).toNat ≠ 0 := by
  simp only [«exists», bne_iff_ne, ne_eq]
  rw [getNonce_eq_zero_iff, getBalance_eq_zero_iff, Bytes.slice_eq_zero_iff _ (by decide) (by decide), ← Bytes.slice_append _ 8 16 32 (by decide) (by decide)]
  simp only [List.mem_append, or_imp, forall_and]
  tauto

end State

end VerkleTrie.Memory
