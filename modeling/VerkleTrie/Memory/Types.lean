import VerkleTrie.Trie
import Mathlib.Data.Finset.Card

/-! # The types of `vt/memory`

The inputs of `State` (addresses, nonces, amounts, `common.Update`), the places it keeps in the
trie, and what it takes from outside this repository's files: the state-key encoders, code
chunking, Keccak-256 and the trie's commitment scheme.
-/

namespace VerkleTrie.Memory

/-- `common.Address`. -/
abbrev Address := Bytes 20

/-- `common.Nonce`. -/
abbrev Nonce := Bytes 8

/-- `common.Hash`. -/
abbrev Hash := Bytes 32

/-- `amount.Amount`, an unsigned 256-bit integer. -/
structure Amount where
  toNat : Nat
  lt : toNat < 2 ^ 256
deriving DecidableEq

namespace Amount

/-- `amount.New()`. -/
def new : Amount := ⟨0, Nat.pos_pow_of_pos _ (by decide)⟩

/-- `amount.NewFromBytes(b...)`: `b` big-endian, cut to its low 256 bits. -/
def newFromBytes (b : List UInt8) : Amount := ⟨beToNat b % 2 ^ 256, Nat.mod_lt _ (by decide)⟩

/-- `a.Bytes32()`: big-endian. -/
def bytes32 (a : Amount) : Bytes 32 := ⟨natToBe 32 a.toNat, length_natToBe _ _⟩

end Amount

/-- `common.NonceUpdate`. -/
structure NonceUpdate where
  account : Address
  nonce : Nonce

/-- `common.BalanceUpdate`. -/
structure BalanceUpdate where
  account : Address
  balance : Amount

/-- `common.SlotUpdate`. -/
structure SlotUpdate where
  account : Address
  key : Key
  value : Value

/-- `common.CodeUpdate`. -/
structure CodeUpdate where
  account : Address
  code : List UInt8

/-- `common.Update`, with the lists `State.Apply` reads. -/
structure Update where
  createdAccounts : List Address := []
  nonces : List NonceUpdate := []
  balances : List BalanceUpdate := []
  slots : List SlotUpdate := []
  codes : List CodeUpdate := []

/-- What `vt/memory` calls that is not among this repository's files: the state-key encoders
and code chunking of the package, `common.Keccak256`, and the commitment scheme behind
`trie.Commit().Compress()`. -/
structure Env where
  getBasicDataKey : Address → Key
  getCodeHashKey : Address → Key
  getStorageKey : Address → Key → Key
  getCodeChunkKey : Address → Nat → Key
  splitCode : List UInt8 → List Value
  merge : List Value → Nat → List UInt8
  keccak256 : List UInt8 → Hash
  rootOf : Finset (Key × Value) → Value

/-- `types.EmptyCodeHash`, which go-ethereum defines as the Keccak-256 hash of no bytes. -/
def Env.emptyCodeHash (E : Env) : Hash := E.keccak256 []

/-- The places the state keeps in the trie (spec §4.5). -/
inductive Location
  | basicData (a : Address)
  | codeHash (a : Address)
  | storage (a : Address) (k : Key)
  | codeChunk (a : Address) (i : Nat)
deriving DecidableEq

/-- The trie key of a location. -/
def Env.key (E : Env) : Location → Key
  | .basicData a => E.getBasicDataKey a
  | .codeHash a => E.getCodeHashKey a
  | .storage a k => E.getStorageKey a k
  | .codeChunk a i => E.getCodeChunkKey a i

/-- The encoders keep each location of `ws` apart from each location of `qs`: two of them share
a trie key only if they are the same place. Spec §4.5 asks this of all locations; over 32-byte
keys it can only hold for finitely many at a time, such as those one update writes. -/
def Env.Separates (E : Env) (ws qs : List Location) : Prop :=
  ∀ w ∈ ws, ∀ q ∈ qs, E.key w = E.key q → w = q

instance (E : Env) (ws qs : List Location) : Decidable (E.Separates ws qs) :=
  inferInstanceAs (Decidable (∀ w ∈ ws, ∀ q ∈ qs, E.key w = E.key q → w = q))

/-- Encoders to run the model on: a key is the address, a byte for the kind of place, then the
slot's low bytes or the chunk number. Chunks carry 31 bytes of code after a zero byte; the hash
and the commitment are stand-ins. -/
def Env.sample : Env where
  getBasicDataKey a := Bytes.ofList (a.toList ++ [0])
  getCodeHashKey a := Bytes.ofList (a.toList ++ [1])
  getStorageKey a k := Bytes.ofList (a.toList ++ 2 :: k.toList.drop 21)
  getCodeChunkKey a i := Bytes.ofList (a.toList ++ [3, UInt8.ofNat i])
  splitCode code := (List.range ((code.length + 30) / 31)).map fun i =>
    Bytes.ofList (0 :: (code.drop (31 * i)).take 31)
  merge chunks size := (chunks.flatMap fun c => c.toList.drop 1).take size
  keccak256 code := Bytes.ofList (UInt8.ofNat (code.length + 1) :: code)
  rootOf content := Bytes.ofList (natToBe 32 content.card)

end VerkleTrie.Memory
