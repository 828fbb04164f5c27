import VerkleTrie.Memory.Types
import Mathlib.Data.List.AList

/-! # The go-ethereum backend (`src/geth`)

`verkleState` keeps the accounts and the storage in go-ethereum's `trie.VerkleTrie` and the codes
in a map of its own, since that trie does not give codes back. The trie is not among this
repository's files, so its operations are a parameter, `VerkleTrieOps`. So is
`common.Update.ApplyTo`, to which `Apply` hands the update: the model runs the list of setter
calls it makes. `persistentVerkleState` commits after each `Apply`, writes the committed nodes to
its `memorySource`, and reopens the trie from there.

A Go method that mutates its receiver and returns an `error` is a function to the receiver
afterwards and the error; a panic is `none`.
-/

namespace VerkleTrie.Geth

open VerkleTrie.Memory (Address Nonce Hash Amount Env)

/-- `types.StateAccount`, with the fields the adapter reads and writes. `Balance` is the
`uint256.Int` that `amount.Amount` wraps, so `Uint256()` and `NewFromUint256` keep its value. -/
structure StateAccount where
  nonce : UInt64
  balance : Amount
  codeHash : List UInt8

/-- `types.NewEmptyStateAccount()`. -/
def StateAccount.empty (E : Env) : StateAccount := ⟨0, Amount.new, E.emptyCodeHash.toList⟩

/-- `nonce.ToUint64()`: the eight bytes big-endian. -/
def toUint64 (nonce : Nonce) : UInt64 := UInt64.ofNat (beToNat nonce.toList)

/-- `common.ToNonce(x)`. -/
def toNonce (x : UInt64) : Nonce := ⟨natToBe 8 x.toNat, length_natToBe _ _⟩

/-- `memorySource`: the nodes of the trie by path. -/
structure MemorySource where
  nodes : AList (fun _ : List UInt8 => List UInt8)

/-- `newMemorySource()`. -/
def newMemorySource : MemorySource := ⟨∅⟩

namespace MemorySource

/-- `Node(owner, path, hash)`: the node stored at `path`, `nil` if there is none. -/
def node (s : MemorySource) (path : List UInt8) : Option (List UInt8) := s.nodes.lookup path

/-- `set(path, value)`, which never fails. -/
def set (s : MemorySource) (path value : List UInt8) : MemorySource := ⟨s.nodes.insert path value⟩

end MemorySource

/-- The calls the adapter makes on go-ethereum's `trie.VerkleTrie` `T`. `commit` is
`Commit(false)`: the root and the node set, a map from path to blob. `newVerkleTrie` is
`trie.NewVerkleTrie(root, source, cache)`, with no source for the in-memory state. -/
structure VerkleTrieOps (T : Type) where
  getAccount : T → Address → Except String (Option StateAccount)
  updateAccount : T → Address → StateAccount → Nat → Except String T
  getStorage : T → Address → Key → Except String (List UInt8)
  updateStorage : T → Address → Key → List UInt8 → Except String T
  updateContractCode : T → Address → Hash → List UInt8 → Except String T
  hash : T → Hash
  commit : T → Hash × AList (fun _ : List UInt8 => List UInt8)
  newVerkleTrie : Hash → Option MemorySource → Except String T

/-- `verkleState`: the trie, and the codes by address (`nil`, read as empty, for no code). -/
structure VerkleState (T : Type) where
  verkle : T
  codes : Address → List UInt8

/-- The calls `common.Update.ApplyTo` makes on the state it updates. -/
inductive Call
  | deleteAccount (address : Address)
  | createAccount (address : Address)
  | setBalance (address : Address) (balance : Amount)
  | setNonce (address : Address) (nonce : Nonce)
  | setCode (address : Address) (code : List UInt8)
  | setStorage (address : Address) (key : Key) (value : Value)

variable {T : Type} (E : Env) (V : VerkleTrieOps T)

/-- `newState(params, nil)`: an empty trie and no codes. -/
def newState : Except String (VerkleState T) := do
  let verkle ← V.newVerkleTrie (Bytes.zero 32) none
  return { verkle, codes := fun _ => [] }

namespace VerkleState

/-- `getAccount`: the trie's account, or an empty one where the trie has none. -/
def getAccount (s : VerkleState T) (address : Address) : Except String StateAccount := do
  match ← V.getAccount s.verkle address with
  | some account => return account
  | none => return StateAccount.empty E

/-- `GetCode`, from the map. -/
def getCode (s : VerkleState T) (address : Address) : List UInt8 := s.codes address

/-- `GetCodeSize`, from the map. -/
def getCodeSize (s : VerkleState T) (address : Address) : Nat := (s.codes address).length

/-- `Exists`: a nonce, or a balance whose `Uint64()`, its low 64 bits, is not zero. -/
def «exists» (s : VerkleState T) (address : Address) : Except String Bool := do
  let account ← s.getAccount E V address
  return account.nonce != 0 || account.balance.toNat % 2 ^ 64 != 0

/-- `GetNonce`. -/
def getNonce (s : VerkleState T) (address : Address) : Except String Nonce := do
  return toNonce (← s.getAccount E V address).nonce

/-- `GetBalance`. -/
def getBalance (s : VerkleState T) (address : Address) : Except String Amount := do
  return (← s.getAccount E V address).balance

/-- `GetCodeHash`: `common.Hash(account.CodeHash)` panics on fewer than 32 bytes. -/
def getCodeHash (s : VerkleState T) (address : Address) : Option (Except String Hash) :=
  match s.getAccount E V address with
  | .error e => some (.error e)
  | .ok account =>
    if account.codeHash.length < 32 then none else some (.ok (Bytes.ofList account.codeHash))

/-- `GetStorage`: the value copied to the end of a zero `common.Value`, a panic if it is longer. -/
def getStorage (s : VerkleState T) (address : Address) (key : Key) : Option (Except String Value) :=
  match V.getStorage s.verkle address key with
  | .error e => some (.error e)
  | .ok value =>
    if 32 < value.length then none
    else some (.ok (Bytes.ofList (List.replicate (32 - value.length) 0 ++ value)))

/-- `HasEmptyStorage`, which this backend does not support. -/
def hasEmptyStorage (_s : VerkleState T) (_addr : Address) : Except String Bool :=
  .error "not supported: verkle trie does not support has empty storage"

/-- `GetHash`. -/
def getHash (s : VerkleState T) : Hash := V.hash s.verkle

/-- `DeleteAccount`, which this backend does not support. -/
def deleteAccount (s : VerkleState T) (_address : Address) : VerkleState T × Option String :=
  (s, some "not supported: verkle trie does not support deleting accounts")

/-- `CreateAccount`: an empty account, unless the trie has one. -/
def createAccount (s : VerkleState T) (address : Address) : VerkleState T × Option String :=
  match V.getAccount s.verkle address with
  | .error e => (s, some e)
  | .ok (some _) => (s, none)
  | .ok none =>
    match V.updateAccount s.verkle address (StateAccount.empty E) 0 with
    | .error e => (s, some e)
    | .ok verkle => ({ s with verkle }, none)

/-- What `SetNonce` and `SetBalance` share: read the account, change one field, and write it back
with the code size of the map. -/
def setAccountField (s : VerkleState T) (address : Address) (change : StateAccount → StateAccount) :
    VerkleState T × Option String :=
  match s.getAccount E V address with
  | .error e => (s, some e)
  | .ok account =>
    match V.updateAccount s.verkle address (change account) (s.getCodeSize address) with
    | .error e => (s, some e)
    | .ok verkle => ({ s with verkle }, none)

/-- `SetNonce`. -/
def setNonce (s : VerkleState T) (address : Address) (nonce : Nonce) : VerkleState T × Option String :=
  s.setAccountField E V address fun account => { account with nonce := toUint64 nonce }

/-- `SetBalance`. -/
def setBalance (s : VerkleState T) (address : Address) (balance : Amount) : VerkleState T × Option String :=
  s.setAccountField E V address fun account => { account with balance := balance }

/-- `SetStorage`. -/
def setStorage (s : VerkleState T) (address : Address) (key : Key) (value : Value) :
    VerkleState T × Option String :=
  match V.updateStorage s.verkle address key value.toList with
  | .error e => (s, some e)
  | .ok verkle => ({ s with verkle }, none)

/-- `SetCode`: the code size and hash into the account, the code into the trie, and a copy into
the map. -/
def setCode (s : VerkleState T) (address : Address) (code : List UInt8) : VerkleState T × Option String :=
  match s.getAccount E V address with
  | .error e => (s, some e)
  | .ok account =>
    let codeHash := E.keccak256 code
    match V.updateAccount s.verkle address { account with codeHash := codeHash.toList } code.length with
    | .error e => (s, some e)
    | .ok verkle =>
      match V.updateContractCode verkle address codeHash code with
      | .error e => ({ s with verkle }, some e)
      | .ok verkle => ({ verkle, codes := Function.update s.codes address code }, none)

/-- One call of `ApplyTo`. -/
def call (s : VerkleState T) : Call → VerkleState T × Option String
  | .deleteAccount a => s.deleteAccount a
  | .createAccount a => s.createAccount E V a
  | .setBalance a b => s.setBalance E V a b
  | .setNonce a n => s.setNonce E V a n
  | .setCode a c => s.setCode E V a c
  | .setStorage a k v => s.setStorage V a k v

/-- `Apply(block, update)`: `update.ApplyTo(s)`, here the calls it makes, up to the first error. -/
def apply (s : VerkleState T) : List Call → VerkleState T × Option String
  | [] => (s, none)
  | c :: cs =>
    match s.call E V c with
    | (s', some e) => (s', some e)
    | (s', none) => s'.apply cs

end VerkleState

/-- `persistentVerkleState`: the in-memory state and the source its trie is read from. -/
structure PersistentVerkleState (T : Type) where
  state : VerkleState T
  source : MemorySource

/-- `NewStateWithSource(params, source)`. -/
def newStateWithSource (source : MemorySource) : Except String (PersistentVerkleState T) := do
  let verkle ← V.newVerkleTrie (Bytes.zero 32) (some source)
  return { state := { verkle, codes := fun _ => [] }, source }

/-- `persistentVerkleState.Apply`: the calls, then `Commit(false)`, each committed node written to
the source, and the trie reopened at the new root. `memorySource.set` never fails, so the joined
error of the writes is `nil`. -/
def PersistentVerkleState.apply (p : PersistentVerkleState T) (calls : List Call) :
    PersistentVerkleState T × Option String :=
  match p.state.apply E V calls with
  | (s, some e) => ({ p with state := s }, some e)
  | (s, none) =>
    let (rootHash, nodeSet) := V.commit s.verkle
    let source := nodeSet.entries.foldl (fun src n => src.set n.1 n.2) p.source
    match V.newVerkleTrie rootHash (some source) with
    | .error e => ({ state := s, source }, some e)
    | .ok verkle => ({ state := { s with verkle }, source }, none)

end VerkleTrie.Geth
