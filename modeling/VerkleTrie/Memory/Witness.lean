import VerkleTrie.Memory.State

/-! # Witness proofs

`CreateWitnessProof` copies an account's fields and some of its storage out of the state,
together with the root hash. The queries of `vtWitnessProof` answer from that copy, and its
elements write it out as byte strings.
-/

namespace VerkleTrie.Memory

/-- `tribool.Tribool`. -/
inductive Tribool
  | true
  | false
  | unknown
deriving DecidableEq

/-- `vtWitnessProof`; `storage` is the Go map from storage keys to values. -/
structure VtWitnessProof where
  rootHash : Hash
  address : Address
  balance : Amount
  nonce : Nonce
  codeHash : Hash
  storage : AList (fun _ : Key => Value)
  «exists» : Bool

/-- `accountInfo`. -/
structure AccountInfo where
  balance : Amount
  nonce : Nonce
  codeHash : Hash

namespace State

variable (E : Env)

/-- `getAccountInfo`: the fields, and whether the nonce or the balance is not zero. -/
def getAccountInfo (s : State) (address : Address) : AccountInfo × Bool :=
  let value := s.basicData E address
  (⟨s.getBalance E address, s.getNonce E address, s.getCodeHash E address⟩,
    value.slice 8 32 != List.replicate 24 0)

/-- The storage values `CreateWitnessProof` collects for `keys`. -/
def collectStorage (s : State) (address : Address) (keys : List Key) : AList (fun _ : Key => Value) :=
  keys.foldl (fun storage key => storage.insert key (s.getStorage E address key)) ∅

/-- `CreateWitnessProof`. The account fields stay zero unless the account exists. Its error
returns are never taken: the getters it calls return no error. -/
def createWitnessProof (s : State) (address : Address) (keys : List Key) : VtWitnessProof :=
  let (info, ex) := s.getAccountInfo E address
  { rootHash := s.getHash E
    address
    balance := if ex then info.balance else Amount.new
    nonce := if ex then info.nonce else Bytes.zero 8
    codeHash := if ex then info.codeHash else Bytes.zero 32
    storage := s.collectStorage E address keys
    «exists» := ex }

end State

namespace VtWitnessProof

/-- The storage `Extract` keeps: the requested keys the proof covers. -/
def filterStorage (p : VtWitnessProof) (keys : List Key) : AList (fun _ : Key => Value) :=
  keys.foldl (fun filtered key =>
    match p.storage.lookup key with
    | some value => filtered.insert key value
    | none => filtered) ∅

/-- `Extract`: the sub-proof for `keys`, and whether the proof covers all of them. -/
def extract (p : VtWitnessProof) (root : Hash) (address : Address) (keys : List Key) :
    Option VtWitnessProof × Bool :=
  if root ≠ p.rootHash then (none, false)
  else if address ≠ p.address then (none, false)
  else (some { p with storage := p.filterStorage keys }, keys.all fun key => key ∈ p.storage)

/-- The check `GetBalance`, `GetNonce` and `GetCodeHash` share: the field, if the proof is for
this root and address and the account exists. -/
def accountField {α : Type} (p : VtWitnessProof) (root : Hash) (address : Address)
    (field zero : α) : α × Bool :=
  if root ≠ p.rootHash ∨ address ≠ p.address then (zero, false)
  else if !p.exists then (zero, false)
  else (field, true)

/-- `GetBalance`. -/
def getBalance (p : VtWitnessProof) (root : Hash) (address : Address) : Amount × Bool :=
  p.accountField root address p.balance Amount.new

/-- `GetNonce`. -/
def getNonce (p : VtWitnessProof) (root : Hash) (address : Address) : Nonce × Bool :=
  p.accountField root address p.nonce (Bytes.zero 8)

/-- `GetCodeHash`. -/
def getCodeHash (p : VtWitnessProof) (root : Hash) (address : Address) : Hash × Bool :=
  p.accountField root address p.codeHash (Bytes.zero 32)

/-- `GetState`. -/
def getState (p : VtWitnessProof) (root : Hash) (address : Address) (key : Key) : Value × Bool :=
  if root ≠ p.rootHash ∨ address ≠ p.address then (Bytes.zero 32, false)
  else
    match p.storage.lookup key with
    | some value => (value, true)
    | none => (Bytes.zero 32, false)

/-- `AllStatesZero`: `False` on a non-zero covered slot in `[from, to]`, and `True` otherwise,
although slots the proof does not cover are not checked. -/
def allStatesZero (p : VtWitnessProof) (root : Hash) (address : Address) (lo hi : Key) : Tribool :=
  if root ≠ p.rootHash ∨ address ≠ p.address then .unknown
  else if p.storage.entries.any fun e => inRange e.1.toList lo.toList hi.toList && e.2 != Bytes.zero 32
    then .false
  else .true

/-- `AllAddressesEmpty`: `False` if the proof's own account is in `[from, to]` and not empty,
and `Unknown` otherwise. -/
def allAddressesEmpty (p : VtWitnessProof) (root : Hash) (lo hi : Address) : Tribool :=
  if root ≠ p.rootHash then .unknown
  else if inRange p.address.toList lo.toList hi.toList &&
      (p.exists && (p.balance != Amount.new || p.nonce != Bytes.zero 8 || p.codeHash != Bytes.zero 32))
    then .false
  else .unknown

/-- `IsValid`: the root hash is not zero. -/
def isValid (p : VtWitnessProof) : Bool := p.rootHash != Bytes.zero 32

/-- The copies `GetElements` and `GetAccountElements` share: the balance, the nonce and the code
hash into bytes 0 to 72 of a zeroed buffer. -/
def accountFields {n : Nat} (p : VtWitnessProof) : Bytes n :=
  (((Bytes.zero n).copy 0 32 p.balance.bytes32.toList).copy 32 40 p.nonce.toList).copy 40 72 p.codeHash.toList

/-- The element of one slot, which `GetElements` and `GetStorageElements` share: the key, then
the value. -/
def storageElement (key : Key) (value : Value) : List UInt8 :=
  (((Bytes.zero 64).copy 0 32 key.toList).copy 32 64 value.toList).toList

/-- `GetElements`: the account's fields and address in 104 bytes, then one element for each slot
the proof covers, in the order the map is walked. -/
def getElements (p : VtWitnessProof) : List (List UInt8) :=
  ((p.accountFields : Bytes 104).copy 72 104 p.address.toList).toList ::
    p.storage.entries.map fun e => storageElement e.1 e.2

/-- `GetAccountElements`: the account's fields in 72 bytes, and the root hash as storage root. -/
def getAccountElements (p : VtWitnessProof) (root : Hash) (address : Address) :
    List (List UInt8) × Hash × Bool :=
  if root ≠ p.rootHash ∨ address ≠ p.address then ([], Bytes.zero 32, false)
  else ([(p.accountFields : Bytes 72).toList], p.rootHash, true)

/-- `GetStorageElements`. -/
def getStorageElements (p : VtWitnessProof) (root : Hash) (address : Address) (key : Key) :
    List (List UInt8) × Bool :=
  if root ≠ p.rootHash ∨ address ≠ p.address then ([], false)
  else
    match p.storage.lookup key with
    | none => ([], false)
    | some value => ([storageElement key value], true)

end VtWitnessProof

end VerkleTrie.Memory
