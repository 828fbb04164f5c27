import VerkleTrie.Memory.State

/-! # Snapshots of the state

`serializeTrie` writes `[n:u32-be]` and then `n` records `[key:32][value:32]`. It does not walk
the trie: it probes the accounts `[x, 0, ..., 0]`, their storage keys `[0, ..., 0, y]` and their
first 1024 code chunks. `deserializeTrie` reads such a part back into a fresh trie, and
`Restore` checks the commitment of what it read against the snapshot's metadata.
-/

namespace VerkleTrie.Memory

/-- The account `addr[0] = byte(addrByte)` of the outer loop of `serializeTrie`. -/
def sampleAddress (addrByte : Nat) : Address := Bytes.ofList [UInt8.ofNat addrByte]

/-- The storage key `key[31] = byte(slotByte)` of the slot loop of `serializeTrie`. -/
def sampleKey (slotByte : Nat) : Key := Bytes.ofList (List.replicate 31 0 ++ [UInt8.ofNat slotByte])

/-- The locations `serializeTrie` probes, in its loop order. -/
def probes : List Location :=
  (List.range 256).flatMap fun addrByte =>
    let addr := sampleAddress addrByte
    .basicData addr :: .codeHash addr ::
      ((List.range 256).map fun slotByte => .storage addr (sampleKey slotByte)) ++
      (List.range 1024).map (.codeChunk addr)

/-- One record `[key:32][value:32]`. -/
def record (k : Key) (v : Value) : List UInt8 := k.toList ++ v.toList

/-- The records of a list of entries, one after the other. -/
def encodeEntries (es : List (Σ _ : Key, Value)) : List UInt8 := es.flatMap fun e => record e.1 e.2

/-- Go's `data[lo:hi]`; `none` is the run-time panic of a slice out of range. -/
def sliceOf (data : List UInt8) (lo hi : Nat) : Option (List UInt8) :=
  if lo ≤ hi ∧ hi ≤ data.length then some ((data.drop lo).take (hi - lo)) else none

/-- The record loop of `deserializeTrie`: `count` records left, the next one at `offset`. -/
def restoreEntries (data : List UInt8) : Nat → Nat → Trie → Option Trie
  | 0, _, t => some t
  | count + 1, offset, t => do
    let key ← sliceOf data offset (offset + 32)
    let value ← sliceOf data (offset + 32) (offset + 64)
    restoreEntries data count (offset + 64) (t.set (Bytes.ofList key) (Bytes.ofList value))

/-- The error of `deserializeTrie` for a part whose length does not match its header. -/
def invalidLengthError (expectedLen got : Nat) : String :=
  s!"invalid data length: expected {expectedLen}, got {got}"

namespace State

variable (E : Env)

/-- The map `entries` of `serializeTrie`: every probed key whose value is not zero. -/
def collectEntries (s : State) : AList (fun _ : Key => Value) :=
  (probes.map E.key).foldl
    (fun entries k => if s.trie.get k ≠ Bytes.zero 32 then entries.insert k (s.trie.get k) else entries)
    ∅

/-- `serializeTrie`: the number of entries, then their records. Go visits `entries` in an
unspecified order; the model takes the map's own order, and `deserializeTrie` rebuilds the same
trie from any order. -/
def serializeTrie (s : State) : List UInt8 :=
  let entries := (s.collectEntries E).entries
  natToBe 4 (entries.length % 2 ^ 32) ++ encodeEntries entries

/-- `CreateSnapshot`. -/
def createSnapshot (s : State) : VtSnapshot := ⟨(s.getHash E).toList, s.serializeTrie E⟩

/-- `deserializeTrie`: the receiver afterwards and the error returned, or `none` for a panic.
The trie is replaced only once the length checks have passed. Go's `int` is taken as 64 bits, so
`4 + int(numEntries)*64`, at most `4 + (2^32 - 1) * 64`, does not overflow and is a `Nat` here. -/
def deserializeTrie (s : State) (data : List UInt8) : Option (State × Option String) :=
  if data.length < 4 then some (s, some "invalid data: too short")
  else do
    let header ← sliceOf data 0 4
    let numEntries := beToNat header
    let expectedLen := 4 + numEntries * 64
    if data.length ≠ expectedLen then
      return (s, some (invalidLengthError expectedLen data.length))
    let trie ← restoreEntries data numEntries 4 Trie.empty
    return ({ s with trie }, none)

/-- `Restore`: the receiver afterwards and the error returned, or `none` for a panic. A
commitment mismatch is reported after the trie has been replaced. -/
def restore (s : State) (snapshotData : VtSnapshot) : Option (State × Option String) := do
  let metadata := snapshotData.getMetaData
  let got := metadata.length
  if got < 32 then
    return (s, some s!"invalid metadata length: expected at least 32, got {got}")
  let expectedCommitment ← sliceOf metadata 0 32
  match snapshotData.getPartData 0 with
  | .error e => return (s, some s!"failed to get part data: {e}")
  | .ok data =>
    let (s, err) ← s.deserializeTrie data
    match err with
    | some e => return (s, some s!"failed to deserialize trie: {e}")
    | none =>
      if (s.getHash E).toList ≠ expectedCommitment then
        return (s, some "commitment mismatch after restore")
      return (s, none)

end State

end VerkleTrie.Memory
