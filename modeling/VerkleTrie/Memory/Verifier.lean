import VerkleTrie.Memory.Snapshot

/-! # The snapshot verifier and `Export`

A peer that receives a snapshot builds a verifier from its metadata, checks the root proof
against the commitment there, and checks the part by reading it into a temporary trie and
comparing that trie's commitment. `Export` writes the metadata and the part, each after its
length as a big-endian `uint32`.
-/

namespace VerkleTrie.Memory

/-- `vtProof`: a compressed commitment. -/
structure VtProof where
  commitment : List UInt8
deriving DecidableEq

/-- `vtSnapshotVerifier`. -/
structure VtSnapshotVerifier where
  expectedCommitment : List UInt8
deriving DecidableEq

/-- `GetSnapshotVerifier`, whose receiver it does not read: the first 32 bytes of the
metadata. -/
def getSnapshotVerifier (metadata : List UInt8) : Except String VtSnapshotVerifier :=
  let got := metadata.length
  if got < 32 then .error s!"invalid metadata length: expected at least 32, got {got}"
  else .ok ⟨metadata.take 32⟩

/-- The state `VerifyPart` reads a part into: an empty trie. Go leaves the archive and
`writtenSlots` nil; `deserializeTrie` reads neither. -/
def verifyPartState : State := ⟨Trie.empty, newVtArchive 0, fun _ => ∅, 0⟩

namespace VtSnapshotVerifier

/-- `VerifyRootProof`: the snapshot's proof data must be the expected commitment. -/
def verifyRootProof (v : VtSnapshotVerifier) (data : VtSnapshot) : Except String VtProof :=
  match data.getProofData 0 with
  | .error e => .error s!"failed to get proof data: {e}"
  | .ok proofBytes =>
    if proofBytes ≠ v.expectedCommitment then .error "root proof verification failed: commitment mismatch"
    else .ok ⟨proofBytes⟩

/-- `VerifyPart`: the error it returns, or `none` for a panic. -/
def verifyPart (E : Env) (v : VtSnapshotVerifier) (partNumber : Int) (proof part : List UInt8) :
    Option (Option String) :=
  if partNumber ≠ 0 then some (some s!"invalid part number {partNumber}, VT has only 1 part")
  else if proof ≠ v.expectedCommitment then some (some "proof verification failed: commitment mismatch")
  else do
    let (tempState, err) ← verifyPartState.deserializeTrie part
    match err with
    | some e => return some s!"failed to deserialize data: {e}"
    | none =>
      if (tempState.trie.commit E.rootOf).toList ≠ v.expectedCommitment then
        return some "data verification failed: commitment mismatch"
      return none

end VtSnapshotVerifier

namespace State

variable (E : Env)

/-- `GetProof`: the compressed commitment of the trie. -/
def getProof (s : State) : VtProof := ⟨(s.getHash E).toList⟩

/-- `Export` to `out`, when every write succeeds: the bytes written, and the hash or error
returned. -/
def «export» (s : State) : List UInt8 × Except String Hash :=
  let rootHash := s.getHash E
  let snapshotData := s.createSnapshot E
  let metadata := snapshotData.getMetaData
  let written := natToBe 4 (metadata.length % 2 ^ 32) ++ metadata
  match snapshotData.getPartData 0 with
  | .error e => (written, .error s!"failed to get part data: {e}")
  | .ok partData => (written ++ natToBe 4 (partData.length % 2 ^ 32) ++ partData, .ok rootHash)

end State

end VerkleTrie.Memory
