import VerkleTrie.Memory.Verifier
import VerkleTrie.Proofs.Snapshot

/-! # Checking a snapshot before restoring it

The verifier that `GetSnapshotVerifier` builds from a snapshot's metadata accepts the part
exactly when `Restore` reads the snapshot with no error, whatever the snapshot and the state
restored into. On a snapshot of a state both compare the commitment of the rebuilt trie with the
state's own, so the verifier rejects the snapshots that lose a key the commitment notices and
accepts the snapshots of states whose keys are all probed. `Export` writes the metadata and the
part so that both can be read back.
-/

namespace VerkleTrie.Memory

/-! ## The verifier of a snapshot's metadata -/

theorem getSnapshotVerifier_getMetaData (snap : VtSnapshot) :
    getSnapshotVerifier snap.getMetaData = .ok ⟨snap.getMetaData.take 32⟩ := by
  rw [getSnapshotVerifier, VtSnapshot.length_getMetaData]
  rfl

theorem take_getMetaData {snap : VtSnapshot} (h : snap.commitment.length = 32) :
    snap.getMetaData.take 32 = snap.commitment := by
  rw [VtSnapshot.getMetaData, List.take_left' (Bytes.length_toList _), Bytes.toList_ofList h]

namespace VtSnapshotVerifier

variable (E : Env)

theorem verifyRootProof_eq (v : VtSnapshotVerifier) (snap : VtSnapshot) :
    v.verifyRootProof snap =
      if snap.commitment = v.expectedCommitment then .ok ⟨snap.commitment⟩
      else .error "root proof verification failed: commitment mismatch" := by
  by_cases h : snap.commitment = v.expectedCommitment
  · rw [if_pos h, verifyRootProof]
    exact if_neg (not_not.2 h)
  · rw [if_neg h, verifyRootProof]
    exact if_pos h

theorem verifyPart_of_deserializeTrie (v : VtSnapshotVerifier) {proof part : List UInt8} {t : Trie}
    (hp : proof = v.expectedCommitment)
    (hd : verifyPartState.deserializeTrie part = some ({ verifyPartState with trie := t }, none)) :
    v.verifyPart E 0 proof part =
      if (t.commit E.rootOf).toList = v.expectedCommitment then some none
      else some (some "data verification failed: commitment mismatch") := by
  rw [verifyPart, if_neg (not_not.2 rfl), if_neg (not_not.2 hp), hd]
  simp only [Option.bind_eq_bind, Option.some_bind, Option.pure_def]
  by_cases hc : (t.commit E.rootOf).toList = v.expectedCommitment
  · rw [if_pos hc, if_neg (not_not.2 hc)]
  · rw [if_neg hc, if_pos hc]

theorem verifyPart_eq_some_none_iff (v : VtSnapshotVerifier) (n : Int) (proof part : List UInt8) :
    (v.verifyPart E n proof part).isSome ∧
      (v.verifyPart E n proof part = some none ↔
        n = 0 ∧ proof = v.expectedCommitment ∧
          ∃ t : Trie, verifyPartState.deserializeTrie part = some ({ verifyPartState with trie := t }, none) ∧
            (t.commit E.rootOf).toList = v.expectedCommitment) := by
  by_cases hn : n = 0
  swap
  · rw [verifyPart, if_pos hn]
    simp [hn]
  subst hn
  by_cases hp : proof = v.expectedCommitment
  swap
  · rw [verifyPart, if_neg (not_not.2 rfl), if_pos hp]
    simp [hp]
  obtain ⟨r, err, hd, -, -, hok⟩ := deserializeTrie_total verifyPartState part
  cases err with
  | some e =>
    rw [verifyPart, if_neg (not_not.2 rfl), if_neg (not_not.2 hp), hd]
    simp [hp, hd]
  | none =>
    have hd' : verifyPartState.deserializeTrie part = some ({ verifyPartState with trie := r.trie }, none) := by
      rw [hd, ← (hok rfl).1]
    rw [verifyPart_of_deserializeTrie E v hp hd']
    by_cases hc : (r.trie.commit E.rootOf).toList = v.expectedCommitment
    · rw [if_pos hc]
      exact ⟨rfl, iff_of_true rfl ⟨rfl, hp, r.trie, hd', hc⟩⟩
    · rw [if_neg hc]
      refine ⟨rfl, iff_of_false (by simp) ?_⟩
      rintro ⟨-, -, t, ht, htc⟩
      have htrie : r.trie = t := congrArg State.trie (Prod.mk.inj (Option.some.inj (hd'.symm.trans ht))).1
      exact hc (htrie ▸ htc)

end VtSnapshotVerifier

/-! ## The verifier and `Restore` -/

namespace State

variable (E : Env)

theorem deserializeTrie_of_ok {s r : State} {d : List UInt8} (h : s.deserializeTrie d = some (r, none))
    (s' : State) : s'.deserializeTrie d = some ({ s' with trie := r.trie }, none) := by
  obtain ⟨s₁, err, h₁, hiff, -, -⟩ := deserializeTrie_total s d
  rw [h, Option.some.injEq, Prod.mk.injEq] at h₁
  obtain ⟨rfl, rfl⟩ := h₁
  have hlen : d.length = 4 + beToNat (d.take 4) * 64 := by
    simp only [Option.isSome_none, Bool.false_eq_true, false_iff, not_or, not_lt, not_not] at hiff
    omega
  rw [deserializeTrie_ok s hlen, Option.some.injEq, Prod.mk.injEq] at h
  rw [deserializeTrie_ok s' hlen, ← h.1]

theorem restore_of_deserializeTrie_error (s s'' : State) (snap : VtSnapshot) {e : String}
    (hd : s.deserializeTrie snap.data = some (s'', some e)) :
    s.restore E snap = some (s'', some s!"failed to deserialize trie: {e}") := by
  rw [restore, if_neg (by simp)]
  simp only [Option.pure_def, Option.bind_eq_bind, Option.some_bind,
    sliceOf_of_le (Nat.zero_le 32) (by simp : 32 ≤ snap.getMetaData.length), VtSnapshot.getPartData_zero, hd]

/-- For every snapshot, the verifier built from its metadata accepts its part exactly when
`Restore` reads the snapshot, into any state, with no error. -/
theorem verifyPart_iff_restore (s : State) (snap : VtSnapshot) :
    ∃ v, getSnapshotVerifier snap.getMetaData = .ok v ∧
      (v.verifyPart E 0 v.expectedCommitment snap.data = some none ↔
        ∃ t : Trie, s.restore E snap = some ({ s with trie := t }, none)) := by
  refine ⟨_, getSnapshotVerifier_getMetaData snap, ?_⟩
  rw [(VtSnapshotVerifier.verifyPart_eq_some_none_iff E _ 0 _ _).2]
  obtain ⟨r, err, hd, -, -, hok⟩ := deserializeTrie_total s snap.data
  cases err with
  | some e =>
    rw [restore_of_deserializeTrie_error E s r snap hd]
    refine iff_of_false ?_ (by simp)
    rintro ⟨-, -, t, ht, -⟩
    rw [deserializeTrie_of_ok ht s, Option.some.injEq, Prod.mk.injEq] at hd
    exact Option.noConfusion hd.2
  | none =>
    rw [restore_of_deserializeTrie E s r snap hd, getHash]
    constructor
    · rintro ⟨-, -, t, ht, htc⟩
      rw [deserializeTrie_of_ok ht s, Option.some.injEq, Prod.mk.injEq] at hd
      obtain ⟨rfl, -⟩ := hd
      refine ⟨t, ?_⟩
      rw [if_pos]
      exact htc
    · rintro ⟨t, ht⟩
      rw [Option.some.injEq, Prod.mk.injEq] at ht
      have hc : (r.trie.commit E.rootOf).toList = snap.getMetaData.take 32 := by
        by_contra hc
        rw [if_neg hc] at ht
        exact Option.noConfusion ht.2
      exact ⟨rfl, rfl, r.trie, deserializeTrie_of_ok hd verifyPartState, hc⟩

/-- The verifier of a snapshot accepts its root proof, and its part exactly when the commitment
of the rebuilt trie is the state's. -/
theorem verify_createSnapshot (s : State) :
    ∃ v, getSnapshotVerifier (s.createSnapshot E).getMetaData = .ok v ∧
      v.verifyRootProof (s.createSnapshot E) = .ok (s.getProof E) ∧
      v.verifyPart E 0 (s.getProof E).commitment (s.createSnapshot E).data =
        if (s.restoredTrie E).commit E.rootOf = s.getHash E then some none
        else some (some "data verification failed: commitment mismatch") := by
  have hmeta : (s.createSnapshot E).getMetaData.take 32 = (s.getHash E).toList :=
    take_getMetaData (Bytes.length_toList _)
  refine ⟨_, getSnapshotVerifier_getMetaData _, ?_, ?_⟩
  · rw [VtSnapshotVerifier.verifyRootProof_eq, hmeta]
    dsimp only
    rw [if_pos (show (s.createSnapshot E).commitment = (s.getHash E).toList from rfl)]
    rfl
  · have hd : verifyPartState.deserializeTrie (s.createSnapshot E).data =
        some ({ verifyPartState with trie := s.restoredTrie E }, none) :=
      deserializeTrie_serializeTrie E s verifyPartState
    rw [VtSnapshotVerifier.verifyPart_of_deserializeTrie E _ (hmeta.symm ▸ rfl) hd]
    by_cases h : (s.restoredTrie E).commit E.rootOf = s.getHash E
    · rw [if_pos h, if_pos ((congrArg Bytes.toList h).trans hmeta.symm)]
    · rw [if_neg h, if_neg fun h' => h (Bytes.ext (h'.trans hmeta))]

end State

/-- Under `Env.sample`, the snapshot after a nonce for `unprobedAddress` fails the part check. -/
theorem verify_rejects_unprobed_sample :
    let s := newState.apply Env.sample 1 unprobedUpdate
    ∃ v, getSnapshotVerifier (s.createSnapshot Env.sample).getMetaData = .ok v ∧
      v.verifyRootProof (s.createSnapshot Env.sample) = .ok (s.getProof Env.sample) ∧
      v.verifyPart Env.sample 0 (s.getProof Env.sample).commitment (s.createSnapshot Env.sample).data =
        some (some "data verification failed: commitment mismatch") := by
  obtain ⟨v, hv, hroot, hpart⟩ := State.verify_createSnapshot Env.sample (newState.apply Env.sample 1 unprobedUpdate)
  exact ⟨v, hv, hroot, hpart.trans (if_neg restoredTrie_unprobed_commit_ne)⟩

/-! ## The format of `Export` -/

theorem State.length_serializeTrie_lt (E : Env) (s : State) : (s.serializeTrie E).length < 2 ^ 32 := by
  have h := State.length_collectEntries_le E s
  rw [length_probes] at h
  rw [State.serializeTrie_eq, List.length_append, length_natToBe, length_encodeEntries]
  omega

/-- Reads one field of what `Export` writes: a big-endian `uint32` length, then that many bytes.
Returns the field and what follows it. -/
def readField (d : List UInt8) : Option (List UInt8 × List UInt8) :=
  let n := beToNat (d.take 4)
  if 4 + n ≤ d.length then some ((d.drop 4).take n, d.drop (4 + n)) else none

/-- Reads all that `Export` writes: the metadata, then the part, then nothing. -/
def readExport (d : List UInt8) : Option (List UInt8 × List UInt8) := do
  let (metadata, rest) ← readField d
  let (part, rest) ← readField rest
  if rest = [] then some (metadata, part) else none

theorem readField_append {l : List UInt8} (h : l.length < 2 ^ 32) (rest : List UInt8) :
    readField (natToBe 4 (l.length % 2 ^ 32) ++ (l ++ rest)) = some (l, rest) := by
  have h' : l.length < 256 ^ 4 := h
  have hn : beToNat (natToBe 4 l.length) = l.length := by
    rw [beToNat_natToBe, Nat.mod_eq_of_lt h']
  rw [Nat.mod_eq_of_lt h, readField]
  simp [hn, List.drop_append_eq_append_drop]

theorem readField_self {l : List UInt8} (h : l.length < 2 ^ 32) :
    readField (natToBe 4 (l.length % 2 ^ 32) ++ l) = some (l, []) := by
  simpa using readField_append h []

theorem readExport_append {m p : List UInt8} (hm : m.length < 2 ^ 32) (hp : p.length < 2 ^ 32) :
    readExport (natToBe 4 (m.length % 2 ^ 32) ++ m ++ natToBe 4 (p.length % 2 ^ 32) ++ p) = some (m, p) := by
  simp only [readExport, List.append_assoc, readField_append hm, readField_self hp, Option.bind_eq_bind,
    Option.some_bind, if_pos]

namespace State

variable (E : Env)

/-- `Export` returns the root hash, and writes the metadata and the part of the state's snapshot
so that `readExport` reads both back. -/
theorem readExport_export (s : State) :
    (s.export E).2 = .ok (s.getHash E) ∧
      readExport (s.export E).1 = some ((s.createSnapshot E).getMetaData, s.serializeTrie E) := by
  have hmeta : (s.createSnapshot E).getMetaData.length < 2 ^ 32 := by
    rw [VtSnapshot.length_getMetaData]
    decide
  refine ⟨rfl, ?_⟩
  rw [«export», VtSnapshot.getPartData_zero]
  dsimp only
  have hd : (s.createSnapshot E).data = s.serializeTrie E := rfl
  rewrite [hd]
  exact readExport_append hmeta (length_serializeTrie_lt E s)

end State

end VerkleTrie.Memory
