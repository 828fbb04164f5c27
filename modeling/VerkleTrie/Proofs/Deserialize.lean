import VerkleTrie.Memory.Snapshot

/-! # `deserializeTrie` on every byte string

A part is accepted exactly when its length is `4 + 64 n` for the header `n`; then no slice of
the record loop leaves the part, and the new trie holds the last record of each key. A rejected
part leaves the state as it was.
-/

namespace VerkleTrie.Memory

/-- The record at `offset`: 32 bytes of key, then 32 bytes of value. -/
def recordAt (d : List UInt8) (offset : Nat) : Key × Value :=
  (Bytes.ofList ((d.drop offset).take 32), Bytes.ofList ((d.drop (offset + 32)).take 32))

/-- The `n` records of a part as the spec lays them out: record `i` at `4 + 64 i`. -/
def partRecords (d : List UInt8) (n : Nat) : List (Key × Value) :=
  (List.range n).map fun i => recordAt d (4 + 64 * i)

theorem sliceOf_of_le {d : List UInt8} {lo hi : Nat} (h1 : lo ≤ hi) (h2 : hi ≤ d.length) :
    sliceOf d lo hi = some ((d.drop lo).take (hi - lo)) := if_pos ⟨h1, h2⟩

theorem restoreEntries_eq (d : List UInt8) (count offset : Nat) (t : Trie)
    (h : offset + 64 * count ≤ d.length) :
    restoreEntries d count offset t =
      some (t.setAll ((List.range count).map fun i => recordAt d (offset + 64 * i))) := by
  induction count generalizing offset t with
  | zero => rfl
  | succ count ih =>
    have hrec : (List.range (count + 1)).map (fun i => recordAt d (offset + 64 * i)) =
        recordAt d offset :: (List.range count).map fun i => recordAt d (offset + 64 + 64 * i) := by
      simp only [List.range_succ_eq_map, List.map_cons, List.map_map, Nat.mul_zero, Nat.add_zero]
      congr 2
      funext i
      simp only [Function.comp, Nat.mul_succ]
      congr 1
      omega
    rw [restoreEntries, sliceOf_of_le (by omega) (by omega), Option.bind_eq_bind, Option.some_bind,
      sliceOf_of_le (by omega) (by omega), Option.some_bind, ih _ _ (by omega), hrec]
    simp [recordAt, Nat.add_sub_cancel_left]

theorem deserializeTrie_short (s : State) {d : List UInt8} (h : d.length < 4) :
    s.deserializeTrie d = some (s, some "invalid data: too short") := if_pos h

theorem deserializeTrie_bad_length (s : State) {d : List UInt8} (h4 : 4 ≤ d.length)
    (h : d.length ≠ 4 + beToNat (d.take 4) * 64) :
    s.deserializeTrie d =
      some (s, some (invalidLengthError (4 + beToNat (d.take 4) * 64) d.length)) := by
  rw [State.deserializeTrie, if_neg (by omega), sliceOf_of_le (by omega) h4]
  simp only [List.drop_zero, Nat.sub_zero, Option.bind_eq_bind, Option.some_bind, if_pos h]
  rfl

theorem deserializeTrie_ok (s : State) {d : List UInt8} (h : d.length = 4 + beToNat (d.take 4) * 64) :
    s.deserializeTrie d =
      some ({ s with trie := Trie.empty.setAll (partRecords d (beToNat (d.take 4))) }, none) := by
  rw [State.deserializeTrie, if_neg (by omega), sliceOf_of_le (by omega) (by omega)]
  simp only [List.drop_zero, Nat.sub_zero, Option.bind_eq_bind, Option.some_bind, h, ne_eq,
    not_true_eq_false, if_false, Option.pure_def,
    restoreEntries_eq d (beToNat (d.take 4)) 4 Trie.empty (by omega), partRecords]

/-- `deserializeTrie` on any byte string: an error exactly on a bad length, with the state kept,
else the trie of the last record for each key. -/
theorem deserializeTrie_total (s : State) (d : List UInt8) :
    ∃ s' err, s.deserializeTrie d = some (s', err) ∧
      (err.isSome ↔ d.length < 4 ∨ d.length ≠ 4 + 64 * beToNat (d.take 4)) ∧
      (err.isSome → s' = s) ∧
      (err = none → s' = { s with trie := s'.trie } ∧
        ∀ k, s'.trie.get k = (((partRecords d (beToNat (d.take 4))).filter (·.1 = k)).getLast?.map
          (·.2)).getD (Bytes.zero 32)) := by
  by_cases h4 : d.length < 4
  · exact ⟨s, _, deserializeTrie_short s h4, by simp [h4], fun _ => rfl, by simp⟩
  by_cases hlen : d.length = 4 + beToNat (d.take 4) * 64
  · refine ⟨_, none, deserializeTrie_ok s hlen, by simp [h4]; omega, by simp, fun _ => ⟨rfl, ?_⟩⟩
    intro k
    rw [Trie.get_setAll]
    rfl
  · exact ⟨s, _, deserializeTrie_bad_length s (by omega) hlen, by simp; omega, fun _ => rfl, by simp⟩

end VerkleTrie.Memory
