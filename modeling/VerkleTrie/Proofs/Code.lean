import VerkleTrie.Proofs.Apply

/-! # Code after `Apply`

`Apply` stores a code as its length in `BasicData`, its hash, and its chunks from chunk 0 on.
`GetCode` reads the length, then chunks 0 to `size / 31`, and merges them. When the keys the
update writes are apart from the account's, `GetCode` returns the last code the update gives the
account, for any chunking that `merge` undoes, whatever the chunks past the end hold.
-/

namespace VerkleTrie.Memory

theorem foldl_getD_of_getLast? {α β : Type} (p : α → Prop) [DecidablePred p] (f : α → Option β)
    (l : List α) (b : β) {x : α} {y : β} (hx : (l.filter fun c => p c).getLast? = some x) (hy : f x = some y) :
    l.foldl (fun v c => if p c then (f c).getD v else v) b = y := by
  have h := foldl_filter_eq (fun c => decide (p c)) (fun v c => (f c).getD v) l b
  simp only [decide_eq_true_eq] at h
  obtain ⟨ys, hys⟩ := List.getLast?_eq_some_iff.1 hx
  rw [← h, hys, List.foldl_append, List.foldl_cons, List.foldl_nil, hy, Option.getD_some]

namespace State

variable (E : Env)

theorem get_storeChunks_self (address : Address) (t : Trie) (i : Nat) (chunks : List Value) (j : Nat)
    (hj : j < chunks.length)
    (hinj : ∀ m < chunks.length,
      E.getCodeChunkKey address (i + m) = E.getCodeChunkKey address (i + j) → m = j) :
    (storeChunks E address t i chunks).get (E.getCodeChunkKey address (i + j)) = chunks[j] := by
  induction chunks generalizing t i j with
  | nil => exact absurd hj (Nat.not_lt_zero j)
  | cons c cs ih =>
    rw [storeChunks]
    cases j with
    | zero =>
      rw [get_storeChunks E _ _ _ _ _ fun m hm h => ?_, Nat.add_zero, Trie.get_set_self]
      · rfl
      · have := hinj (m + 1) (by simpa using hm) (by rw [show i + (m + 1) = i + 1 + m by omega, h])
        omega
    | succ j =>
      have h := ih (t.set (E.getCodeChunkKey address i) c) (i + 1) j (by simpa using hj)
        fun m hm hk => by
          have := hinj (m + 1) (by simpa using hm)
            (by rw [show i + (m + 1) = i + 1 + m by omega, hk, show i + 1 + j = i + (j + 1) by omega])
          omega
      rw [show i + (j + 1) = i + 1 + j by omega, h]
      rfl

theorem get_applyCode_codeChunk (s : State) (c : CodeUpdate) (a : Address) (j : Nat)
    (hk : ∀ m < (E.splitCode c.code).length,
      E.getCodeChunkKey c.account m = E.getCodeChunkKey a j → c.account = a ∧ m = j)
    (hh : E.getCodeHashKey c.account ≠ E.getCodeChunkKey a j)
    (hb : E.getBasicDataKey c.account ≠ E.getCodeChunkKey a j) :
    (s.applyCode E c).trie.get (E.getCodeChunkKey a j) =
      if c.account = a then ((E.splitCode c.code)[j]?).getD (s.trie.get (E.getCodeChunkKey a j))
      else s.trie.get (E.getCodeChunkKey a j) := by
  by_cases hj : c.account = a ∧ j < (E.splitCode c.code).length
  · obtain ⟨rfl, hj⟩ := hj
    have h := get_storeChunks_self E c.account
      ((s.setBasicData E c.account 4 8 (natToBe 4 (c.code.length % 2 ^ 32))).trie.set
        (E.getCodeHashKey c.account) (E.keccak256 c.code)) 0 (E.splitCode c.code) j hj
      fun m hm h => ((hk m hm (by simpa using h)).2)
    rw [Nat.zero_add] at h
    rw [applyCode, if_pos rfl, List.getElem?_eq_getElem hj, Option.getD_some]
    exact h
  · have hne : ∀ m < (E.splitCode c.code).length, E.getCodeChunkKey c.account m ≠ E.getCodeChunkKey a j :=
      fun m hm h => hj (by obtain ⟨h1, rfl⟩ := hk m hm h; exact ⟨h1, hm⟩)
    rw [get_applyCode E s c _ hne, if_neg hh, if_neg hb]
    split_ifs with ha
    · rw [List.getElem?_eq_none (not_lt.1 fun h => hj ⟨ha, h⟩), Option.getD_none]
    · rfl

section Separated

variable {E : Env} {u : Update} {qs : List Location} (hsep : E.Separates (u.locations E) qs)
include hsep

theorem getCodeChunk_applyUpdate (s : State) (a : Address) {c : List UInt8} (hc : u.lastCode a = some c)
    {j : Nat} (hj : j < (E.splitCode c).length) (hq : .codeChunk a j ∈ qs) :
    (s.applyUpdate E u).trie.get (E.getCodeChunkKey a j) = (E.splitCode c)[j] := by
  have hK := (Update.mem_locations E u).2.2.2.2
  have key {w} (hw : w ∈ u.locations E) : E.key w = E.getCodeChunkKey a j ↔ w = .codeChunk a j :=
    hsep.key_eq_iff hw hq
  have hstep : ∀ t : State, ∀ x ∈ u.codes, (t.applyCode E x).trie.get (E.getCodeChunkKey a j) =
      if x.account = a then ((E.splitCode x.code)[j]?).getD (t.trie.get (E.getCodeChunkKey a j))
      else t.trie.get (E.getCodeChunkKey a j) := fun t x hx =>
    get_applyCode_codeChunk E t x a j
      (fun m hm h => by simpa using (key ((hK x hx).2.2 m hm)).1 h)
      (fun h => by simpa using (key (hK x hx).2.1).1 h)
      (fun h => by simpa using (key (hK x hx).1).1 h)
  obtain ⟨x, hx, rfl⟩ := Option.map_eq_some'.1 hc
  simp only [applyUpdate]
  rw [get_foldl _ (fun x v => if x.account = a then ((E.splitCode x.code)[j]?).getD v else v) _ _ hstep]
  exact foldl_getD_of_getLast? (fun x : CodeUpdate => x.account = a) (fun x => (E.splitCode x.code)[j]?) _ _ hx
    (List.getElem?_eq_getElem hj)

theorem getCode_applyUpdate (s : State) (a : Address) {c : List UInt8} (hc : u.lastCode a = some c)
    (ha : .basicData a ∈ qs) (hq : ∀ j < (E.splitCode c).length, .codeChunk a j ∈ qs)
    (hlen : c.length < 2 ^ 32) (hsplit : (E.splitCode c).length ≤ c.length / 31 + 1)
    (hmerge : ∀ extra, E.merge (E.splitCode c ++ extra) c.length = c) :
    (s.applyUpdate E u).getCode E a = c := by
  have hsize : (s.applyUpdate E u).getCodeSize E a = c.length := by
    rw [getCodeSize_applyUpdate hsep s a ha, hc, Option.map_some', Option.getD_some, Nat.mod_eq_of_lt hlen]
  have htake : ((List.range (c.length / 31 + 1)).map fun i =>
      (s.applyUpdate E u).trie.get (E.getCodeChunkKey a i)).take (E.splitCode c).length = E.splitCode c := by
    apply List.ext_getElem (by simp [hsplit])
    intro i h1 h2
    simp only [List.getElem_take, List.getElem_map, List.getElem_range]
    exact getCodeChunk_applyUpdate hsep s a hc h2 (hq i h2)
  show E.merge ((List.range ((s.applyUpdate E u).getCodeSize E a / 31 + 1)).map fun i =>
    (s.applyUpdate E u).trie.get (E.getCodeChunkKey a i)) ((s.applyUpdate E u).getCodeSize E a) = c
  rw [hsize, ← List.take_append_drop (E.splitCode c).length ((List.range (c.length / 31 + 1)).map fun i =>
    (s.applyUpdate E u).trie.get (E.getCodeChunkKey a i)), htake]
  exact hmerge _

end Separated

/-- `GetCode` after `Apply` returns the last code the update gives `a`, when the keys are apart and
the code's size and chunks fit. -/
theorem getCode_apply (s : State) (b : Nat) (u : Update) (a : Address) {c : List UInt8}
    (hc : u.lastCode a = some c)
    (hsep : E.Separates (u.locations E) (.basicData a :: (List.range (E.splitCode c).length).map (.codeChunk a)))
    (hlen : c.length < 2 ^ 32) (hsplit : (E.splitCode c).length ≤ c.length / 31 + 1)
    (hmerge : ∀ extra, E.merge (E.splitCode c ++ extra) c.length = c) :
    (s.apply E b u).getCode E a = c :=
  getCode_applyUpdate hsep s a hc (List.mem_cons_self _ _)
    (fun _ hj => List.mem_cons_of_mem _ (List.mem_map_of_mem _ (List.mem_range.2 hj))) hlen hsplit hmerge

end State

theorem sample_merge_splitCode (extra : List Value) :
    Env.sample.merge (Env.sample.splitCode [0x60, 0x00] ++ extra) 2 = [0x60, 0x00] := by
  show ((Env.sample.splitCode [0x60, 0x00] ++ extra).flatMap fun c => c.toList.drop 1).take 2 = _
  rw [List.flatMap_append, List.take_append_of_le_length (by decide)]
  decide

theorem getCode_apply_sample :
    (sampleUpdate.lastCode (sampleAddress 1) = some [0x60, 0x00] ∧
      Env.sample.Separates (sampleUpdate.locations Env.sample)
        (.basicData (sampleAddress 1) ::
          (List.range (Env.sample.splitCode [0x60, 0x00]).length).map (.codeChunk (sampleAddress 1))) ∧
      [0x60, 0x00].length < 2 ^ 32 ∧ (Env.sample.splitCode [0x60, 0x00]).length ≤ [0x60, 0x00].length / 31 + 1) ∧
      (newState.apply Env.sample 1 sampleUpdate).getCode Env.sample (sampleAddress 1) = [0x60, 0x00] :=
  have hc : sampleUpdate.lastCode (sampleAddress 1) = some [0x60, 0x00] := rfl
  have hsep : Env.sample.Separates (sampleUpdate.locations Env.sample)
      (.basicData (sampleAddress 1) ::
        (List.range (Env.sample.splitCode [0x60, 0x00]).length).map (.codeChunk (sampleAddress 1))) := by
    decide
  ⟨⟨hc, hsep, by decide, by decide⟩,
    State.getCode_apply Env.sample newState 1 sampleUpdate (sampleAddress 1) hc hsep (by decide) (by decide)
      sample_merge_splitCode⟩

end VerkleTrie.Memory
