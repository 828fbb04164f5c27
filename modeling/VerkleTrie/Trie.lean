import VerkleTrie.Bytes
import Mathlib.Data.Finset.Image

/-! # The trie of `vt/memory/trie`

`State` keeps all its data in a `trie.Trie`. Only the trie's tests are among this repository's
files (`TestTrie_*`, `src/unnamed/part_001`), so the trie is modelled from them and the spec: a new
trie reads zero everywhere, `Get` returns the value last `Set` under a key (§4.3, P1 to P3, and
`TestTrie_InitialTrieIsEmpty`, `_ValuesCanBeSetAndRetrieved`, `_ValuesCanBeUpdated`), and the root
commitment depends on the stored non-zero pairs only (§3 "Value", I4, P5, P6).
-/

namespace VerkleTrie

/-- `trie.Key`, and `common.Key` of the state. -/
abbrev Key := Bytes 32

/-- `trie.Value`, and `common.Value` and `common.Hash` of the state. -/
abbrev Value := Bytes 32

/-- The values a trie holds, newest write first. -/
def lookup : List (Key × Value) → Key → Value
  | [], _ => Bytes.zero 32
  | (k', v) :: w, k => if k' = k then v else lookup w k

/-- Modelled from the spec: `trie.Trie`, as the writes made to it, newest first. Its node
structure is not observable through `Get` and `Commit`. -/
structure Trie where
  writes : List (Key × Value)
deriving DecidableEq

namespace Trie

/-- Modelled from the spec: `&trie.Trie{}`. -/
def empty : Trie := ⟨[]⟩

/-- Modelled from the spec: `Get(key)`, the value last set under `key`, or zero. -/
def get (t : Trie) (k : Key) : Value := lookup t.writes k

/-- Modelled from the spec: `Set(key, value)` overwrites. -/
def set (t : Trie) (k : Key) (v : Value) : Trie := ⟨(k, v) :: t.writes⟩

/-- `Set` of each pair in turn. -/
def setAll (t : Trie) (rs : List (Key × Value)) : Trie := rs.foldl (fun t r => t.set r.1 r.2) t

/-- The non-zero key/value pairs the trie stores. -/
def content (t : Trie) : Finset (Key × Value) :=
  ((t.writes.map Prod.fst).toFinset.filter fun k => t.get k ≠ Bytes.zero 32).image
    fun k => (k, t.get k)

/-- Modelled from the spec: `Commit().Compress()`, the compressed root commitment, as the
commitment scheme `rootOf` applied to the stored non-zero pairs. -/
def commit (rootOf : Finset (Key × Value) → Value) (t : Trie) : Value := rootOf t.content

@[simp] theorem get_empty (k : Key) : empty.get k = Bytes.zero 32 := rfl

@[simp] theorem get_set (t : Trie) (k k' : Key) (v : Value) :
    (t.set k v).get k' = if k = k' then v else t.get k' := rfl

theorem get_set_self (t : Trie) (k : Key) (v : Value) : (t.set k v).get k = v := by simp

theorem get_set_of_ne (t : Trie) {k k' : Key} (v : Value) (h : k ≠ k') :
    (t.set k v).get k' = t.get k' := by simp [h]

@[simp] theorem setAll_nil (t : Trie) : t.setAll [] = t := rfl

@[simp] theorem setAll_cons (t : Trie) (r : Key × Value) (rs : List (Key × Value)) :
    t.setAll (r :: rs) = (t.set r.1 r.2).setAll rs := rfl

theorem get_setAll (t : Trie) (rs : List (Key × Value)) (k : Key) :
    (t.setAll rs).get k = (((rs.filter (·.1 = k)).getLast?).map (·.2)).getD (t.get k) := by
  induction rs using List.reverseRecOn with
  | nil => rfl
  | append_singleton rs r ih =>
    have hlast : t.setAll (rs ++ [r]) = (t.setAll rs).set r.1 r.2 := by simp [setAll]
    simp only [hlast, get_set, List.filter_append, List.filter_cons, List.filter_nil]
    by_cases h : r.1 = k
    · simp [h]
    · simp only [h, decide_False, Bool.false_eq_true, if_false, List.append_nil, ih]

theorem get_of_not_mem {t : Trie} {k : Key} (h : k ∉ t.writes.map Prod.fst) :
    t.get k = Bytes.zero 32 := by
  obtain ⟨w⟩ := t
  induction w with
  | nil => rfl
  | cons e w ih =>
    simp only [List.map_cons, List.mem_cons, not_or] at h
    simp only [get, lookup, if_neg (Ne.symm h.1)]
    exact ih h.2

theorem mem_content {t : Trie} {k : Key} {v : Value} :
    (k, v) ∈ t.content ↔ t.get k ≠ Bytes.zero 32 ∧ v = t.get k := by
  simp only [content, Finset.mem_image, Finset.mem_filter, List.mem_toFinset, Prod.mk.injEq]
  constructor
  · rintro ⟨k, ⟨-, hk⟩, rfl, rfl⟩
    exact ⟨hk, rfl⟩
  · rintro ⟨hk, rfl⟩
    exact ⟨k, ⟨by_contra fun h => hk (get_of_not_mem h), hk⟩, rfl, rfl⟩

theorem content_eq_iff {t t' : Trie} : t.content = t'.content ↔ ∀ k, t.get k = t'.get k := by
  constructor
  · intro h k
    by_contra hne
    by_cases hk : t.get k = Bytes.zero 32
    · have : (k, t'.get k) ∈ t'.content := mem_content.mpr ⟨by rw [← hk]; exact Ne.symm hne, rfl⟩
      rw [← h, mem_content] at this
      exact this.1 hk
    · have : (k, t.get k) ∈ t.content := mem_content.mpr ⟨hk, rfl⟩
      rw [h, mem_content] at this
      exact hne this.2
  · intro h
    ext ⟨k, v⟩
    simp only [mem_content, h]

theorem commit_eq_of_get {rootOf : Finset (Key × Value) → Value} {t t' : Trie}
    (h : ∀ k, t.get k = t'.get k) : t.commit rootOf = t'.commit rootOf := by
  rw [commit, commit, content_eq_iff.mpr h]

end Trie

end VerkleTrie
