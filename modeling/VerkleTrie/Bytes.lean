import Mathlib.Data.List.Basic
import Mathlib.Tactic.Ring

/-! # Go byte arrays and `encoding/binary`

Keys, values, addresses and nonces of `vt/memory` are Go byte arrays. The state copies bytes
between them through slices, and reads and writes integers with `binary.BigEndian`.
-/

namespace VerkleTrie

/-- A Go byte array `[n]byte`. -/
structure Bytes (n : Nat) where
  toList : List UInt8
  length_toList : toList.length = n
deriving DecidableEq

namespace Bytes

variable {n : Nat}

attribute [simp] length_toList

theorem ext {v w : Bytes n} (h : v.toList = w.toList) : v = w := by
  cases v; cases w; cases h; rfl

theorem ext_iff {v w : Bytes n} : v = w ↔ v.toList = w.toList := ⟨congrArg _, ext⟩

/-- `copy(b[:], l)` into a zeroed `var b [n]byte`. -/
def ofList (l : List UInt8) : Bytes n :=
  ⟨(l ++ List.replicate n 0).take n, by simp⟩

/-- The zero value `[n]byte{}`. -/
def zero (n : Nat) : Bytes n := ofList []

/-- `b[lo:hi]`. -/
def slice (b : Bytes n) (lo hi : Nat) : List UInt8 := (b.toList.drop lo).take (hi - lo)

/-- `copy(b[lo:hi], src)`: as many bytes of `src` as fit, written from `lo` on. -/
def copy (b : Bytes n) (lo hi : Nat) (src : List UInt8) : Bytes n :=
  let w := src.take (hi - lo)
  ofList (b.toList.take lo ++ w ++ b.toList.drop (lo + w.length))

@[simp] theorem toList_ofList {l : List UInt8} (h : l.length = n) :
    (ofList l : Bytes n).toList = l := by
  subst h; simp [ofList]

@[simp] theorem toList_zero : (zero n).toList = List.replicate n 0 := by
  simp [zero, ofList]

theorem ofList_toList (b : Bytes n) : ofList b.toList = b := ext (by simp)

theorem getElem?_toList_ofList (l : List UInt8) {i : Nat} (h : i < n) :
    (ofList l : Bytes n).toList[i]? = some (l.getD i 0) := by
  simp only [ofList, List.getElem?_take, h, if_true, List.getD_eq_getElem?_getD]
  by_cases hl : i < l.length
  · simp [List.getElem?_append_left hl, hl]
  · simp [List.getElem?_append_right (by omega : l.length ≤ i), List.getElem?_eq_none (by omega : l.length ≤ i)]
    rw [List.getElem?_replicate, if_pos (by omega)]

theorem getElem?_slice (b : Bytes n) (lo hi i : Nat) :
    (b.slice lo hi)[i]? = if i < hi - lo then b.toList[lo + i]? else none := by
  simp [slice, List.getElem?_take, List.getElem?_drop]

theorem getElem?_copy_of_le (b : Bytes n) {lo hi : Nat} {src : List UInt8} (hhi : hi ≤ n)
    (hsrc : lo + src.length ≤ hi) (i : Nat) :
    (b.copy lo hi src).toList[i]? = if lo ≤ i ∧ i < lo + src.length then src[i - lo]? else b.toList[i]? := by
  have hw : src.take (hi - lo) = src := List.take_of_length_le (by omega)
  have hlen : (b.toList.take lo ++ src ++ b.toList.drop (lo + src.length)).length = n := by
    simp; omega
  have hmin : min lo n = lo := by omega
  simp only [copy, hw, toList_ofList hlen, List.getElem?_append, List.length_append,
    List.length_take, length_toList, List.getElem?_take, List.getElem?_drop, hmin]
  by_cases h2 : i < lo + src.length
  · by_cases h1 : i < lo
    · rw [if_pos h2, if_pos h1, if_pos h1, if_neg (by omega)]
    · rw [if_pos h2, if_neg h1, if_pos ⟨by omega, h2⟩]
  · rw [if_neg h2, if_neg (by omega), show lo + src.length + (i - (lo + src.length)) = i by omega]

theorem getElem?_copy (b : Bytes n) {lo hi : Nat} {src : List UInt8} (hlo : lo ≤ hi) (hhi : hi ≤ n)
    (hsrc : src.length = hi - lo) (i : Nat) :
    (b.copy lo hi src).toList[i]? = if lo ≤ i ∧ i < hi then src[i - lo]? else b.toList[i]? := by
  rw [getElem?_copy_of_le b hhi (by omega), show lo + src.length = hi by omega]

theorem slice_copy_prefix (b : Bytes n) {lo hi : Nat} {src : List UInt8} (hhi : hi ≤ n)
    (hsrc : lo + src.length ≤ hi) : (b.copy lo hi src).slice lo (lo + src.length) = src := by
  apply List.ext_getElem?
  intro i
  rw [getElem?_slice, getElem?_copy_of_le b hhi hsrc]
  by_cases h : i < src.length
  · simp [h]
  · simp [h, List.getElem?_eq_none (show src.length ≤ i by omega)]

theorem slice_copy_self (b : Bytes n) {lo hi : Nat} {src : List UInt8} (hlo : lo ≤ hi) (hhi : hi ≤ n)
    (hsrc : src.length = hi - lo) : (b.copy lo hi src).slice lo hi = src := by
  have h := slice_copy_prefix b hhi (show lo + src.length ≤ hi by omega)
  rwa [show lo + src.length = hi by omega] at h

theorem slice_copy_of_le_of_disjoint (b : Bytes n) {lo hi a c : Nat} {src : List UInt8} (hhi : hi ≤ n)
    (hsrc : lo + src.length ≤ hi) (hd : c ≤ lo ∨ hi ≤ a) : (b.copy lo hi src).slice a c = b.slice a c := by
  apply List.ext_getElem?
  intro i
  rw [getElem?_slice, getElem?_slice, getElem?_copy_of_le b hhi hsrc]
  by_cases h : i < c - a
  · simp [h, show ¬ (lo ≤ a + i ∧ a + i < lo + src.length) by omega]
  · simp [h]

theorem slice_copy_of_disjoint (b : Bytes n) {lo hi a c : Nat} {src : List UInt8}
    (hlo : lo ≤ hi) (hhi : hi ≤ n) (hsrc : src.length = hi - lo) (hd : c ≤ lo ∨ hi ≤ a) :
    (b.copy lo hi src).slice a c = b.slice a c :=
  slice_copy_of_le_of_disjoint b hhi (by omega) hd

theorem slice_foldl_copy {α : Type} {lo hi : Nat} (hlo : lo ≤ hi) (hhi : hi ≤ n) (src : α → List UInt8) (l : List α)
    (hsrc : ∀ x ∈ l, (src x).length = hi - lo) (b : Bytes n) :
    (l.foldl (fun v x => v.copy lo hi (src x)) b).slice lo hi = (l.getLast?.map src).getD (b.slice lo hi) := by
  rcases List.eq_nil_or_concat l with rfl | ⟨l, x, rfl⟩
  · rfl
  · simp [slice_copy_self _ hlo hhi (hsrc x (by simp))]

theorem slice_foldl_copy_of_disjoint {α : Type} {lo hi : Nat} (hlo : lo ≤ hi) (hhi : hi ≤ n) (src : α → List UInt8)
    (l : List α) (hsrc : ∀ x ∈ l, (src x).length = hi - lo) (b : Bytes n) {a c : Nat}
    (hd : c ≤ lo ∨ hi ≤ a) : (l.foldl (fun v x => v.copy lo hi (src x)) b).slice a c = b.slice a c := by
  induction l generalizing b with
  | nil => rfl
  | cons x l ih =>
    rw [List.foldl_cons, ih (fun y hy => hsrc y (.tail _ hy)),
      slice_copy_of_disjoint _ hlo hhi (hsrc x (.head _)) hd]

theorem slice_length (b : Bytes n) {lo hi : Nat} (h : hi ≤ n) : (b.slice lo hi).length = hi - lo := by
  rw [slice, List.length_take, List.length_drop, length_toList]
  omega

theorem slice_append (b : Bytes n) (lo mid hi : Nat) (hlm : lo ≤ mid) (hmh : mid ≤ hi) :
    b.slice lo mid ++ b.slice mid hi = b.slice lo hi := by
  rw [slice, slice, slice, show hi - lo = (mid - lo) + (hi - mid) by omega, List.take_add,
    List.drop_drop, Nat.add_sub_cancel' hlm]

theorem slice_eq_zero_iff (b : Bytes n) {lo hi m : Nat} (h : hi ≤ n) (hm : hi - lo = m) :
    b.slice lo hi = List.replicate m 0 ↔ ∀ x ∈ b.slice lo hi, x = 0 := by
  rw [List.eq_replicate_iff, b.slice_length h, hm]
  simp

theorem toList_eq_slice_append (b : Bytes n) (k : Nat) :
    b.toList = b.slice 0 k ++ b.slice k n := by
  have : (b.toList.drop k).length ≤ n - k := by simp
  simp [slice, List.take_of_length_le this]

end Bytes

/-! ## Big-endian integers -/

/-- `binary.BigEndian.Uint32(b)` for `b` of four bytes, and `amount.NewFromBytes(b...)`: the
bytes read as a base-256 numeral, most significant first. -/
def beToNat (b : List UInt8) : Nat := b.foldl (fun acc x => acc * 256 + x.toNat) 0

/-- The `w` low-order bytes of `x`, most significant first: `binary.BigEndian.PutUint32` writes
`natToBe 4`, and `Amount.Bytes32` is `natToBe 32`. -/
def natToBe : Nat → Nat → List UInt8
  | 0, _ => []
  | w + 1, x => natToBe w (x / 256) ++ [UInt8.ofNat x]

@[simp] theorem length_natToBe (w x : Nat) : (natToBe w x).length = w := by
  induction w generalizing x with
  | zero => rfl
  | succ w ih => simp [natToBe, ih]

theorem foldl_beToNat (b : List UInt8) (acc : Nat) :
    b.foldl (fun acc x => acc * 256 + x.toNat) acc = acc * 256 ^ b.length + beToNat b := by
  induction b generalizing acc with
  | nil => simp [beToNat]
  | cons x b ih =>
    show b.foldl _ (acc * 256 + x.toNat) = acc * 256 ^ (b.length + 1) + b.foldl _ (0 * 256 + x.toNat)
    rw [ih, ih, Nat.pow_succ]
    ring

theorem beToNat_cons (x : UInt8) (b : List UInt8) :
    beToNat (x :: b) = x.toNat * 256 ^ b.length + beToNat b := by
  show b.foldl _ (0 * 256 + x.toNat) = _
  rw [foldl_beToNat, Nat.zero_mul, Nat.zero_add]

@[simp] theorem beToNat_nil : beToNat [] = 0 := rfl

theorem beToNat_append (a b : List UInt8) :
    beToNat (a ++ b) = beToNat a * 256 ^ b.length + beToNat b := by
  rw [beToNat, List.foldl_append, foldl_beToNat]; rfl

theorem beToNat_lt (b : List UInt8) : beToNat b < 256 ^ b.length := by
  induction b using List.reverseRecOn with
  | nil => simp
  | append_singleton b x ih =>
    have hx : x.toNat < 256 := x.toBitVec.isLt
    rw [beToNat_append, List.length_append, Nat.pow_add]
    simp only [beToNat, List.foldl_cons, List.foldl_nil, List.length_singleton, pow_one] at *
    omega

theorem beToNat_natToBe (w x : Nat) : beToNat (natToBe w x) = x % 256 ^ w := by
  induction w generalizing x with
  | zero => simp [natToBe, Nat.mod_one]
  | succ w ih =>
    have hx : (UInt8.ofNat x).toNat = x % 256 := rfl
    rw [natToBe, beToNat_append, ih, Nat.pow_succ', Nat.mod_mul]
    simp [beToNat, hx]
    ring

theorem natToBe_beToNat (b : List UInt8) : natToBe b.length (beToNat b) = b := by
  induction b using List.reverseRecOn with
  | nil => rfl
  | append_singleton b x ih =>
    have hx : x.toNat < 256 := x.toBitVec.isLt
    have hb : beToNat (b ++ [x]) = beToNat b * 256 + x.toNat := by
      rw [beToNat_append]; simp [beToNat]
    rw [List.length_append, List.length_singleton, natToBe, hb,
      show (beToNat b * 256 + x.toNat) / 256 = beToNat b by omega, ih]
    congr 2
    apply UInt8.toNat.inj
    show (beToNat b * 256 + x.toNat) % 256 = x.toNat
    omega

theorem natToBe_add (a b x : Nat) : natToBe (a + b) x = natToBe a (x / 256 ^ b) ++ natToBe b x := by
  induction b generalizing x with
  | zero => simp [natToBe]
  | succ b ih =>
    rw [← Nat.add_assoc, natToBe, ih, natToBe, List.append_assoc, Nat.div_div_eq_div_mul, Nat.pow_succ']

theorem drop_natToBe (a b x : Nat) : (natToBe (a + b) x).drop a = natToBe b x := by
  rw [natToBe_add, List.drop_left' (length_natToBe _ _)]

theorem natToBe_mod (w x : Nat) : natToBe w (x % 256 ^ w) = natToBe w x := by
  induction w generalizing x with
  | zero => rfl
  | succ w ih =>
    have hdiv : x % 256 ^ (w + 1) / 256 = x / 256 % 256 ^ w := by
      rw [Nat.pow_succ', Nat.mod_mul_right_div_self]
    have hlow : UInt8.ofNat (x % 256 ^ (w + 1)) = UInt8.ofNat x := by
      apply UInt8.toNat.inj
      show x % 256 ^ (w + 1) % 256 = x % 256
      rw [Nat.pow_succ', Nat.mod_mul_right_mod]
    rw [natToBe, natToBe, hdiv, ih, hlow]

theorem beToNat_eq_zero_iff (b : List UInt8) : beToNat b = 0 ↔ ∀ x ∈ b, x = 0 := by
  induction b with
  | nil => simp
  | cons x b ih =>
    have hx : x.toNat = 0 ↔ x = 0 := ⟨fun h => UInt8.toNat.inj h, fun h => h ▸ rfl⟩
    have hpow : 256 ^ b.length ≠ 0 := Nat.pos_iff_ne_zero.mp (Nat.pos_pow_of_pos _ (by decide))
    simp [beToNat_cons, Nat.add_eq_zero, hpow, hx, ih]

/-! ## `bytes.Compare` -/

/-- `bytes.Compare(a, b)`: the lexicographic order of byte strings. -/
def bytesCompare : List UInt8 → List UInt8 → Ordering
  | [], [] => .eq
  | [], _ :: _ => .lt
  | _ :: _, [] => .gt
  | x :: a, y :: b => if x < y then .lt else if y < x then .gt else bytesCompare a b

/-- `bytes.Compare(k, from) >= 0 && bytes.Compare(k, to) <= 0`. -/
def inRange (k lo hi : List UInt8) : Bool :=
  bytesCompare k lo != .lt && bytesCompare k hi != .gt

end VerkleTrie
