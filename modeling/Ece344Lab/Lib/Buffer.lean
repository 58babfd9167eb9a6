import Mathlib.Data.List.Basic

set_option autoImplicit false

/- Bytes, little-endian machine words and fixed-size byte buffers with the two
copies that `memcpy` performs on them. -/
namespace Ece344Lab

abbrev Byte := BitVec 8

namespace Bytes

def text (s : String) : List Byte := s.toList.map fun c => BitVec.ofNat 8 c.toNat

/-- A number as `%d`, `%ld` and `%u` print it. -/
def decimal (n : Int) : List Byte := text (toString n)

/-- The four bytes of a 32-bit word in little-endian order. -/
def le32 (word : BitVec 32) : List Byte :=
  [word.extractLsb' 0 8, word.extractLsb' 8 8, word.extractLsb' 16 8, word.extractLsb' 24 8]

/-- The word whose little-endian bytes start the list; missing bytes count as zero. -/
def of32 (bytes : List Byte) : BitVec 32 :=
  bytes.getD 3 0 ++ bytes.getD 2 0 ++ bytes.getD 1 0 ++ bytes.getD 0 0

@[simp] theorem length_le32 (word : BitVec 32) : (le32 word).length = 4 := rfl

@[simp] theorem of32_le32 (word : BitVec 32) : of32 (le32 word) = word := by
  apply BitVec.eq_of_getLsbD_eq
  intro i inside
  simp only [of32, le32, List.getD_cons_zero, List.getD_cons_succ, BitVec.getLsbD_append,
    BitVec.getLsbD_extractLsb']
  grind

theorem le32_of32 (a b c d : Byte) : le32 (of32 [a, b, c, d]) = [a, b, c, d] := by
  have byte : ∀ (k : Nat) (e : Byte), (∀ i < 8, (d ++ c ++ b ++ a).getLsbD (k + i) = e.getLsbD i) →
      (d ++ c ++ b ++ a).extractLsb' k 8 = e := by
    intro k e same
    apply BitVec.eq_of_getLsbD_eq
    intro i inside
    rw [BitVec.getLsbD_extractLsb', same i inside]
    simp [inside]
  change [(d ++ c ++ b ++ a).extractLsb' 0 8, (d ++ c ++ b ++ a).extractLsb' 8 8,
    (d ++ c ++ b ++ a).extractLsb' 16 8, (d ++ c ++ b ++ a).extractLsb' 24 8] = _
  rw [byte 0 a, byte 8 b, byte 16 c, byte 24 d] <;>
    · intro i inside
      simp only [BitVec.getLsbD_append]
      grind

theorem of32_append (word : BitVec 32) (rest : List Byte) :
    of32 (le32 word ++ rest) = word :=
  of32_le32 word

@[simp] theorem of32_replicate_zero (n : Nat) : of32 (List.replicate n 0) = 0 := by
  have cell : ∀ i, (List.replicate n (0 : Byte)).getD i 0 = 0 := by
    intro i
    rw [List.getD_eq_getElem?_getD, List.getElem?_replicate]
    split <;> rfl
  unfold of32
  rw [cell, cell, cell, cell]
  rfl

/-- The words of a byte list cut into groups of four. -/
def word (bytes : List Byte) (k : Nat) : BitVec 32 := of32 (bytes.drop (4 * k))

theorem drop_flatMap_le32 (words : List (BitVec 32)) (k : Nat) :
    (words.flatMap le32).drop (4 * k) = (words.drop k).flatMap le32 := by
  induction words generalizing k with
  | nil => simp
  | cons first rest ih =>
      cases k with
      | zero => simp
      | succ k =>
          rw [List.drop_succ_cons, ← ih k, List.flatMap_cons,
            show 4 * (k + 1) = (le32 first).length + 4 * k by simp only [length_le32]; omega,
            List.drop_length_add_append]

theorem word_flatMap_le32 (words : List (BitVec 32)) (k : Nat) (inside : k < words.length) :
    word (words.flatMap le32) k = words[k] := by
  unfold word
  rw [drop_flatMap_le32, List.drop_eq_getElem_cons inside, List.flatMap_cons]
  exact of32_append _ _

theorem length_flatMap_le32 (words : List (BitVec 32)) :
    (words.flatMap le32).length = 4 * words.length := by
  induction words with
  | nil => rfl
  | cons first rest ih =>
      simp only [List.flatMap_cons, List.length_append, length_le32, ih, List.length_cons]
      omega

end Bytes

abbrev Buffer (n : Nat) := Fin n → Byte

namespace Buffer

variable {n : Nat}

def zero : Buffer n := fun _ => 0

/-- The byte at an offset; reads outside the buffer give zero. -/
def get (b : Buffer n) (i : Nat) : Byte :=
  if inside : i < n then b ⟨i, inside⟩ else 0

/-- `memcpy` out of the buffer. -/
def slice (b : Buffer n) (offset length : Nat) : List Byte :=
  (List.range length).map fun i => b.get (offset + i)

/-- `memcpy` into the buffer. -/
def splice (b : Buffer n) (offset : Nat) (source : List Byte) : Buffer n := fun i =>
  if offset ≤ i.val then source.getD (i.val - offset) (b i) else b i

@[ext] theorem ext_get {left right : Buffer n} (same : ∀ i < n, left.get i = right.get i) :
    left = right := by
  funext i
  simpa only [get, i.isLt, ↓reduceDIte] using same i.val i.isLt

@[simp] theorem get_zero (i : Nat) : (zero : Buffer n).get i = 0 := by
  unfold get zero
  split <;> rfl

theorem get_splice (b : Buffer n) (offset : Nat) (source : List Byte) (i : Nat) (inside : i < n) :
    (b.splice offset source).get i =
      if offset ≤ i ∧ i < offset + source.length then source.getD (i - offset) 0 else b.get i := by
  by_cases lower : offset ≤ i
  · by_cases upper : i < offset + source.length
    · have bound : i - offset < source.length := by omega
      simp [get, inside, splice, lower, upper, List.getD_eq_getElem?_getD, bound]
    · have bound : source.length ≤ i - offset := by omega
      simp [get, inside, splice, lower, upper, List.getD_eq_getElem?_getD, bound]
  · simp [get, inside, splice, lower]

theorem get_splice_inside (b : Buffer n) (offset : Nat) (source : List Byte) (i : Nat)
    (inside : i < source.length) (fits : offset + i < n) :
    (b.splice offset source).get (offset + i) = source.getD i 0 := by
  rw [get_splice b offset source (offset + i) fits, if_pos (by omega)]
  congr 1
  omega

theorem get_splice_outside (b : Buffer n) (offset : Nat) (source : List Byte) (i : Nat)
    (outside : i < offset ∨ offset + source.length ≤ i) :
    (b.splice offset source).get i = b.get i := by
  by_cases inside : i < n
  · rw [get_splice b offset source i inside, if_neg (by omega)]
  · simp only [get, inside, ↓reduceDIte]

@[simp] theorem length_slice (b : Buffer n) (offset length : Nat) :
    (b.slice offset length).length = length := by
  simp [slice]

theorem getD_slice (b : Buffer n) (offset length i : Nat) (inside : i < length) :
    (b.slice offset length).getD i 0 = b.get (offset + i) := by
  simp [slice, List.getD_eq_getElem?_getD, inside]

theorem getElem_slice (b : Buffer n) (offset length i : Nat)
    (inside : i < (b.slice offset length).length) :
    (b.slice offset length)[i] = b.get (offset + i) := by
  simp [slice]

@[simp] theorem slice_zero (offset length : Nat) :
    (zero : Buffer n).slice offset length = List.replicate length 0 := by
  apply List.ext_getElem (by simp)
  intro i left right
  simp [getElem_slice]

theorem slice_congr {left right : Buffer n} {offset length : Nat}
    (same : ∀ i < length, left.get (offset + i) = right.get (offset + i)) :
    left.slice offset length = right.slice offset length := by
  apply List.map_congr_left
  intro i member
  exact same i (List.mem_range.mp member)

/-- What was copied in is read back. -/
theorem slice_splice_same (b : Buffer n) (offset : Nat) (source : List Byte)
    (fits : offset + source.length ≤ n) :
    (b.splice offset source).slice offset source.length = source := by
  apply List.ext_getElem (by simp)
  intro i left right
  rw [getElem_slice, get_splice_inside b offset source i right (by omega),
    List.getD_eq_getElem?_getD, List.getElem?_eq_getElem right, Option.getD_some]

/-- A copy leaves every disjoint range as it was. -/
theorem slice_splice_of_disjoint (b : Buffer n) (offset : Nat) (source : List Byte)
    (other length : Nat)
    (apart : other + length ≤ offset ∨ offset + source.length ≤ other) :
    (b.splice offset source).slice other length = b.slice other length := by
  apply slice_congr
  intro i inside
  exact get_splice_outside b offset source (other + i) (by omega)

theorem splice_slice_self (b : Buffer n) (offset length : Nat) :
    b.splice offset (b.slice offset length) = b := by
  apply ext_get
  intro i inside
  rw [get_splice _ _ _ _ inside, length_slice]
  split
  · rename_i range
    rw [getD_slice b offset length (i - offset) (by omega)]
    congr 1
    omega
  · rfl

/-- `((int *) b)[i]`. -/
def getInt (b : Buffer n) (i : Nat) : BitVec 32 := Bytes.of32 (b.slice (4 * i) 4)

/-- `((int *) b)[i] = value`. -/
def setInt (b : Buffer n) (i : Nat) (value : BitVec 32) : Buffer n :=
  b.splice (4 * i) (Bytes.le32 value)

@[simp] theorem getInt_zero (i : Nat) : (zero : Buffer n).getInt i = 0 := by
  rw [getInt, slice_zero, Bytes.of32_replicate_zero]

theorem getInt_setInt_same (b : Buffer n) (i : Nat) (value : BitVec 32)
    (fits : 4 * i + 4 ≤ n) : (b.setInt i value).getInt i = value := by
  have copied := slice_splice_same b (4 * i) (Bytes.le32 value) fits
  rw [Bytes.length_le32] at copied
  rw [getInt, setInt, copied, Bytes.of32_le32]

theorem getInt_setInt_of_ne (b : Buffer n) (i j : Nat) (value : BitVec 32) (apart : i ≠ j) :
    (b.setInt i value).getInt j = b.getInt j := by
  unfold getInt setInt
  rw [slice_splice_of_disjoint]
  rw [Bytes.length_le32]
  omega

theorem setInt_setInt (b : Buffer n) (i : Nat) (value other : BitVec 32) :
    (b.setInt i value).setInt i other = b.setInt i other := by
  apply ext_get
  intro k inside
  unfold setInt
  rw [get_splice _ _ _ _ inside, get_splice _ _ _ _ inside, get_splice _ _ _ _ inside]
  by_cases range : 4 * i ≤ k ∧ k < 4 * i + (Bytes.le32 other).length
  · rw [if_pos range, if_pos range]
  · have range' : ¬ (4 * i ≤ k ∧ k < 4 * i + (Bytes.le32 value).length) := range
    rw [if_neg range, if_neg range, if_neg range']

theorem setInt_getInt (b : Buffer n) (i : Nat) : b.setInt i (b.getInt i) = b := by
  have bytes : Bytes.le32 (b.getInt i) = b.slice (4 * i) 4 := by
    rw [getInt, show b.slice (4 * i) 4 = [b.get (4 * i + 0), b.get (4 * i + 1), b.get (4 * i + 2),
      b.get (4 * i + 3)] from rfl, Bytes.le32_of32]
  rw [setInt, bytes, splice_slice_self]

end Buffer

end Ece344Lab
