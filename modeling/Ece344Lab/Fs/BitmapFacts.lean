import Ece344Lab.Fs.Bitmap
import Mathlib.Data.Finset.Card
import Mathlib.Data.Finset.Range
import Mathlib.Order.Interval.Finset.Nat

set_option autoImplicit false

/- A bitmap as a finite set of indices. -/
namespace Ece344Lab.Fs

open Outcome Search

theorem getLsbD_wordMask (k i : Nat) (bound : k < 8) :
    (wordMask k).getLsbD i = decide (i = k) := by
  unfold wordMask
  simp only [BitVec.getLsbD_shiftLeft, BitVec.getLsbD_one]
  by_cases same : i = k
  · subst same
    simp [bound]
  · simp only [same, decide_false, Bool.and_eq_false_imp]
    grind

theorem and_wordMask_eq_zero (word : Byte) (k : Nat) (bound : k < 8) :
    word &&& wordMask k = 0 ↔ word.getLsbD k = false := by
  constructor
  · intro zero
    have bit := congrArg (fun w => w.getLsbD k) zero
    simpa [BitVec.getLsbD_and, getLsbD_wordMask k k bound] using bit
  · intro clear
    apply BitVec.eq_of_getLsbD_eq
    intro i inside
    rw [BitVec.getLsbD_and, getLsbD_wordMask k i bound]
    by_cases same : i = k
    · subst same
      simp [clear]
    · simp [same]

theorem getLsbD_or_wordMask (word : Byte) (k i : Nat) (bound : k < 8) :
    (word ||| wordMask k).getLsbD i = (word.getLsbD i || decide (i = k)) := by
  rw [BitVec.getLsbD_or, getLsbD_wordMask k i bound]

theorem getLsbD_and_not_wordMask (word : Byte) (k i : Nat) (bound : k < 8) (inside : i < 8) :
    (word &&& ~~~wordMask k).getLsbD i = (word.getLsbD i && !decide (i = k)) := by
  rw [BitVec.getLsbD_and, BitVec.getLsbD_not, getLsbD_wordMask k i bound]
  simp [inside]

theorem bitmapIsset_eq (b : Bitmap) (i : Nat) :
    bitmapIsset b i = (b.v (i / 8)).getLsbD (i % 8) := by
  unfold bitmapIsset
  have bit := and_wordMask_eq_zero (b.v (i / 8)) (i % 8) (by omega)
  cases set : (b.v (i / 8)).getLsbD (i % 8)
  · simpa [set] using bit
  · simpa [set] using bit

theorem index_split (i j : Nat) : i = j ↔ i / 8 = j / 8 ∧ i % 8 = j % 8 := by
  omega

namespace Bitmap

/-- The bitmap with one bit set, as `bitmap_mark` leaves it. -/
def mark (b : Bitmap) (index : Nat) : Bitmap :=
  b.setWord (index / 8) (b.v (index / 8) ||| wordMask (index % 8))

/-- The bitmap with one bit cleared, as `bitmap_unmark` leaves it. -/
def unmark (b : Bitmap) (index : Nat) : Bitmap :=
  b.setWord (index / 8) (b.v (index / 8) &&& ~~~wordMask (index % 8))

@[simp] theorem nbits_mark (b : Bitmap) (index : Nat) : (b.mark index).nbits = b.nbits := rfl

@[simp] theorem nbits_unmark (b : Bitmap) (index : Nat) : (b.unmark index).nbits = b.nbits := rfl

theorem isset_mark (b : Bitmap) (index i : Nat) :
    bitmapIsset (b.mark index) i = (bitmapIsset b i || decide (i = index)) := by
  rw [bitmapIsset_eq, bitmapIsset_eq]
  simp only [mark, setWord]
  by_cases word : i / 8 = index / 8
  · simp only [word, ↓reduceIte]
    rw [getLsbD_or_wordMask _ _ _ (by omega)]
    congr 1
    simp only [index_split i index, word, true_and]
  · have apart : i ≠ index := fun same => word (by rw [same])
    simp [word, apart]

theorem isset_unmark (b : Bitmap) (index i : Nat) :
    bitmapIsset (b.unmark index) i = (bitmapIsset b i && !decide (i = index)) := by
  rw [bitmapIsset_eq, bitmapIsset_eq]
  simp only [unmark, setWord]
  by_cases word : i / 8 = index / 8
  · simp only [word, ↓reduceIte]
    rw [getLsbD_and_not_wordMask _ _ _ (by omega) (by omega)]
    congr 2
    simp only [index_split i index, word, true_and]
  · have apart : i ≠ index := fun same => word (by rw [same])
    simp [word, apart]

/-- Two bitmaps with the same bits are the same array. -/
theorem v_eq_of_isset {b c : Bitmap} (same : ∀ i, bitmapIsset b i = bitmapIsset c i) :
    b.v = c.v := by
  funext ix
  apply BitVec.eq_of_getLsbD_eq
  intro k inside
  have bit := same (8 * ix + k)
  rw [bitmapIsset_eq, bitmapIsset_eq] at bit
  rwa [show (8 * ix + k) / 8 = ix by omega, show (8 * ix + k) % 8 = k by omega] at bit

theorem unmark_mark (b : Bitmap) (index : Nat) (clear : bitmapIsset b index = false) :
    (b.mark index).unmark index = b := by
  have words : ((b.mark index).unmark index).v = b.v := by
    apply v_eq_of_isset
    intro i
    rw [isset_unmark, isset_mark]
    by_cases same : i = index
    · subst same
      simp [clear]
    · simp [same]
  cases b
  simp only [mark, unmark, setWord] at words ⊢
  rw [Bitmap.mk.injEq]
  exact ⟨rfl, words⟩

def elems (b : Bitmap) : Finset Nat := (Finset.range b.nbits).filter fun i => bitmapIsset b i

theorem mem_elems (b : Bitmap) (i : Nat) :
    i ∈ b.elems ↔ i < b.nbits ∧ bitmapIsset b i = true := by
  simp [elems]

theorem elems_mark (b : Bitmap) (index : Nat) (inside : index < b.nbits) :
    (b.mark index).elems = insert index b.elems := by
  ext i
  simp only [mem_elems, Finset.mem_insert, nbits_mark, isset_mark, Bool.or_eq_true,
    decide_eq_true_eq]
  grind

theorem elems_unmark (b : Bitmap) (index : Nat) :
    (b.unmark index).elems = b.elems.erase index := by
  ext i
  simp only [mem_elems, Finset.mem_erase, nbits_unmark, isset_unmark, Bool.and_eq_true,
    Bool.not_eq_true', decide_eq_false_iff_not]
  grind

theorem card_mark (b : Bitmap) (index : Nat) (inside : index < b.nbits)
    (clear : bitmapIsset b index = false) : (b.mark index).elems.card = b.elems.card + 1 := by
  rw [elems_mark b index inside, Finset.card_insert_of_notMem]
  simp [mem_elems, clear]

theorem card_unmark (b : Bitmap) (index : Nat) (inside : index < b.nbits)
    (present : bitmapIsset b index = true) : (b.unmark index).elems.card + 1 = b.elems.card := by
  rw [elems_unmark]
  exact Finset.card_erase_add_one ((mem_elems b index).mpr ⟨inside, present⟩)

theorem card_le (b : Bitmap) : b.elems.card ≤ b.nbits := by
  have bound := Finset.card_filter_le (Finset.range b.nbits) fun i => bitmapIsset b i = true
  rwa [Finset.card_range] at bound

/-- Below the number of set bits plus one there is a clear bit. -/
theorem exists_clear (b : Bitmap) (limit : Nat) (inside : limit ≤ b.nbits)
    (room : b.elems.card < limit) : ∃ i < limit, bitmapIsset b i = false := by
  by_contra full
  have all : ∀ i < limit, bitmapIsset b i = true := by
    intro i below
    by_contra clear
    exact full ⟨i, below, by simpa using clear⟩
  have subset : Finset.range limit ⊆ b.elems := by
    intro i member
    have below := Finset.mem_range.mp member
    exact (mem_elems b i).mpr ⟨by omega, all i below⟩
  have count := Finset.card_le_card subset
  rw [Finset.card_range] at count
  omega

end Bitmap

theorem bitmapNrAllocated_eq (b : Bitmap) : bitmapNrAllocated b =
    if b.elems.card < 2 ^ 31 then .ok b.elems.card else .error .undefined := by
  have count : (List.range b.nbits).countP (bitmapIsset b) = b.elems.card := by
    unfold Bitmap.elems
    rw [List.countP_eq_length_filter, ← List.toFinset_card_of_nodup
      (List.nodup_range.filter _), List.toFinset_filter, List.toFinset_range]
  unfold bitmapNrAllocated
  dsimp only
  rw [count]

def WholeWords (b : Bitmap) : Prop := b.nbits % 8 = 0 ∧ b.nbits + 7 < 2 ^ 32

/-- The bits behind the last index, in the word it is in, are set. -/
structure Padded (b : Bitmap) : Prop where
  fits : b.nbits + 7 < 2 ^ 32
  surplus : ∀ i, b.nbits ≤ i → i / 8 < (b.nbits + 7) / 8 → bitmapIsset b i = true

theorem WholeWords.padded {b : Bitmap} (whole : WholeWords b) : Padded b where
  fits := whole.2
  surplus i behind inside := by
    have exact := whole.1
    omega

theorem bitmapWords_eq {nbits : Nat} (fits : nbits + 7 < 2 ^ 32) :
    bitmapWords nbits = (nbits + 7) / 8 := by
  unfold bitmapWords
  simp only [bitsPerWord]
  omega

theorem word_eq_allBits (word : Byte) :
    word = wordAllBits ↔ ∀ k < 8, word.getLsbD k = true := by
  constructor
  · rintro rfl k bound
    have cases : k = 0 ∨ k = 1 ∨ k = 2 ∨ k = 3 ∨ k = 4 ∨ k = 5 ∨ k = 6 ∨ k = 7 := by omega
    rcases cases with rfl | rfl | rfl | rfl | rfl | rfl | rfl | rfl <;> rfl
  · intro all
    apply BitVec.eq_of_getLsbD_eq
    intro k bound
    rw [all k bound]
    have cases : k = 0 ∨ k = 1 ∨ k = 2 ∨ k = 3 ∨ k = 4 ∨ k = 5 ∨ k = 6 ∨ k = 7 := by omega
    rcases cases with rfl | rfl | rfl | rfl | rfl | rfl | rfl | rfl <;> rfl

/-- `bitmap_alloc` sets the least clear bit, and gives up only when none is clear. -/
theorem bitmapAlloc_sat (b : Bitmap) (padded : Padded b) :
    Sat (bitmapAlloc b)
      (fun r => match r with
        | none => ∀ i < b.nbits, bitmapIsset b i = true
        | some (index, b') => index < b.nbits ∧ bitmapIsset b index = false ∧
            (∀ i < index, bitmapIsset b i = true) ∧ b' = b.mark index)
      (fun _ => False) := by
  unfold bitmapAlloc
  rw [bitmapWords_eq padded.fits]
  split
  · rename_i none
    rw [firstFrom_eq_none] at none
    intro i inside
    have full := none (i / 8) (Nat.zero_le _) (by omega)
    rw [bitmapIsset_eq]
    simp only [ne_eq, decide_not, Bool.not_eq_eq_eq_not, Bool.not_false, decide_eq_true_eq]
      at full
    exact (word_eq_allBits _).mp full (i % 8) (by omega)
  · rename_i ix first
    rw [firstFrom_eq_some] at first
    obtain ⟨_, inside, partly, before⟩ := first
    split
    · rename_i none
      rw [firstFrom_eq_none] at none
      simp only [ne_eq, decide_not, Bool.not_eq_eq_eq_not, Bool.not_true,
        decide_eq_false_iff_not] at partly
      apply partly
      rw [word_eq_allBits]
      intro k bound
      have taken := none k (Nat.zero_le _) (by omega)
      simp only [decide_eq_false_iff_not, and_wordMask_eq_zero _ k bound] at taken
      simpa using taken
    · rename_i offset first
      rw [firstFrom_eq_some] at first
      obtain ⟨_, bound, hit, earlier⟩ := first
      have low : offset < 8 := by simpa using bound
      have quotient : (ix * 8 + offset) / 8 = ix := by omega
      have remainder : (ix * 8 + offset) % 8 = offset := by omega
      have clear : bitmapIsset b (ix * 8 + offset) = false := by
        rw [bitmapIsset_eq, quotient, remainder]
        exact (and_wordMask_eq_zero _ _ low).mp (by simpa using hit)
      have inRange : ix * 8 + offset < b.nbits := by
        by_contra behind
        have set := padded.surplus _ (Nat.le_of_not_lt behind) (by omega)
        rw [clear] at set
        cases set
      simp only [bitsPerWord, cAssert, inRange, ↓reduceIte]
      refine ⟨inRange, clear, ?_, ?_⟩
      · intro i below
        rw [bitmapIsset_eq]
        by_cases word : i / 8 = ix
        · have taken := earlier (i % 8) (Nat.zero_le _) (by omega)
          simp only [decide_eq_false_iff_not, and_wordMask_eq_zero _ (i % 8) (by omega :
            i % 8 < 8)] at taken
          rw [word]
          simpa using taken
        · have full := before (i / 8) (Nat.zero_le _) (by omega)
          simp only [ne_eq, decide_not, Bool.not_eq_eq_eq_not, Bool.not_false,
            decide_eq_true_eq] at full
          exact (word_eq_allBits _).mp full (i % 8) (by omega)
      · simp only [Bitmap.mark, quotient, remainder]

theorem bitmapUnmark_eq (b : Bitmap) (index : Nat) (inside : index < b.nbits)
    (present : bitmapIsset b index = true) : bitmapUnmark b index = .ok (b.unmark index) := by
  have set : b.v (index / 8) &&& wordMask (index % 8) ≠ 0 := by
    simpa [bitmapIsset] using present
  simp only [bitmapUnmark, bitsPerWord, cAssert, inside, ↓reduceIte, ne_eq, set,
    not_false_eq_true]
  rfl

theorem bitmapUnmark_sat (b : Bitmap) (index : Nat) :
    Sat (bitmapUnmark b index)
      (fun b' => index < b.nbits ∧ bitmapIsset b index = true ∧ b' = b.unmark index)
      (fun e => e = .assertion ∧ ¬ (index < b.nbits ∧ bitmapIsset b index = true)) := by
  by_cases held : index < b.nbits ∧ bitmapIsset b index = true
  · rw [bitmapUnmark_eq b index held.1 held.2]
    exact ⟨held.1, held.2, rfl⟩
  · unfold bitmapUnmark
    by_cases inside : index < b.nbits
    · have clear : b.v (index / 8) &&& wordMask (index % 8) = 0 := by
        have unset : ¬ bitmapIsset b index = true := fun set => held ⟨inside, set⟩
        simpa [bitmapIsset] using unset
      simp only [cAssert, inside, ↓reduceIte, bitsPerWord, clear, ne_eq, not_true_eq_false]
      exact ⟨rfl, by simpa [inside] using held⟩
    · simp only [cAssert, inside, ↓reduceIte]
      exact ⟨rfl, by simp⟩

end Ece344Lab.Fs
