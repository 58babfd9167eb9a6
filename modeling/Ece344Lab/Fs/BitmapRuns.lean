import Ece344Lab.Fs.BitmapFacts

set_option autoImplicit false

/- A bitmap of any size, over any sequence of operations. -/
namespace Ece344Lab.Fs

open Outcome Search

namespace Bitmap

/-- The bitmaps that operations lead to, with the indices that have been allocated or marked and not
unmarked since. -/
inductive Run (nbits : Nat) : Bitmap → Finset Nat → Prop
  | create {b : Bitmap} (run : bitmapCreate nbits = .ok b) : Run nbits b ∅
  | alloc {b b' : Bitmap} {s : Finset Nat} {index : Nat} (before : Run nbits b s)
      (run : bitmapAlloc b = .ok (some (index, b'))) : Run nbits b' (insert index s)
  | mark {b b' : Bitmap} {s : Finset Nat} {index : Nat} (before : Run nbits b s) (clear : index ∉ s)
      (run : bitmapMark b index = .ok b') : Run nbits b' (insert index s)
  | unmark {b b' : Bitmap} {s : Finset Nat} {index : Nat} (before : Run nbits b s) (set : index ∈ s)
      (run : bitmapUnmark b index = .ok b') : Run nbits b' (s.erase index)

/-- A bitmap stands for a set of indices. -/
structure Is (b : Bitmap) (nbits : Nat) (s : Finset Nat) : Prop where
  size : b.nbits = nbits
  padded : Padded b
  isset : ∀ i < nbits, bitmapIsset b i = decide (i ∈ s)
  inside : ∀ i ∈ s, i < nbits

end Bitmap

/-- The bits that a loop over masks sets. -/
theorem getLsbD_foldl_wordMask (n : Nat) : ∀ (word : Byte) (start k : Nat), start + n ≤ 8 →
    ((List.range' start n).foldl (fun word j => word ||| wordMask j) word).getLsbD k =
      (word.getLsbD k || decide (start ≤ k ∧ k < start + n)) := by
  induction n with
  | zero =>
      intro word start k _
      have none : ¬ (start ≤ k ∧ k < start + 0) := by omega
      rw [decide_eq_false none, Bool.or_false]
      rfl
  | succ n ih =>
      intro word start k bound
      rw [List.range'_succ, List.foldl_cons, ih _ _ _ (by omega),
        getLsbD_or_wordMask _ _ _ (by omega), Bool.or_assoc, ← Bool.decide_or]
      have same : (k = start ∨ start + 1 ≤ k ∧ k < start + 1 + n) ↔
          start ≤ k ∧ k < start + (n + 1) := by
        omega
      simp only [same]

/-- `bitmap_create` sets the bits behind the last index only. -/
theorem bitmapCreate_is {nbits : Nat} (fits : nbits + 7 < 2 ^ 32) :
    ∃ b, bitmapCreate nbits = .ok b ∧ b.Is nbits ∅ := by
  unfold bitmapCreate
  rw [bitmapWords_eq fits]
  dsimp only [bitsPerWord]
  by_cases partly : nbits / 8 < (nbits + 7) / 8
  · have last : nbits / 8 = (nbits + 7) / 8 - 1 := by omega
    have leftover : nbits - ((nbits + 7) / 8 - 1) * 8 = nbits % 8 := by omega
    have some : 0 < nbits % 8 ∧ nbits % 8 < 8 := by omega
    rw [if_pos partly, leftover, ← last]
    simp only [cAssert, some, and_self, ↓reduceIte]
    refine ⟨_, rfl, rfl, ⟨fits, fun i behind inside => ?_⟩, fun i inside => ?_,
      fun i none => absurd none (Finset.notMem_empty i)⟩
    · dsimp only at behind inside
      have word : i / 8 = nbits / 8 := by omega
      rw [bitmapIsset_eq]
      dsimp only
      rw [if_pos word, getLsbD_foldl_wordMask _ _ _ _ (by omega)]
      have set : nbits % 8 ≤ i % 8 ∧ i % 8 < nbits % 8 + (8 - nbits % 8) := by omega
      rw [decide_eq_true set, Bool.or_true]
    · rw [bitmapIsset_eq]
      dsimp only
      by_cases word : i / 8 = nbits / 8
      · rw [if_pos word, getLsbD_foldl_wordMask _ _ _ _ (by omega)]
        have clear : ¬ (nbits % 8 ≤ i % 8 ∧ i % 8 < nbits % 8 + (8 - nbits % 8)) := by omega
        rw [decide_eq_false clear]
        simp
      · rw [if_neg word]
        simp
  · rw [if_neg partly]
    refine ⟨_, rfl, rfl, ⟨fits, fun i behind inside => ?_⟩, fun i inside => ?_,
      fun i none => absurd none (Finset.notMem_empty i)⟩
    · dsimp only at behind inside
      omega
    · rw [bitmapIsset_eq]
      simp

namespace Bitmap.Is

variable {b : Bitmap} {nbits index : Nat} {s : Finset Nat}

theorem mark (is : b.Is nbits s) (inside : index < nbits) :
    (b.mark index).Is nbits (insert index s) where
  size := is.size
  padded := ⟨is.padded.fits, fun i behind word => by
    rw [isset_mark, is.padded.surplus i behind word, Bool.true_or]⟩
  isset i below := by
    rw [isset_mark, is.isset i below, ← Bool.decide_or]
    simp only [Finset.mem_insert, or_comm]
  inside i member := by
    cases Finset.mem_insert.mp member with
    | inl same => exact same ▸ inside
    | inr old => exact is.inside i old

theorem unmark (is : b.Is nbits s) (inside : index < nbits) :
    (b.unmark index).Is nbits (s.erase index) where
  size := is.size
  padded := ⟨is.padded.fits, fun i behind word => by
    have size := is.size
    have other : i ≠ index := by
      rw [nbits_unmark] at behind
      omega
    rw [isset_unmark, is.padded.surplus i behind word, decide_eq_false other]
    rfl⟩
  isset i below := by
    rw [isset_unmark, is.isset i below]
    by_cases same : i = index
    · simp [same]
    · simp [same]
  inside i member := is.inside i (Finset.mem_of_mem_erase member)

/-- `bitmap_alloc` takes the least index that is not in the set, or the set is full. -/
theorem alloc (is : b.Is nbits s) :
    bitmapAlloc b = .ok none ∧ s = Finset.range nbits ∨
      ∃ index, bitmapAlloc b = .ok (some (index, b.mark index)) ∧ index < nbits ∧ index ∉ s ∧
        ∀ i < index, i ∈ s := by
  obtain ⟨r, run, spec⟩ := (bitmapAlloc_sat b is.padded).exists_ok
  have size := is.size
  cases r with
  | none =>
      refine Or.inl ⟨run, Finset.ext fun i => ?_⟩
      rw [Finset.mem_range]
      refine ⟨is.inside i, fun below => ?_⟩
      have set := spec i (size ▸ below)
      rw [is.isset i below] at set
      exact of_decide_eq_true set
  | some r =>
      obtain ⟨index, b'⟩ := r
      obtain ⟨inside, clear, before, rfl⟩ := spec
      rw [size] at inside
      rw [is.isset index inside] at clear
      refine Or.inr ⟨index, run, inside, of_decide_eq_false clear, fun i below => ?_⟩
      have set := before i below
      rw [is.isset i (below.trans inside)] at set
      exact of_decide_eq_true set

theorem bitmapMark_eq (is : b.Is nbits s) (inside : index < nbits) (clear : index ∉ s) :
    bitmapMark b index = .ok (b.mark index) := by
  have unset : b.v (index / 8) &&& wordMask (index % 8) = 0 := by
    have isset := is.isset index inside
    rw [decide_eq_false clear] at isset
    simpa [bitmapIsset] using isset
  have bound : index < b.nbits := is.size ▸ inside
  simp only [bitmapMark, bitsPerWord, cAssert, bound, ↓reduceIte, unset]
  rfl

theorem bitmapUnmark_eq (is : b.Is nbits s) (member : index ∈ s) :
    bitmapUnmark b index = .ok (b.unmark index) := by
  have inside := is.inside index member
  apply Fs.bitmapUnmark_eq b index (is.size ▸ inside)
  rw [is.isset index inside]
  exact decide_eq_true member

theorem elems (is : b.Is nbits s) : b.elems = s := by
  ext i
  rw [mem_elems, is.size]
  constructor
  · intro set
    rw [is.isset i set.1] at set
    exact of_decide_eq_true set.2
  · intro member
    have inside := is.inside i member
    exact ⟨inside, (is.isset i inside).trans (decide_eq_true member)⟩

theorem card_le (is : b.Is nbits s) : s.card ≤ nbits := by
  rw [← is.elems, ← is.size]
  exact b.card_le

end Bitmap.Is

theorem Bitmap.Run.is {nbits : Nat} (fits : nbits + 7 < 2 ^ 32) {b : Bitmap} {s : Finset Nat}
    (run : Bitmap.Run nbits b s) : b.Is nbits s := by
  induction run with
  | create run =>
      obtain ⟨b', run', is⟩ := bitmapCreate_is fits
      rw [run] at run'
      obtain rfl := Except.ok.inj run'
      exact is
  | @alloc b b' s index before run ih =>
      cases ih.alloc with
      | inl full =>
          rw [run] at full
          cases full.1
      | inr first =>
          obtain ⟨index', run', inside, _, _⟩ := first
          rw [run] at run'
          obtain ⟨rfl, rfl⟩ := Prod.mk.inj (Option.some.inj (Except.ok.inj run'))
          exact ih.mark inside
  | @mark b b' s index before clear run ih =>
      by_cases inside : index < nbits
      · rw [ih.bitmapMark_eq inside clear] at run
        obtain rfl := Except.ok.inj run
        exact ih.mark inside
      · have outside : ¬ index < b.nbits := ih.size ▸ inside
        simp only [bitmapMark, cAssert, outside, ↓reduceIte] at run
        cases run
  | @unmark b b' s index before set run ih =>
      rw [ih.bitmapUnmark_eq set] at run
      obtain rfl := Except.ok.inj run
      exact ih.unmark (ih.inside index set)

/-- A bitmap is the set of the indices allocated or marked and not unmarked since. No assertion
fails. They are counted right as long as an `int` can count them. -/
theorem bitmap_run {nbits : Nat} (fits : nbits + 7 < 2 ^ 32) :
    (∃ b, bitmapCreate nbits = .ok b) ∧ ∀ b s, Bitmap.Run nbits b s →
      (∀ i ∈ s, i < nbits) ∧ (∀ i < nbits, bitmapIsset b i = decide (i ∈ s)) ∧
      (∃ r, bitmapAlloc b = .ok r ∧ (r = none ↔ s = Finset.range nbits) ∧
        ∀ index b', r = some (index, b') → index < nbits ∧ index ∉ s ∧ (∀ i < index, i ∈ s) ∧
          ∀ i < nbits, bitmapIsset b' i = decide (i ∈ insert index s)) ∧
      (∀ index < nbits, index ∉ s → ∃ b', bitmapMark b index = .ok b') ∧
      (∀ index ∈ s, ∃ b', bitmapUnmark b index = .ok b') ∧
      (bitmapNrAllocated b = .ok s.card ↔ s.card < 2 ^ 31) := by
  obtain ⟨start, created, _⟩ := bitmapCreate_is fits
  refine ⟨⟨start, created⟩, fun b s run => ?_⟩
  have is := run.is fits
  refine ⟨is.inside, is.isset, ?_, fun index inside clear => ⟨_, is.bitmapMark_eq inside clear⟩,
    fun index member => ⟨_, is.bitmapUnmark_eq member⟩, ?_⟩
  · cases is.alloc with
    | inl full => exact ⟨none, full.1, iff_of_true rfl full.2, nofun⟩
    | inr first =>
        obtain ⟨index, run', inside, clear, before⟩ := first
        refine ⟨_, run', iff_of_false nofun fun full => ?_, fun index' b' same => ?_⟩
        · exact clear (full ▸ Finset.mem_range.mpr inside)
        · obtain ⟨rfl, rfl⟩ := Prod.mk.inj (Option.some.inj same)
          exact ⟨inside, clear, before, (is.mark inside).isset⟩
  · rw [bitmapNrAllocated_eq, is.elems]
    by_cases few : s.card < 2 ^ 31
    · rw [if_pos few]
      exact iff_of_true rfl few
    · rw [if_neg few]
      exact iff_of_false nofun few

/-- Of nine bits, in two words, the first is allocated and unmarked again, and the last one marked.
The first one is the next to be allocated. -/
theorem bitmap_run_nine : ∃ b, Bitmap.Run 9 b {8} ∧ bitmapIsset b 0 = false ∧
    bitmapIsset b 8 = true ∧ bitmapNrAllocated b = .ok 1 ∧
    ∃ b', bitmapAlloc b = .ok (some (0, b')) ∧ bitmapIsset b' 0 = true := by
  have fits : 9 + 7 < 2 ^ 32 := by decide
  obtain ⟨b₀, created, _⟩ := bitmapCreate_is fits
  have run₀ := Bitmap.Run.create created
  obtain ⟨b₁, run₁⟩ : ∃ b, Bitmap.Run 9 b {0} := by
    cases (run₀.is fits).alloc with
    | inl full => exact absurd full.2 (by decide)
    | inr first =>
        obtain ⟨index, ran, _, _, before⟩ := first
        obtain rfl : index = 0 := by
          by_contra later
          exact absurd (before 0 (Nat.pos_of_ne_zero later)) (by decide)
        exact ⟨_, run₀.alloc ran⟩
  have run₂ :=
    run₁.mark (by decide) ((run₁.is fits).bitmapMark_eq (show 8 < 9 by decide) (by decide))
  have run₃ := run₂.unmark (by decide) ((run₂.is fits).bitmapUnmark_eq
    (show 0 ∈ insert 8 {0} by decide))
  rw [show (insert 8 {0} : Finset Nat).erase 0 = {8} by decide] at run₃
  obtain ⟨_, isset, ⟨r, ran, full, next⟩, _, _, counted⟩ := (bitmap_run fits).2 _ _ run₃
  refine ⟨_, run₃, isset 0 (by decide), isset 8 (by decide), counted.mpr (by decide), ?_⟩
  cases r with
  | none => exact absurd (full.mp rfl) (by decide)
  | some p =>
      obtain ⟨index, b'⟩ := p
      obtain ⟨_, _, before, after⟩ := next index b' rfl
      obtain rfl : index = 0 := by
        by_contra later
        exact absurd (before 0 (Nat.pos_of_ne_zero later)) (by decide)
      exact ⟨b', ran, (after 0 (by decide)).trans (by decide)⟩

theorem exists_run {nbits : Nat} (fits : nbits + 7 < 2 ^ 32) (n : Nat) (room : n ≤ nbits) :
    ∃ b s, Bitmap.Run nbits b s ∧ s.card = n := by
  induction n with
  | zero =>
      obtain ⟨b, created, _⟩ := bitmapCreate_is fits
      exact ⟨b, ∅, .create created, rfl⟩
  | succ n ih =>
      obtain ⟨b, s, run, card⟩ := ih (by omega)
      cases (run.is fits).alloc with
      | inl full =>
          rw [full.2, Finset.card_range] at card
          omega
      | inr first =>
          obtain ⟨index, run', _, clear, _⟩ := first
          exact ⟨_, _, run.alloc run', by rw [Finset.card_insert_of_notMem clear, card]⟩

/-- Half of the largest bitmaps cannot be counted. -/
theorem bitmap_nr_allocated_overflows : ∃ b s, Bitmap.Run (2 ^ 31) b s ∧ s.card = 2 ^ 31 ∧
    bitmapNrAllocated b = .error .undefined := by
  obtain ⟨b, s, run, card⟩ := exists_run (by decide) (2 ^ 31) (Nat.le_refl _)
  refine ⟨b, s, run, card, ?_⟩
  rw [bitmapNrAllocated_eq, (run.is (by decide)).elems, card, if_neg (by decide)]

end Ece344Lab.Fs
