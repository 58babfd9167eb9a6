import Mathlib.Data.List.Basic

set_option autoImplicit false

/- Counting loops that leave at the first index passing a test. -/
namespace Ece344Lab.Search

/-- `for (i = from; i < from + count; i++) if (test(i)) return i;` -/
def firstFrom (test : Nat → Bool) : Nat → Nat → Option Nat
  | 0, _ => none
  | count + 1, i => if test i then some i else firstFrom test count (i + 1)

theorem firstFrom_eq_none {test : Nat → Bool} {count start : Nat} :
    firstFrom test count start = none ↔ ∀ i, start ≤ i → i < start + count → test i = false := by
  induction count generalizing start with
  | zero =>
      simp only [firstFrom, true_iff]
      intro i lower upper
      omega
  | succ count ih =>
      unfold firstFrom
      by_cases hit : test start = true
      · simp only [hit, ↓reduceIte, reduceCtorEq, false_iff, not_forall]
        exact ⟨start, Nat.le_refl _, by omega, by simp [hit]⟩
      · simp only [hit, Bool.false_eq_true, ↓reduceIte, ih]
        constructor
        · intro later i lower upper
          by_cases same : i = start
          · subst same
            simpa using hit
          · exact later i (by omega) (by omega)
        · intro all i lower upper
          exact all i (by omega) (by omega)

/-- The loop stops at the least index passing the test. -/
theorem firstFrom_eq_some {test : Nat → Bool} {count start found : Nat} :
    firstFrom test count start = some found ↔
      start ≤ found ∧ found < start + count ∧ test found = true ∧
        ∀ i, start ≤ i → i < found → test i = false := by
  induction count generalizing start with
  | zero =>
      simp only [firstFrom, reduceCtorEq, false_iff]
      omega
  | succ count ih =>
      unfold firstFrom
      by_cases hit : test start = true
      · simp only [hit, ↓reduceIte, Option.some.injEq]
        constructor
        · rintro rfl
          exact ⟨Nat.le_refl _, by omega, hit, by omega⟩
        · rintro ⟨lower, _, _, minimal⟩
          by_cases same : start = found
          · exact same
          · have missed := minimal start (Nat.le_refl _) (by omega)
            rw [hit] at missed
            cases missed
      · simp only [hit, Bool.false_eq_true, ↓reduceIte, ih]
        constructor
        · rintro ⟨lower, upper, passed, minimal⟩
          refine ⟨by omega, by omega, passed, ?_⟩
          intro i low high
          by_cases same : i = start
          · subst same
            simpa using hit
          · exact minimal i (by omega) high
        · rintro ⟨lower, upper, passed, minimal⟩
          have apart : start ≠ found := by
            rintro rfl
            exact hit passed
          exact ⟨by omega, by omega, passed, fun i low high => minimal i (by omega) high⟩

end Ece344Lab.Search
