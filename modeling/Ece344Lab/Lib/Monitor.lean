import Mathlib.Logic.Function.Basic

set_option autoImplicit false

/- Threads around one mutex. `Excl` relates the threads inside the critical section to the owner of
the mutex; `Signalled` is what `signal` does to the threads blocked on a condition variable. -/
namespace Ece344Lab.Monitor

variable {τ ι φ : Type*} {inside inside' : τ → Prop} {owner : Option τ}

/-- The threads inside the critical section are the owner of the mutex. -/
def Excl (inside : τ → Prop) (owner : Option τ) : Prop := ∀ t, inside t ↔ owner = some t

theorem Excl.only (excl : Excl inside owner) {t u : τ} (here : inside t) (there : inside u) :
    t = u := by
  have first := (excl t).mp here
  have second := (excl u).mp there
  rw [first] at second
  exact Option.some.inj second

theorem Excl.stay (excl : Excl inside owner) (same : ∀ t, inside' t ↔ inside t) :
    Excl inside' owner := fun t => (same t).trans (excl t)

theorem Excl.enter (excl : Excl inside none) {t : τ} (enters : inside' t)
    (others : ∀ u, u ≠ t → (inside' u ↔ inside u)) : Excl inside' (some t) := by
  intro u
  constructor
  · intro here
    by_contra different
    have other : u ≠ t := fun same => different (congrArg some same.symm)
    have none := (excl u).mp ((others u other).mp here)
    cases none
  · intro same
    rw [← Option.some.inj same]
    exact enters

theorem Excl.leave (excl : Excl inside owner) {t : τ} (held : inside t) (left : ¬ inside' t)
    (others : ∀ u, u ≠ t → (inside' u ↔ inside u)) : Excl inside' none := by
  intro u
  constructor
  · intro here
    have other : u ≠ t := fun same => left (same ▸ here)
    exact absurd (excl.only ((others u other).mp here) held) other
  · intro none
    cases none

/-- A signal wakes one of the blocked threads; without any it is lost. -/
inductive Signalled (blocked : φ → Prop) (wake : φ → φ) [DecidableEq ι] (f : ι → φ) : (ι → φ) → Prop
  | woken (i : ι) (sleeps : blocked (f i)) :
      Signalled blocked wake f (Function.update f i (wake (f i)))
  | lost (none : ∀ i, ¬ blocked (f i)) : Signalled blocked wake f f

/-- A property of one thread that waking does not change. -/
theorem Signalled.keeps {blocked : φ → Prop} {wake : φ → φ} [DecidableEq ι] {f f' : ι → φ}
    (signal : Signalled blocked wake f f') {p : φ → Prop}
    (same : ∀ x, blocked x → (p (wake x) ↔ p x)) (i : ι) : p (f' i) ↔ p (f i) := by
  cases signal with
  | woken j sleeps =>
      by_cases here : i = j
      · rw [here, Function.update_self]
        exact same _ sleeps
      · rw [Function.update_of_ne here]
  | lost => exact Iff.rfl

theorem Signalled.some_awake {blocked : φ → Prop} {wake : φ → φ} [DecidableEq ι] [Nonempty ι]
    {f f' : ι → φ} (signal : Signalled blocked wake f f')
    (wakes : ∀ x, blocked x → ¬ blocked (wake x)) : ∃ i, ¬ blocked (f' i) := by
  cases signal with
  | woken i sleeps =>
      refine ⟨i, ?_⟩
      rw [Function.update_self]
      exact wakes _ sleeps
  | lost none =>
      obtain ⟨i⟩ := (inferInstance : Nonempty ι)
      exact ⟨i, none i⟩

end Ece344Lab.Monitor
