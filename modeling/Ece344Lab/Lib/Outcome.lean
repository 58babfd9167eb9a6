import Mathlib.Algebra.Ring.Int.Defs
import Mathlib.Algebra.Ring.Nat

set_option autoImplicit false

/- Computations that either return a value or stop the program. `Sat` is the
postcondition of such a computation, with one predicate for each way out. -/
namespace Ece344Lab

/-- What ends a C program before its time. -/
inductive Fault
  /-- a null pointer, freed memory or a number out of its range is used, or a pointer that `malloc`
  has not given is freed -/
  | undefined
  /-- a loop does not come to its end -/
  | diverges
  /-- `exit` is called -/
  | exits
  deriving DecidableEq, Repr

namespace Outcome

universe u v

variable {ε : Type u} {α β : Type v}

/-- `x` returns a value satisfying `Q` or stops with a reason satisfying `E`. -/
def Sat (x : Except ε α) (Q : α → Prop) (E : ε → Prop) : Prop :=
  match x with
  | .ok a => Q a
  | .error e => E e

@[simp] theorem sat_ok (a : α) (Q : α → Prop) (E : ε → Prop) :
    Sat (.ok a) Q E ↔ Q a := Iff.rfl

@[simp] theorem sat_error (e : ε) (Q : α → Prop) (E : ε → Prop) :
    Sat (.error e : Except ε α) Q E ↔ E e := Iff.rfl

@[simp] theorem sat_pure (a : α) (Q : α → Prop) (E : ε → Prop) :
    Sat (pure a : Except ε α) Q E ↔ Q a := Iff.rfl

@[simp] theorem sat_throw (e : ε) (Q : α → Prop) (E : ε → Prop) :
    Sat (throw e : Except ε α) Q E ↔ E e := Iff.rfl

@[simp] theorem ok_bind (a : α) (f : α → Except ε β) : (Except.ok a >>= f) = f a := rfl

@[simp] theorem error_bind (e : ε) (f : α → Except ε β) :
    ((Except.error e : Except ε α) >>= f) = .error e := rfl

theorem ok_of_bind {x : Except ε α} {f : α → Except ε β} {b : β} (returned : (x >>= f) = .ok b) :
    ∃ a, x = .ok a ∧ f a = .ok b := by
  cases x with
  | ok a => exact ⟨a, rfl, returned⟩
  | error e => cases returned

theorem sat_bind_iff (x : Except ε α) (f : α → Except ε β) (R : β → Prop) (E : ε → Prop) :
    Sat (x >>= f) R E ↔ Sat x (fun a => Sat (f a) R E) E := by
  cases x <;> exact Iff.rfl

theorem Sat.mono {x : Except ε α} {Q R : α → Prop} {E F : ε → Prop} (spec : Sat x Q E)
    (post : ∀ a, Q a → R a) (stop : ∀ e, E e → F e) : Sat x R F := by
  cases x with
  | ok a => exact post a spec
  | error e => exact stop e spec

theorem Sat.weaken {x : Except ε α} {Q R : α → Prop} {E : ε → Prop} (spec : Sat x Q E)
    (post : ∀ a, Q a → R a) : Sat x R E :=
  spec.mono post fun _ stop => stop

/-- A computation that never stops can stand where one may. -/
theorem Sat.total {x : Except ε α} {Q : α → Prop} {E : ε → Prop} (spec : Sat x Q fun _ => False) :
    Sat x Q E :=
  spec.mono (fun _ post => post) fun _ none => none.elim

/-- The reasons to stop are left out. -/
theorem Sat.anyStop {x : Except ε α} {Q : α → Prop} {E : ε → Prop} (spec : Sat x Q E) :
    Sat x Q fun _ => True :=
  spec.mono (fun _ post => post) fun _ _ => trivial

/-- Sequencing: the second computation is entered with what the first established. -/
theorem Sat.bind {x : Except ε α} {f : α → Except ε β} {Q : α → Prop} {R : β → Prop}
    {E : ε → Prop} (first : Sat x Q E) (next : ∀ a, Q a → Sat (f a) R E) :
    Sat (x >>= f) R E :=
  (sat_bind_iff x f R E).mpr (first.weaken next)

theorem Sat.and {x : Except ε α} {Q R : α → Prop} {E : ε → Prop} (left : Sat x Q E)
    (right : Sat x R E) : Sat x (fun a => Q a ∧ R a) E := by
  cases x with
  | ok a => exact ⟨left, right⟩
  | error e => exact left

/-- What holds of every returned value can be added. -/
theorem Sat.also {x : Except ε α} {Q R : α → Prop} {E : ε → Prop} (spec : Sat x Q E)
    (more : Sat x R fun _ => True) : Sat x (fun a => Q a ∧ R a) E := by
  cases x with
  | ok a => exact ⟨spec, more⟩
  | error e => exact spec

theorem Sat.ite {p : Prop} [Decidable p] {x y : Except ε α} {Q : α → Prop} {E : ε → Prop}
    (yes : p → Sat x Q E) (no : ¬ p → Sat y Q E) : Sat (if p then x else y) Q E := by
  split
  · rename_i holds
    exact yes holds
  · rename_i fails
    exact no fails

/-- A returned value satisfies the postcondition. -/
theorem Sat.of_ok {x : Except ε α} {Q : α → Prop} {E : ε → Prop} (spec : Sat x Q E)
    {a : α} (returned : x = .ok a) : Q a := by
  subst returned
  exact spec

/-- With no admissible reason to stop, the computation returns. -/
theorem Sat.exists_ok {x : Except ε α} {Q : α → Prop} (spec : Sat x Q fun _ => False) :
    ∃ a, x = .ok a ∧ Q a := by
  cases x with
  | ok a => exact ⟨a, rfl, spec⟩
  | error e => exact spec.elim

/-- With no reason to stop that can occur, the computation returns. -/
theorem Sat.exists_of {x : Except ε α} {Q : α → Prop} {E : ε → Prop} (spec : Sat x Q E)
    (never : ∀ e, ¬ E e) : ∃ a, x = .ok a ∧ Q a :=
  (spec.mono (F := fun _ => False) (fun _ post => post) never).exists_ok

/-- A computation that returns something with a property. -/
def Returns (x : Except ε α) (p : α → Prop) : Prop := ∃ a, x = .ok a ∧ p a

instance (x : Except ε α) (p : α → Prop) [DecidablePred p] : Decidable (Returns x p) :=
  match x with
  | .ok a => decidable_of_iff (p a) ⟨fun holds => ⟨a, rfl, holds⟩, fun found => by
      obtain ⟨b, same, holds⟩ := found
      cases same
      exact holds⟩
  | .error _ => isFalse fun found => by
      obtain ⟨b, same, _⟩ := found
      cases same

theorem sat_true (x : Except ε α) : Sat x (fun _ => True) fun _ => True := by
  cases x <;> trivial

/-- A loop over a list keeps an invariant indexed by the elements still to come. -/
theorem sat_foldlM {γ : Type v} {f : γ → α → Except ε γ} {E : ε → Prop}
    {I : List α → γ → Prop} (items : List α) (start : γ)
    (body : ∀ item rest acc, I (item :: rest) acc → Sat (f acc item) (I rest) E)
    (initial : I items start) : Sat (items.foldlM f start) (I []) E := by
  induction items generalizing start with
  | nil => exact initial
  | cons item rest ih =>
      rw [List.foldlM_cons]
      exact Sat.bind (body item rest start initial) fun acc invariant => ih acc invariant

end Outcome

end Ece344Lab
