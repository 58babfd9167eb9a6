import Mathlib.Data.List.Nodup
import Mathlib.Data.List.Perm.Basic
import Mathlib.Logic.Function.Basic

set_option autoImplicit false

/- Items that wait in lines. Each is in one line at most, and there once. -/
namespace Ece344Lab.Placement

variable {π α : Type*} {lines lines' : π → List α} {p q : π} {a b : α} {xs : List α}

/-- No item is in two lines or twice in one. -/
structure Apart (lines : π → List α) : Prop where
  nodup : ∀ p, (lines p).Nodup
  apart : ∀ p q a, a ∈ lines p → a ∈ lines q → p = q

/-- Somewhere in the lines. -/
def Placed (lines : π → List α) (a : α) : Prop := ∃ p, a ∈ lines p

theorem apart_of_only (distinct : (lines p).Nodup) (others : ∀ q, q ≠ p → lines q = []) :
    Apart lines := by
  have only : ∀ q a, a ∈ lines q → q = p := by
    intro q a member
    by_contra other
    rw [others q other] at member
    cases member
  refine ⟨fun q => ?_, fun q q' a here there => (only q a here).trans (only q' a there).symm⟩
  by_cases same : q = p
  · exact same ▸ distinct
  · rw [others q same]
    exact List.nodup_nil

/-- Each line loses items or changes its order. -/
theorem Apart.subperm (h : Apart lines) (fewer : ∀ p, (lines' p).Subperm (lines p)) :
    Apart lines' where
  nodup p := by
    obtain ⟨l, same, sub⟩ := fewer p
    exact same.nodup_iff.mp (sub.nodup (h.nodup p))
  apart p q a here there := h.apart p q a ((fewer p).subset here) ((fewer q).subset there)

variable [DecidableEq π]

/-- An item that is in no line joins one. -/
theorem Apart.join (h : Apart lines) (new : ¬ Placed lines a) :
    Apart (Function.update lines p (lines p ++ [a])) := by
  have place : ∀ q b, b ∈ Function.update lines p (lines p ++ [a]) q →
      b ∈ lines q ∨ (b = a ∧ q = p) := by
    intro q b member
    by_cases same : q = p
    · subst same
      rw [Function.update_self, List.mem_append, List.mem_singleton] at member
      exact member.imp id fun equal => ⟨equal, rfl⟩
    · rw [Function.update_of_ne same] at member
      exact Or.inl member
  refine ⟨fun q => ?_, fun q q' b here there => ?_⟩
  · by_cases same : q = p
    · subst same
      rw [Function.update_self, List.nodup_append]
      refine ⟨h.nodup q, List.nodup_singleton a, fun b member c single equal => ?_⟩
      rw [equal, List.mem_singleton.mp single] at member
      exact new ⟨q, member⟩
    · rw [Function.update_of_ne same]
      exact h.nodup q
  · cases place q b here with
    | inl old =>
        cases place q' b there with
        | inl old' => exact h.apart q q' b old old'
        | inr fresh => exact absurd ⟨q, fresh.1 ▸ old⟩ new
    | inr fresh =>
        cases place q' b there with
        | inl old' => exact absurd ⟨q', fresh.1 ▸ old'⟩ new
        | inr fresh' => exact fresh.2.trans fresh'.2.symm

theorem placed_join : Placed (Function.update lines p (lines p ++ [a])) b ↔
    b = a ∨ Placed lines b := by
  constructor
  · rintro ⟨q, member⟩
    by_cases same : q = p
    · subst same
      rw [Function.update_self, List.mem_append, List.mem_singleton] at member
      exact member.symm.imp id fun old => ⟨q, old⟩
    · rw [Function.update_of_ne same] at member
      exact Or.inr ⟨q, member⟩
  · rintro (rfl | ⟨q, member⟩)
    · exact ⟨p, by simp⟩
    · by_cases same : q = p
      · subst same
        exact ⟨q, by simp [member]⟩
      · exact ⟨q, by rwa [Function.update_of_ne same]⟩

theorem Apart.leave (h : Apart lines) (one : (lines p).Perm (a :: xs)) :
    Apart (Function.update lines p xs) := by
  apply h.subperm
  intro q
  by_cases same : q = p
  · subst same
    rw [Function.update_self]
    exact (List.sublist_cons_self a xs).subperm.trans one.symm.subperm
  · rw [Function.update_of_ne same]

/-- One that has left is in no line, and the others are where they were. -/
theorem Apart.placed_leave (h : Apart lines) (one : (lines p).Perm (a :: xs)) :
    Placed (Function.update lines p xs) b ↔ b ≠ a ∧ Placed lines b := by
  have distinct := one.nodup_iff.mp (h.nodup p)
  rw [List.nodup_cons] at distinct
  constructor
  · rintro ⟨q, member⟩
    by_cases same : q = p
    · subst same
      rw [Function.update_self] at member
      exact ⟨fun equal => distinct.1 (equal ▸ member), q,
        one.mem_iff.mpr (List.mem_cons_of_mem _ member)⟩
    · rw [Function.update_of_ne same] at member
      refine ⟨fun equal => same (h.apart q p b member ?_), q, member⟩
      rw [equal]
      exact one.mem_iff.mpr List.mem_cons_self
  · rintro ⟨other, q, member⟩
    by_cases same : q = p
    · subst same
      exact ⟨q, by simpa using (List.mem_cons.mp (one.mem_iff.mp member)).resolve_left other⟩
    · exact ⟨q, by rwa [Function.update_of_ne same]⟩

end Ece344Lab.Placement
