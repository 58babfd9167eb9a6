import Ece344Lab.Webserver.LinkerListFacts

set_option autoImplicit false

/- `List_movetop` against `List_pmovetop`. -/
namespace Ece344Lab.Webserver

open Linked Outcome

variable {l l₁ l₂ : LinkerList} {cells xs ys : List (Nat × Nat)} {b c e : Nat × Nat}

/-- Two lists have the same linkers in the same order from both ends, and the same end pointers. -/
structure SameList (l₁ l₂ : LinkerList) : Prop where
  start : l₁.startLinker = l₂.startLinker
  finish : l₁.endLinker = l₂.endLinker
  forward : ∃ nodes, Walk l₁.linkers l₁.startLinker nodes ∧ Walk l₂.linkers l₂.startLinker nodes
  backward : ∃ nodes, WalkBack l₁.linkers l₁.endLinker nodes ∧
    WalkBack l₂.linkers l₂.endLinker nodes

/-- Moving the linker at a position and moving a linker both return, with the same list. -/
def MovesAlike (l : LinkerList) (pos : Int) (linker : Option Nat) : Prop :=
  ∃ ret₁ ret₂ l₁ l₂, listMovetop l pos = .ok (ret₁, l₁) ∧ listPmovetop l linker = .ok (ret₂, l₂) ∧
    SameList l₁ l₂

theorem LinkerList.Spells.same (spells : l.Spells cells) : SameList l l :=
  ⟨rfl, rfl, ⟨_, spells.list.walk, spells.list.walk⟩,
    ⟨_, spells.list.walkBack, spells.list.walkBack⟩⟩

theorem linkerLoop_walks {h : Heap Nat} {ds : List (Nat × Nat)} {before : Option Nat}
    (segment : Segment h before (ds ++ c :: ys) none) (b : Nat) :
    linkerLoop h ds.length (some b) (first (ds ++ c :: ys) none) =
      .ok (last (some b) ds, some c.1) := by
  induction ds generalizing b before with
  | nil => rfl
  | cons d ds ih =>
      change linkerLoop h (ds.length + 1) (some b) (some d.1) = _
      rw [linkerLoop, deref_some segment.1]
      exact ih segment.2 d.1

namespace LinkerList.Spells

theorem movetop_front (spells : l.Spells (c :: ys)) : MovesAlike l 0 (some c.1) := by
  have still : listPmovetop l (some c.1) = .ok (1, l) := by
    unfold listPmovetop
    rw [if_neg (Option.some_ne_none c.1), if_pos spells.start.symm, ite_self]
  exact ⟨1, 1, l, l, by rw [listMovetop, if_neg (by decide), if_pos rfl], still, spells.same⟩

/-- How `List_movetop` goes on when it has found the linker `c`. -/
theorem movetop_found (spells : l.Spells (b :: xs ++ c :: ys)) :
    listMovetop l ((xs.length + 1 : Nat) : Int) = (do
      let linkers ← storeNext l.linkers (last none (b :: xs)) (first ys none)
      let before ← deref linkers (last none (b :: xs))
      let linkers ← storePrior linkers before.next (last none (b :: xs))
      let linkers ← storeNext linkers (some c.1) l.startLinker
      let linkers ← storePrior linkers (some c.1) none
      let linkers ← storePrior linkers l.startLinker (some c.1)
      .ok (1, { l with
        startLinker := some c.1
        endLinker := if some c.1 = l.endLinker then last none (b :: xs) else l.endLinker
        linkers := linkers })) := by
  have size := spells.size
  have walks := linkerLoop_walks spells.list.segment.2 b.1
  simp only [List.cons_append, List.length_cons, List.length_append] at size
  rw [← spells.start] at walks
  unfold listMovetop
  rw [if_neg (by omega), if_neg (by omega), if_neg (by omega), if_neg (by omega), spells.start,
    deref_some spells.head, ok_bind,
      show ((xs.length + 1 : Nat) : Int).toNat - 1 = xs.length by omega,
    ← spells.start]
  change (linkerLoop l.linkers xs.length l.startLinker (first (xs ++ c :: ys) none) >>= _) = _
  rw [walks, ok_bind]
  dsimp only
  rw [deref_some spells.node, ok_bind]
  rw [spells.start]
  rfl

/-- In the middle of a list the two do the same. -/
theorem movetop_inside (spells : l.Spells (b :: xs ++ c :: e :: ys)) :
    listMovetop l ((xs.length + 1 : Nat) : Int) = listPmovetop l (some c.1) := by
  have several : l.size ≠ 1 := by
    have size := spells.size
    simp only [List.cons_append, List.length_append, List.length_cons] at size
    omega
  obtain ⟨h₁, h₂, run₁, run₂, _, same, _⟩ := spells.bypassed (List.cons_ne_nil b xs)
  obtain ⟨before, read, next⟩ := deref_storeNext run₁
  have found := same.trans spells.node
  have swapped := storeNext_storePrior h₂ (some c.1) l.startLinker none
  rw [storeNext_some found, storePrior_some found, ok_bind, ok_bind] at swapped
  rw [spells.movetop_found, first_cons, run₁, ok_bind, read, ok_bind, next, run₂, ok_bind,
    storeNext_some found, ok_bind, swapped]
  unfold listPmovetop
  rw [if_neg (Option.some_ne_none c.1), if_neg several, if_neg spells.ne_start,
    deref_some spells.node, ok_bind]
  dsimp only
  rw [if_neg spells.ne_end, first_cons, run₁, ok_bind, run₂, ok_bind,
    storePrior_some found, ok_bind, if_neg spells.ne_end]
  rfl

theorem movetop_last (spells : l.Spells (b :: xs ++ [c])) :
    listMovetop l ((xs.length + 1 : Nat) : Int) = .error .undefined := by
  obtain ⟨h₁, run, _⟩ := spells.cut (List.cons_ne_nil b xs)
  obtain ⟨before, read, next⟩ := deref_storeNext run
  rw [spells.movetop_found, first_nil, run, ok_bind, read, ok_bind, next]
  rfl

end LinkerList.Spells

/-- The two operations agree at every position but the last one; there `List_movetop` uses `NULL`,
unless the list has no other position. -/
theorem list_movetop_agrees_iff (spells : l.Spells cells) {pos : Nat}
    (there : cells[pos]? = some c) :
    (MovesAlike l pos (some c.1) ↔ pos = 0 ∨ pos + 1 < cells.length) ∧
      (pos ≠ 0 → pos + 1 = cells.length → listMovetop l pos = .error .undefined) := by
  obtain ⟨inside, value⟩ := List.getElem?_eq_some_iff.mp there
  have split : cells = cells.take pos ++ c :: cells.drop (pos + 1) := by
    rw [← value, List.getElem_cons_drop, List.take_append_drop]
  have length : (cells.take pos).length = pos := List.length_take_of_le (Nat.le_of_lt inside)
  have behind : (cells.drop (pos + 1)).length = cells.length - (pos + 1) := List.length_drop
  generalize cells.take pos = front at split length
  generalize cells.drop (pos + 1) = back at split behind
  rw [split] at spells
  cases front with
  | nil =>
      obtain rfl : 0 = pos := length
      exact ⟨iff_of_true spells.movetop_front (Or.inl rfl), fun some => absurd rfl some⟩
  | cons b xs =>
      rw [List.length_cons] at length
      cases back with
      | nil =>
          have faults := spells.movetop_last
          rw [length] at faults
          rw [List.length_nil] at behind
          refine ⟨iff_of_false ?_ (by omega), fun _ _ => faults⟩
          rintro ⟨_, _, _, _, moved, _⟩
          rw [faults] at moved
          cases moved
      | cons e ys =>
          have alike := spells.movetop_inside
          obtain ⟨l', run, spells', _⟩ := spells.pmovetop
          rw [length] at alike
          rw [List.length_cons] at behind
          exact ⟨iff_of_true ⟨1, 1, l', l', alike.trans run, run, spells'.same⟩ (by omega),
            fun _ last => by omega⟩

theorem exists_three : ∃ l : LinkerList, l.Spells [(2, 30), (1, 20), (0, 10)] := by
  obtain ⟨l₁, _, spells₁, _, brk₁⟩ := LinkerList.Spells.new.put (by simp) 10
  obtain ⟨l₂, _, spells₂, _, brk₂⟩ := spells₁.put (by rw [brk₁]; decide) 20
  obtain ⟨l₃, _, spells₃, _⟩ := spells₂.put (by rw [brk₂, brk₁]; decide) 30
  rw [brk₂, brk₁] at spells₃
  exact ⟨l₃, spells₃⟩

/-- The last of three linkers cannot be moved by its position. -/
theorem list_movetop_last_faults : ∃ l : LinkerList, l.Spells [(2, 30), (1, 20), (0, 10)] ∧
    listMovetop l 2 = .error .undefined ∧ ¬ MovesAlike l 2 (some 0) ∧
    ∃ l', listPmovetop l (some 0) = .ok (1, l') := by
  obtain ⟨l, spells⟩ := exists_three
  have faults : listMovetop l 2 = .error .undefined :=
    LinkerList.Spells.movetop_last (show l.Spells ((2, 30) :: ([(1, 20)] ++ [(0, 10)])) from spells)
  obtain ⟨l', moved, _⟩ :=
    LinkerList.Spells.pmovetop (show l.Spells ([(2, 30), (1, 20)] ++ (0, 10) :: []) from spells)
  refine ⟨l, spells, faults, ?_, l', moved⟩
  rintro ⟨_, _, _, _, same, _⟩
  rw [faults] at same
  cases same

/-- The middle one of three linkers. -/
theorem list_movetop_agrees_iff_three : ∃ l : LinkerList, (l.Spells [(2, 30), (1, 20), (0, 10)] ∧
      [(2, 30), (1, 20), (0, 10)][1]? = some (1, 20)) ∧
    (MovesAlike l (1 : Nat) (some 1) ↔ 1 = 0 ∨ 1 + 1 < [(2, 30), (1, 20), (0, 10)].length) ∧
    (1 ≠ 0 → 1 + 1 = [(2, 30), (1, 20), (0, 10)].length →
      listMovetop l (1 : Nat) = .error .undefined) := by
  obtain ⟨l, spells⟩ := exists_three
  have second : [(2, 30), (1, 20), (0, 10)][1]? = some (1, 20) := rfl
  exact ⟨l, ⟨spells, rfl⟩, list_movetop_agrees_iff spells second⟩

end Ece344Lab.Webserver
