import Ece344Lab.Webserver.Cache
import Ece344Lab.Webserver.LinkerListFacts

set_option autoImplicit false

/- The list of the cache, as the sequence of its linkers. -/
namespace Ece344Lab.Webserver

open Linked Outcome

/-- The linkers of a list with what they point to, in order. -/
structure LinkerList.Ok (l : LinkerList) (cells : List (Nat × Nat)) : Prop where
  list : IsList l.linkers l.startLinker l.endLinker cells
  size : l.size = cells.length
  below : ∀ a ∈ cells.map Prod.fst, a < l.brk

namespace LinkerList.Ok

variable {l : LinkerList} {cells xs ys : List (Nat × Nat)} {c : Nat × Nat}

theorem new : listNew.Ok [] := ⟨⟨trivial, List.nodup_nil, rfl, rfl⟩, rfl, nofun⟩

theorem spells (ok : l.Ok cells) : l.Spells cells := ⟨ok.list, ok.size⟩

theorem of_spells {l' : LinkerList} (ok : l.Ok cells) (spells : l'.Spells xs) (brk : l'.brk = l.brk)
    (fewer : ∀ a ∈ addresses xs, a ∈ addresses cells) : l'.Ok xs :=
  ⟨spells.list, spells.size, fun a member => brk ▸ ok.below a (fewer a member)⟩

theorem put (ok : l.Ok cells) (p : Nat) :
    ∃ l', listPut l p = .ok (1, l') ∧ l'.Ok ((l.brk, p) :: cells) ∧
      l'.startLinker = some l.brk := by
  have fresh : l.brk ∉ addresses cells := fun member => Nat.lt_irrefl _ (ok.below _ member)
  obtain ⟨l', run, spells, _, brk⟩ := ok.spells.put fresh p
  refine ⟨l', run, ⟨spells.list, spells.size, fun a member => ?_⟩, spells.start⟩
  rw [brk]
  cases List.mem_cons.mp member with
  | inl same => exact same ▸ Nat.lt_succ_self _
  | inr later => exact Nat.lt_succ_of_lt (ok.below a later)

theorem bot (ok : l.Ok (xs ++ [c])) : listBot l = .ok c.2 := ok.spells.bot

theorem pull (ok : l.Ok (xs ++ [c])) : ∃ l', listPull l = .ok (1, l') ∧ l'.Ok xs ∧
    l'.brk = l.brk := by
  obtain ⟨l', run, spells, _, brk⟩ := ok.spells.pull
  refine ⟨l', run, ok.of_spells spells brk fun a member => ?_, brk⟩
  rw [addresses, List.map_append]
  exact List.mem_append_left _ member

theorem pmovetop (ok : l.Ok (xs ++ c :: ys)) :
    ∃ l' ret, listPmovetop l (some c.1) = .ok (ret, l') ∧ l'.Ok (c :: (xs ++ ys)) ∧
      l'.brk = l.brk := by
  obtain ⟨l', run, spells, _, brk⟩ := ok.spells.pmovetop
  exact ⟨l', 1, run, ok.of_spells spells brk fun a => mem_moved, brk⟩

end LinkerList.Ok

end Ece344Lab.Webserver
