import Ece344Lab.Lib.Splice
import Ece344Lab.Webserver.LinkerList
import Mathlib.Data.List.Induction
import Mathlib.Data.List.Nodup

set_option autoImplicit false

/- Each operation on a list does to the sequence of its linkers what it says, and changes no other
linker. -/
namespace Ece344Lab.Webserver

open Linked Outcome

/-- The linkers of a list with what they point to, in order. -/
structure LinkerList.Spells (l : LinkerList) (cells : List (Nat × Nat)) : Prop where
  list : IsList l.linkers l.startLinker l.endLinker cells
  size : l.size = cells.length

abbrev addresses (cells : List (Nat × Nat)) : List Nat := cells.map Prod.fst

theorem mem_moved {a : Nat} {c : Nat × Nat} {xs ys : List (Nat × Nat)}
    (member : a ∈ addresses (c :: (xs ++ ys))) :
    a ∈ addresses (xs ++ c :: ys) := by
  simp only [addresses, List.map_append, List.map_cons, List.mem_append, List.mem_cons] at member ⊢
  exact or_left_comm.mp member

namespace LinkerList.Spells

variable {l : LinkerList} {cells xs ys : List (Nat × Nat)} {b c d : Nat × Nat}

theorem new : listNew.Spells [] := ⟨⟨trivial, List.nodup_nil, rfl, rfl⟩, rfl⟩

theorem finish (spells : l.Spells (xs ++ [c])) : l.endLinker = some c.1 := by
  rw [spells.list.finish, last_append]
  rfl

theorem start (spells : l.Spells (c :: ys)) : l.startLinker = some c.1 := spells.list.start

theorem node (spells : l.Spells (xs ++ c :: ys)) :
    l.linkers c.1 = some ⟨c.2, first ys none, last none xs⟩ := spells.list.node

theorem head (spells : l.Spells (c :: ys)) : l.linkers c.1 = some ⟨c.2, first ys none, none⟩ :=
  (show l.Spells ([] ++ c :: ys) from spells).node

theorem outside (spells : l.Spells (xs ++ c :: ys)) : c.1 ∉ addresses (xs ++ ys) :=
  spells.list.outside

theorem single (spells : l.Spells [c]) : l.size = 1 := spells.size

theorem several (spells : l.Spells (c :: d :: ys)) : l.size ≠ 1 := by
  have size := spells.size
  simp only [List.length_cons] at size
  omega

theorem empty (spells : l.Spells []) : l.size = 0 := spells.size

theorem not_empty (spells : l.Spells (c :: ys)) : l.size ≠ 0 := by
  have size := spells.size
  simp only [List.length_cons] at size
  omega

theorem top (spells : l.Spells (c :: ys)) : listTop l = .ok c.2 := by
  unfold listTop
  rw [spells.start, deref_some spells.head]
  rfl

theorem bot (spells : l.Spells (xs ++ [c])) : listBot l = .ok c.2 := by
  unfold listBot
  rw [spells.finish, deref_some spells.node]
  rfl

theorem put (spells : l.Spells cells) (fresh : l.brk ∉ addresses cells) (p : Nat) :
    ∃ l', listPut l p = .ok (1, l') ∧ l'.Spells ((l.brk, p) :: cells) ∧
      Within (addresses ((l.brk, p) :: cells)) l.linkers l'.linkers ∧ l'.brk = l.brk + 1 := by
  have within : Within (addresses ((l.brk, p) :: cells)) l.linkers l.linkers := .refl _ _
  have added : l.size + 1 = (((l.brk, p) :: cells).length : Int) := by
    rw [spells.size]
    rfl
  unfold listPut
  dsimp only
  cases cells with
  | nil =>
      rw [if_pos spells.empty]
      exact ⟨_, rfl, ⟨⟨⟨Function.update_self _ _ _, trivial⟩, List.nodup_singleton _, rfl, rfl⟩,
        added⟩, within.update (by simp) _, rfl⟩
  | cons c rest =>
      have apart : c.1 ≠ l.brk := fun same => fresh (by simp [same])
      have here := spells.head
      rw [if_neg spells.not_empty, spells.start,
        storePrior_some ((Function.update_of_ne apart _ _).trans here)]
      exact ⟨_, rfl, ⟨spells.list.insert_first fresh, added⟩,
        (within.update (by simp) _).update (by simp) _,
        rfl⟩

theorem push (spells : l.Spells cells) (fresh : l.brk ∉ addresses cells) (p : Nat) :
    ∃ l', listPush l p = .ok (1, l') ∧ l'.Spells (cells ++ [(l.brk, p)]) ∧
      Within (addresses (cells ++ [(l.brk, p)])) l.linkers l'.linkers ∧ l'.brk = l.brk + 1 := by
  have within : Within (addresses (cells ++ [(l.brk, p)])) l.linkers l.linkers := .refl _ _
  have added : l.size + 1 = ((cells ++ [(l.brk, p)]).length : Int) := by
    rw [spells.size, List.length_append]
    rfl
  unfold listPush
  dsimp only
  cases cells using List.reverseRecOn with
  | nil =>
      rw [if_pos spells.empty]
      exact ⟨_, rfl, ⟨⟨⟨Function.update_self _ _ _, trivial⟩, List.nodup_singleton _, rfl, rfl⟩,
        added⟩, within.update (by simp) _, rfl⟩
  | append_singleton xs b _ =>
      have apart : b.1 ≠ l.brk := fun same => fresh (by simp [same])
      have here := spells.node
      have size := spells.size
      rw [List.length_append, List.length_singleton] at size
      rw [if_neg (by omega), spells.finish,
        storeNext_some ((Function.update_of_ne apart _ _).trans here), ok_bind,
        Function.update_comm apart.symm]
      exact ⟨_, rfl, ⟨spells.list.insert_last fresh, added⟩,
        (within.update (by simp) _).update (by simp) _,
        rfl⟩

theorem single_freed (spells : l.Spells [c]) : ∃ l', (do
      let linkers ← free l.linkers l.startLinker
      .ok (1, { l with
        startLinker := none, endLinker := none, size := l.size - 1, linkers := linkers }) :
        Except Fault (Int × LinkerList)) = .ok (1, l') ∧
    l'.Spells [] ∧ Within [c.1] l.linkers l'.linkers ∧ l'.brk = l.brk := by
  rw [spells.start, free_some spells.head]
  refine ⟨_, rfl, ⟨⟨trivial, List.nodup_nil, rfl, rfl⟩, ?_⟩,
    (Within.refl _ _).update (by simp) _, rfl⟩
  change l.size - 1 = _
  rw [spells.single]
  rfl

theorem pop (spells : l.Spells (c :: ys)) :
    ∃ l', listPop l = .ok (1, l') ∧ l'.Spells ys ∧
      Within (addresses (c :: ys)) l.linkers l'.linkers ∧ l'.brk = l.brk := by
  have within : Within (addresses (c :: ys)) l.linkers l.linkers := .refl _ _
  have size := spells.size
  unfold listPop
  cases ys with
  | nil =>
      rw [if_pos spells.single]
      exact spells.single_freed
  | cons d ys =>
      have here := spells.head
      have there : l.linkers d.1 = some ⟨d.2, first ys none, some c.1⟩ :=
        (show l.Spells ([c] ++ d :: ys) from spells).node
      have apart : c.1 ≠ d.1 := fun same =>
        (show l.Spells ([] ++ c :: d :: ys) from spells).outside (by simp [same])
      rw [if_neg spells.several, spells.start, deref_some here, ok_bind]
      dsimp only
      rw [first_cons, storePrior_some there, ok_bind,
        free_some ((Function.update_of_ne apart _ _).trans here)]
      have outside := (show l.Spells ([] ++ c :: d :: ys) from spells).outside
      refine ⟨_, rfl, ⟨spells.list.remove_first.free outside, ?_⟩,
        (within.update (by simp) _).update (by simp) _, rfl⟩
      change l.size - 1 = _
      simp only [List.length_cons] at size ⊢
      omega

/-- The linker before one. -/
theorem before (spells : l.Spells (xs ++ [b] ++ c :: ys)) :
    l.linkers b.1 = some ⟨b.2, some c.1, last none xs⟩ ∧ c.1 ≠ b.1 := by
  refine ⟨?_, fun same => spells.outside (by simp [same])⟩
  rw [List.append_assoc] at spells
  exact spells.node

theorem pull (spells : l.Spells (xs ++ [c])) :
    ∃ l', listPull l = .ok (1, l') ∧ l'.Spells xs ∧
      Within (addresses (xs ++ [c])) l.linkers l'.linkers ∧ l'.brk = l.brk := by
  have within : Within (addresses (xs ++ [c])) l.linkers l.linkers := .refl _ _
  have size := spells.size
  rw [List.length_append, List.length_singleton] at size
  unfold listPull
  cases xs using List.reverseRecOn with
  | nil =>
      rw [if_pos spells.single]
      exact spells.single_freed
  | append_singleton xs b _ =>
      have here := spells.node
      obtain ⟨there, apart⟩ := spells.before
      have outside := spells.outside
      rw [List.append_nil] at outside
      rw [List.length_append, List.length_singleton] at size
      rw [if_neg (by omega), spells.finish, deref_some here, ok_bind, last_concat,
        storeNext_some there, ok_bind, free_some ((Function.update_of_ne apart _ _).trans here)]
      refine ⟨_, rfl, ⟨spells.list.remove_last.free outside, ?_⟩,
        (within.update (by simp) _).update (by simp) _, rfl⟩
      change l.size - 1 = _
      rw [size, List.length_append, List.length_singleton]
      omega

section Move

variable {e : Nat × Nat}

/-- The neighbours of a linker in the middle linked to each other. -/
theorem bypassed (spells : l.Spells (xs ++ c :: e :: ys)) (more : xs ≠ []) :
    ∃ h₁ h₂, storeNext l.linkers (last none xs) (some e.1) = .ok h₁ ∧
      storePrior h₁ (some e.1) (last none xs) = .ok h₂ ∧ h₁ c.1 = l.linkers c.1 ∧
      h₂ c.1 = l.linkers c.1 ∧ IsList h₂ l.startLinker l.endLinker (xs ++ e :: ys) ∧
      Within (addresses (xs ++ c :: e :: ys)) l.linkers h₂ := by
  obtain ⟨xs, b, rfl⟩ := (List.eq_nil_or_concat' xs).resolve_left more
  have within : Within (addresses (xs ++ [b] ++ c :: e :: ys)) l.linkers l.linkers := .refl _ _
  obtain ⟨there, apart⟩ := spells.before
  have split : xs ++ [b] ++ c :: e :: ys = (xs ++ [b] ++ [c]) ++ e :: ys := by simp
  have spells' := spells
  rw [split] at spells'
  have next := spells'.node
  have outside := spells'.outside
  rw [last_concat] at next
  have apart' : c.1 ≠ e.1 := fun same => outside (by simp [same])
  have apart'' : e.1 ≠ b.1 := fun same => outside (by simp [same])
  have list := spells.list
  rw [List.append_assoc] at list
  rw [last_concat]
  refine ⟨_, _, storeNext_some there _,
    storePrior_some ((Function.update_of_ne apart'' _ _).trans next) _,
      Function.update_of_ne apart _ _,
    (Function.update_of_ne apart' _ _).trans (Function.update_of_ne apart _ _), ?_,
    (within.update (by simp) _).update (by simp) _⟩
  rw [List.append_assoc]
  exact list.remove_between

theorem cut (spells : l.Spells (xs ++ [c])) (more : xs ≠ []) :
    ∃ h₁, storeNext l.linkers (last none xs) none = .ok h₁ ∧ h₁ c.1 = l.linkers c.1 ∧
      IsList h₁ l.startLinker (last none xs) xs ∧
      Within (addresses (xs ++ [c])) l.linkers h₁ := by
  obtain ⟨xs, b, rfl⟩ := (List.eq_nil_or_concat' xs).resolve_left more
  have within : Within (addresses (xs ++ [b] ++ [c])) l.linkers l.linkers := .refl _ _
  obtain ⟨there, apart⟩ := spells.before
  rw [last_concat]
  exact ⟨_, storeNext_some there _, Function.update_of_ne apart _ _, spells.list.remove_last,
    within.update (by simp) _⟩

end Move

/-- A linker that is in no list is put in front. -/
theorem relinked {h : Heap Nat} {finish : Option Nat} {d : Nat × Nat} {zs : List (Nat × Nat)}
    (list : IsList h (some d.1) finish (d :: zs)) (fresh : c.1 ∉ addresses (d :: zs))
    {prior next : Option Nat} (here : h c.1 = some ⟨c.2, next, prior⟩) :
    ∃ h₁ h₂ h₃, storePrior h (some c.1) none = .ok h₁ ∧
      storeNext h₁ (some c.1) (some d.1) = .ok h₂ ∧
      storePrior h₂ (some d.1) (some c.1) = .ok h₃ ∧
      IsList h₃ (some c.1) finish (c :: d :: zs) ∧ Within (addresses (c :: d :: zs)) h h₃ := by
  have there := list.segment.1
  have apart : d.1 ≠ c.1 := fun same => fresh (by simp [same])
  refine ⟨_, _, _, storePrior_some here none,
    storeNext_some (Function.update_self _ _ _) (some d.1),
    storePrior_some ((Function.update_of_ne apart _ _).trans
      ((Function.update_of_ne apart _ _).trans there)) (some c.1), ?_,
    (((Within.refl _ h).update (by simp) _).update (by simp) _).update (by simp) _⟩
  rw [Function.update_idem]
  exact list.insert_first fresh

/-- A linker that is neither the first nor the last one is not at the end pointer. -/
theorem ne_end {e : Nat × Nat} (spells : l.Spells (xs ++ c :: e :: ys)) :
    some c.1 ≠ l.endLinker := by
  rw [spells.list.finish, last_append]
  intro same
  cases last_mem (some e.1) ys with
  | inl none =>
      rw [last_cons, last_cons, none.2] at same
      exact spells.outside (by simp [Option.some.inj same])
  | inr more =>
      obtain ⟨a, member, found⟩ := more
      rw [last_cons, last_cons, found] at same
      obtain rfl := Option.some.inj same
      exact spells.outside (by
        rw [addresses, List.map_append, List.map_cons]
        exact List.mem_append_right _ (List.mem_cons_of_mem _ member))

theorem ne_start (spells : l.Spells (d :: xs ++ c :: ys)) : some c.1 ≠ l.startLinker := by
  rw [spells.start]
  exact fun same => spells.outside (by simp [Option.some.inj same])

theorem length_moved (spells : l.Spells (xs ++ c :: ys)) :
    l.size = ((c :: (xs ++ ys)).length : Int) := by
  rw [spells.size]
  simp only [List.length_append, List.length_cons]
  omega

/-- A linker is moved to the front. -/
theorem pmovetop (spells : l.Spells (xs ++ c :: ys)) :
    ∃ l', listPmovetop l (some c.1) = .ok (1, l') ∧ l'.Spells (c :: (xs ++ ys)) ∧
      Within (addresses (xs ++ c :: ys)) l.linkers l'.linkers ∧ l'.brk = l.brk := by
  have here := spells.node
  have moved := spells.length_moved
  unfold listPmovetop
  rw [if_neg (Option.some_ne_none c.1)]
  cases xs with
  | nil =>
      rw [if_pos spells.start.symm, ite_self]
      exact ⟨l, rfl, spells, .refl _ _, rfl⟩
  | cons d xs =>
      have several : l.size ≠ 1 := by
        have size := spells.size
        simp only [List.length_append, List.length_cons] at size
        omega
      have fresh := spells.outside
      rw [if_neg several, if_neg spells.ne_start, deref_some here, ok_bind]
      dsimp only
      cases ys with
      | nil =>
          obtain ⟨h, run, same, list, within⟩ := spells.cut (List.cons_ne_nil d xs)
          rw [List.append_nil] at fresh moved ⊢
          rw [spells.start] at list
          obtain ⟨h₁, h₂, h₃, run₁, run₂, run₃, list', within'⟩ :=
            relinked list fresh (same.trans here)
          rw [if_pos spells.finish.symm, run, ok_bind, run₁, ok_bind, spells.start, run₂,
            ok_bind, run₃, ok_bind, if_pos spells.finish.symm]
          exact ⟨_, rfl, ⟨list', moved⟩, within.trans (within'.mono fun a member =>
            mem_moved (by rwa [List.append_nil])), rfl⟩
      | cons e ys =>
          obtain ⟨h₁, h₂, run, run', _, same, list, within⟩ :=
            spells.bypassed (List.cons_ne_nil d xs)
          rw [spells.start] at list
          obtain ⟨h₃, h₄, h₅, run₃, run₄, run₅, list', within'⟩ :=
            relinked list fresh (same.trans here)
          rw [if_neg spells.ne_end, first_cons, run, ok_bind, run', ok_bind, run₃, ok_bind,
            spells.start, run₄, ok_bind, run₅, ok_bind, if_neg spells.ne_end]
          exact ⟨_, rfl, ⟨list', moved⟩, within.trans (within'.mono fun a member =>
            (mem_moved member : a ∈ addresses (d :: xs ++ c :: e :: ys))), rfl⟩

/-- A linker is taken out of the middle of a chain. -/
theorem unlink {e : Nat × Nat} (spells : l.Spells (xs ++ c :: e :: ys)) (more : xs ≠ []) :
    ∃ l', Webserver.unlink l (some c.1) = .ok l' ∧ l'.Spells (xs ++ e :: ys) ∧
      Within (addresses (xs ++ c :: e :: ys)) l.linkers l'.linkers ∧ l'.brk = l.brk := by
  have here := spells.node
  have size := spells.size
  have fresh := spells.outside
  obtain ⟨h₁, h₂, run, run', same, same', list, within⟩ := spells.bypassed more
  unfold Webserver.unlink
  rw [deref_some here, ok_bind, first_cons, run, ok_bind, deref_some (same.trans here), ok_bind,
    first_cons, run', ok_bind, free_some (same'.trans here)]
  refine ⟨_, rfl, ⟨list.free fresh, ?_⟩, within.update (by simp) _, rfl⟩
  change l.size - 1 = _
  simp only [List.length_append, List.length_cons] at size ⊢
  omega

/-- The linker that has been found is taken out, wherever it stands. -/
theorem takeOut (spells : l.Spells (xs ++ c :: ys)) :
    ∃ l', Webserver.takeOut l xs.length (some c.1) = .ok l' ∧ l'.Spells (xs ++ ys) ∧
      Within (addresses (xs ++ c :: ys)) l.linkers l'.linkers ∧ l'.brk = l.brk := by
  have size := spells.size
  rw [List.length_append, List.length_cons] at size
  unfold Webserver.takeOut
  cases xs with
  | nil =>
      obtain ⟨l', popped, rest⟩ := spells.pop
      rw [if_pos (show (([] : List (Nat × Nat)).length : Int) = 0 from rfl), popped]
      exact ⟨l', rfl, rest⟩
  | cons d xs =>
      rw [List.length_cons] at size ⊢
      rw [if_neg (by omega)]
      cases ys with
      | nil =>
          obtain ⟨l', pulled, rest⟩ := spells.pull
          rw [List.length_nil] at size
          rw [if_pos (by omega), pulled, List.append_nil]
          exact ⟨l', rfl, rest⟩
      | cons e ys =>
          rw [List.length_cons] at size
          rw [if_neg (by omega)]
          exact spells.unlink (List.cons_ne_nil d xs)

/-- The first linker from the cells `ys` on that passes the test is taken out. -/
theorem deleteLoop (test : Nat → Bool) (ys : List (Nat × Nat)) :
    ∀ (xs : List (Nat × Nat)) (fuel : Nat),
    l.Spells (xs ++ ys) → ys.length < fuel →
    ∃ l', Webserver.deleteLoop l test fuel xs.length (first ys none) =
        .ok (if ys.any fun c => test c.2 then 1 else 0, l') ∧
      l'.Spells (xs ++ ys.eraseP fun c => test c.2) ∧
      Within (addresses (xs ++ ys)) l.linkers l'.linkers ∧ l'.brk = l.brk := by
  induction ys with
  | nil =>
      intro xs fuel spells enough
      obtain ⟨n, rfl⟩ : ∃ n, fuel = n + 1 := ⟨fuel - 1, by omega⟩
      exact ⟨l, rfl, spells, .refl _ _, rfl⟩
  | cons c ys ih =>
      intro xs fuel spells enough
      rw [List.length_cons] at enough
      obtain ⟨n, rfl⟩ : ∃ n, fuel = n + 1 := ⟨fuel - 1, by omega⟩
      unfold Webserver.deleteLoop
      rw [first_cons, if_neg (Option.some_ne_none c.1), deref_some spells.node, ok_bind]
      dsimp only
      by_cases passes : test c.2 = true
      · obtain ⟨l', removed, rest⟩ := spells.takeOut
        rw [if_pos passes, removed, ok_bind, show (c :: ys).eraseP (fun c => test c.2) = ys from
          List.eraseP_cons_of_pos passes]
        refine ⟨l', ?_, rest⟩
        rw [List.any_cons, passes]
        rfl
      · have split : xs ++ c :: ys = (xs ++ [c]) ++ ys := by simp
        have next : ((xs ++ [c]).length : Int) = xs.length + 1 := by
          rw [List.length_append]
          rfl
        rw [split] at spells
        obtain ⟨l', loops, spells', rest⟩ := ih (xs ++ [c]) n spells (by omega)
        rw [if_neg passes, show (c :: ys).eraseP (fun c => test c.2) = c :: ys.eraseP _ from
          List.eraseP_cons_of_neg passes, split, ← next]
        refine ⟨l', ?_, by simpa using spells', rest⟩
        rw [loops, List.any_cons, Bool.eq_false_iff.mpr passes, Bool.false_or]

/-- `BucketBuffer_delete` takes the first linker that passes the test out of the chain. -/
theorem chainDelete (spells : l.Spells cells) (test : Nat → Bool) :
    ∃ l', Webserver.chainDelete l test = .ok (if cells.any fun c => test c.2 then 1 else 0, l') ∧
      l'.Spells (cells.eraseP fun c => test c.2) ∧
      Within (addresses cells) l.linkers l'.linkers ∧ l'.brk = l.brk := by
  have size := spells.size
  unfold Webserver.chainDelete
  cases cells with
  | nil =>
      rw [if_neg (not_not.mpr spells.empty)]
      exact ⟨l, rfl, spells, .refl _ _, rfl⟩
  | cons c ys =>
      rw [if_pos spells.not_empty, spells.start]
      have enough : (c :: ys).length < l.size.toNat + 1 := by omega
      exact spells.deleteLoop test (c :: ys) [] _ enough

/-- The linkers of two lists, one list behind the other. -/
theorem concatenate {l₂ : LinkerList} (spells : l.Spells xs) (spells₂ : l₂.Spells ys)
    (shared : l₂.linkers = l.linkers) (more : ys ≠ [])
    (apart : ∀ a ∈ addresses xs, a ∉ addresses ys) :
    ∃ l', listConcatenate l l₂ = .ok l' ∧ l'.Spells (xs ++ ys) ∧
      Within (addresses (xs ++ ys)) l.linkers l'.linkers ∧ l'.brk = l.brk := by
  have list₂ := spells₂.list
  rw [shared] at list₂
  unfold listConcatenate
  cases xs using List.reverseRecOn with
  | nil =>
      rw [if_pos spells.empty]
      exact ⟨_, rfl, ⟨list₂, spells₂.size⟩, .refl _ _, rfl⟩
  | append_singleton xs b _ =>
      obtain ⟨d, ys, rfl⟩ := List.exists_cons_of_ne_nil more
      have size := spells.size
      have size₂ := spells₂.size
      have here := spells.node
      have there : l.linkers d.1 = some ⟨d.2, first ys none, none⟩ := list₂.segment.1
      have other : d.1 ≠ b.1 := fun same => apart b.1 (by simp) (by simp [same])
      have before : last none (xs ++ [b]) = some b.1 := by rw [last_append]; rfl
      rw [List.length_append, List.length_singleton] at size
      rw [if_neg (by omega), spells.finish, spells₂.start, storeNext_some here, ok_bind,
        storePrior_some ((Function.update_of_ne other _ _).trans there)]
      refine ⟨_, rfl, ⟨?_, ?_⟩, ((Within.refl _ _).update (by simp) _).update (by simp) _, rfl⟩
      · dsimp only
        apply spells.list.append list₂ apart
        · intro a node same found
          rw [before] at same
          obtain rfl := Option.some.inj same
          rw [here] at found
          rw [Function.update_of_ne other.symm, Function.update_self, ← Option.some.inj found]
          rfl
        · intro a node same found
          obtain rfl := Option.some.inj same
          rw [there] at found
          rw [Function.update_self, ← Option.some.inj found, before]
        · intro a last' first'
          have different : a ≠ b.1 := fun same => last' (same ▸ before)
          have different' : a ≠ d.1 := fun same => first' (congrArg some same.symm)
          rw [Function.update_of_ne different', Function.update_of_ne different]
        · rw [spells.list.start, first_append (xs ++ [b])]
          cases xs <;> rfl
        · rw [list₂.finish, last_append]
          rfl
      · change l.size + l₂.size = _
        rw [size, size₂]
        simp only [List.length_append, List.length_cons, List.length_nil]
        omega

end LinkerList.Spells

end Ece344Lab.Webserver
