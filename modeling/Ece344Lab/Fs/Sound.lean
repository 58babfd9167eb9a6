import Ece344Lab.Fs.InodeFreemap
import Ece344Lab.Fs.InodeTableFacts
import Ece344Lab.Fs.WriteLoop

set_option autoImplicit false

/- The block pointers of all allocated inodes together. -/
namespace Ece344Lab.Fs

open Outcome Ownership

namespace State

def slots (s : State) (n : Nat) : Slot → Nat :=
  if s.sb.InodeAllocated n then ptr s.sb.dev (s.view n) else fun _ => 0

def pointers (s : State) (p : Nat × Slot) : Nat := s.slots p.1 p.2

theorem slots_eq {s : State} {n : Nat} (allocated : s.sb.InodeAllocated n) :
    s.slots n = ptr s.sb.dev (s.view n) :=
  if_pos allocated

theorem slots_free {s : State} {n : Nat} (free : ¬ s.sb.InodeAllocated n) :
    s.slots n = fun _ => 0 :=
  if_neg free

end State

section Owners

variable {s : State} {n m : Nat}

/-- An allocated inode owns its blocks. -/
theorem owned_of_owns (owns : Owns s.sb.Allocated s.pointers) (allocated : s.sb.InodeAllocated n) :
    Owned s.sb (s.view n) where
  inside slot nonzero := by
    rw [← State.slots_eq allocated] at nonzero ⊢
    exact owns.inside (n, slot) nonzero
  distinct slot slot' nonzero same := by
    rw [← State.slots_eq allocated] at nonzero same
    exact congrArg Prod.snd (owns.distinct (n, slot) (n, slot') nonzero same)

/-- Two allocated inodes share no block. -/
theorem apart_of_owns (owns : Owns s.sb.Allocated s.pointers) (allocated : s.sb.InodeAllocated n)
    (allocated' : s.sb.InodeAllocated m) (other : m ≠ n) (slot slot' : Slot)
    (nonzero : ptr s.sb.dev (s.view m) slot' ≠ 0) :
    ptr s.sb.dev (s.view n) slot ≠ ptr s.sb.dev (s.view m) slot' := by
  intro same
  rw [← State.slots_eq allocated, ← State.slots_eq allocated'] at same
  rw [← State.slots_eq allocated'] at nonzero
  exact other (congrArg Prod.fst (owns.distinct (m, slot') (n, slot) nonzero same.symm))

end Owners

/-- The contents depend on the blocks of the inode only. -/
theorem content_congr {dev dev' : Device} {d : Dinode}
    (same : ∀ s, ptr dev d s ≠ 0 → dev'.block (ptr dev d s) = dev.block (ptr dev d s)) (q : Nat) :
    content dev' d q = content dev d q := by
  have table : ptr dev' d = ptr dev d := ptr_congr fun s _ nonzero => same s nonzero
  unfold content fileBlock
  rw [table]
  split
  · rfl
  · rename_i nonzero
    rw [same _ nonzero]

/-- One inode of the state receives blocks, and its entry in the table is replaced. -/
structure Extended (p : Slot → Prop) (n : Nat) (inode : Inode) (s : State) (inode' : Inode)
    (s' : State) : Prop where
  ext : Extends p s.sb inode s'.sb inode'
  table : Retabled s s' (Function.update s.view n inode'.dinode) s.refs
    (Function.update s.dirty n inode'.dirty)

/-- What a function does that is handed an inode of the table and gives it blocks. -/
theorem Extends.onInode {p : Slot → Prop} {s : State} {n : Nat} {inode : Inode} {r : FileResult}
    (table : TableOk s) (read : s.inode n = .ok inode) (owned : Owned s.sb inode.dinode)
    (ext : Extends p s.sb inode r.sb r.inode) :
    Extended p n inode s r.inode ({ s with sb := r.sb }.update r.inode) := by
  refine ⟨ext, Retabled.onInode table r read ext.number ext.count ext.clean ?_⟩
  intro k lower upper
  refine ext.foreign owned k lower (Or.inl upper) ?_
  intro slot same
  have := owned.range (s := slot) (by omega)
  omega

namespace Extended

variable {p : Slot → Prop} {n m : Nat} {inode inode' : Inode} {s s' : State}

theorem allocated_iff (step : Extended p n inode s inode' s') (m : Nat) :
    s'.sb.InodeAllocated m ↔ s.sb.InodeAllocated m := by
  unfold SuperBlock.InodeAllocated
  rw [step.ext.inodes]

theorem view_self (step : Extended p n inode s inode' s') (inside : n < 16384) :
    s'.view n = inode'.dinode := by
  rw [step.table.view n inside, Function.update_self]

theorem view_other (step : Extended p n inode s inode' s') (inside : m < 16384) (other : m ≠ n) :
    s'.view m = s.view m := by
  rw [step.table.view m inside, Function.update_of_ne other]

/-- The blocks of the other inodes are as before. -/
theorem block_other (step : Extended p n inode s inode' s')
    (owns : Owns s.sb.Allocated s.pointers) (allocated : s.sb.InodeAllocated n)
    (view : inode.dinode = s.view n) (allocated' : s.sb.InodeAllocated m) (other : m ≠ n)
    (slot : Slot) (nonzero : ptr s.sb.dev (s.view m) slot ≠ 0) :
    s'.sb.dev.block (ptr s.sb.dev (s.view m) slot) =
      s.sb.dev.block (ptr s.sb.dev (s.view m) slot) := by
  have owned := owned_of_owns owns allocated
  have range := (owned_of_owns owns allocated').range nonzero
  rw [← view] at owned
  refine step.ext.foreign owned _ (by omega) (Or.inr ?_) ?_
  · exact (owned_of_owns owns allocated').inside slot nonzero
  · intro slot'
    rw [view]
    exact apart_of_owns owns allocated allocated' other slot' slot nonzero

theorem slots_other (step : Extended p n inode s inode' s')
    (owns : Owns s.sb.Allocated s.pointers) (allocated : s.sb.InodeAllocated n)
    (view : inode.dinode = s.view n) (other : m ≠ n) : s'.slots m = s.slots m := by
  by_cases allocated' : s.sb.InodeAllocated m
  · rw [State.slots_eq allocated', State.slots_eq ((step.allocated_iff m).mpr allocated'),
      step.view_other allocated'.1 other]
    exact ptr_congr fun slot _ nonzero => step.block_other owns allocated view allocated' other
      slot nonzero
  · rw [State.slots_free allocated', State.slots_free fun after =>
      allocated' ((step.allocated_iff m).mp after)]

theorem content_other (step : Extended p n inode s inode' s')
    (owns : Owns s.sb.Allocated s.pointers) (allocated : s.sb.InodeAllocated n)
    (view : inode.dinode = s.view n) (allocated' : s.sb.InodeAllocated m) (other : m ≠ n)
    (q : Nat) : content s'.sb.dev (s'.view m) q = content s.sb.dev (s.view m) q := by
  rw [step.view_other allocated'.1 other]
  exact content_congr (fun slot nonzero => step.block_other owns allocated view allocated' other
    slot nonzero) q

/-- The table of all pointers grows by the new blocks. -/
theorem grows (step : Extended p n inode s inode' s') (owns : Owns s.sb.Allocated s.pointers)
    (allocated : s.sb.InodeAllocated n) (view : inode.dinode = s.view n) :
    Grows s.sb.Allocated s.pointers s'.sb.Allocated s'.pointers := by
  refine Grows.family s.slots s'.slots n ?_ fun m other =>
    step.slots_other owns allocated view other
  rw [State.slots_eq allocated, State.slots_eq ((step.allocated_iff n).mpr allocated),
    step.view_self allocated.1, ← view]
  exact step.ext.grows

end Extended

end Ece344Lab.Fs
