import Ece344Lab.Fs.FreeBlocks
import Ece344Lab.Fs.Sound

set_option autoImplicit false

/- The invariant of the inodes and their blocks, and the steps that keep it. -/
namespace Ece344Lab.Fs

open Outcome Ownership

/-- Pointers of allocated inodes and bits of the block freemap match one to one, every inode counts
its blocks, and what is free is blank. -/
structure Intact (s : State) : Prop where
  consistent : Consistent s.sb
  table : TableOk s
  owns : Owns s.sb.Allocated s.pointers
  full : ∀ k, s.sb.Allocated k → ∃ p, s.pointers p = k
  counts : ∀ n, s.sb.InodeAllocated n →
    (s.view n).blockCount = BitVec.ofNat 32 (held (s.slots n))
  zeros : FreeZero s.sb
  blank : ∀ n < 16384, ¬ s.sb.InodeAllocated n → s.view n = Dinode.zero
  bits : ∀ n, bitmapIsset s.sb.inodeFreemap n = true → n < 16384

/-- The image file reaches behind every block in use. -/
def Backed (s : State) : Prop := ∀ k, s.sb.Allocated k → k < s.sb.dev.nr

/-- An inode with its pointers and contents is as it was. -/
structure Untouched (s s' : State) (n : Nat) : Prop where
  view : s'.view n = s.view n
  slots : s'.slots n = s.slots n
  content : ∀ q, content s'.sb.dev (s'.view n) q = content s.sb.dev (s.view n) q

theorem Untouched.refl (s : State) (n : Nat) : Untouched s s n := ⟨rfl, rfl, fun _ => rfl⟩

theorem Untouched.trans {s s' s'' : State} {n : Nat} (first : Untouched s s' n)
    (second : Untouched s' s'' n) : Untouched s s'' n :=
  ⟨second.view.trans first.view, second.slots.trans first.slots,
    fun q => (second.content q).trans (first.content q)⟩

theorem Untouched.of_blocks {s s' : State} {n : Nat} (before : s.sb.InodeAllocated n)
    (after : s'.sb.InodeAllocated n) (view : s'.view n = s.view n)
    (blocks : ∀ slot, ptr s.sb.dev (s.view n) slot ≠ 0 →
      s'.sb.dev.block (ptr s.sb.dev (s.view n) slot) =
        s.sb.dev.block (ptr s.sb.dev (s.view n) slot)) : Untouched s s' n := by
  refine ⟨view, ?_, ?_⟩
  · rw [State.slots_eq before, State.slots_eq after, view]
    exact ptr_congr fun slot _ nonzero => blocks slot nonzero
  · intro q
    rw [view]
    exact content_congr blocks q

/-- A step that moves inodes between the table and the inode blocks only. -/
structure Quiet (s s' : State) : Prop where
  consistent : Consistent s'.sb
  table : TableOk s'
  view : ∀ n < 16384, s'.view n = s.view n
  blocks : ∀ k, 146 ≤ k → s'.sb.dev.block k = s.sb.dev.block k
  counts : s'.sb.sb = s.sb.sb
  inodes : s'.sb.inodeFreemap = s.sb.inodeFreemap
  freemap : s'.sb.blockFreemap = s.sb.blockFreemap
  ghost : s'.sb.allocFailed = s.sb.allocFailed
  longer : s.sb.dev.nr ≤ s'.sb.dev.nr

namespace Quiet

variable {s s' s'' : State}

theorem refl (consistent : Consistent s.sb) (table : TableOk s) : Quiet s s :=
  ⟨consistent, table, fun _ _ => rfl, fun _ _ => rfl, rfl, rfl, rfl, rfl, Nat.le_refl _⟩

theorem trans (first : Quiet s s') (second : Quiet s' s'') : Quiet s s'' :=
  ⟨second.consistent, second.table,
    fun n inside => (second.view n inside).trans (first.view n inside),
    fun k data => (second.blocks k data).trans (first.blocks k data),
    second.counts.trans first.counts, second.inodes.trans first.inodes,
    second.freemap.trans first.freemap, second.ghost.trans first.ghost,
    first.longer.trans second.longer⟩

theorem of_retabled {refs : Nat → Nat} {dirty : Nat → Bool} (consistent : Consistent s.sb)
    (same : s'.sb = s.sb) (step : Retabled s s' s.view refs dirty) : Quiet s s' := by
  refine ⟨same ▸ consistent, step.ok, step.view, ?_, ?_, ?_, ?_, ?_, ?_⟩
  all_goals rw [same]
  exact fun _ _ => rfl

theorem free_eq (step : Quiet s s') : s'.sb.free = s.sb.free := by
  unfold SuperBlock.free
  rw [step.counts]

theorem allocated_iff (step : Quiet s s') (k : Nat) : s'.sb.Allocated k ↔ s.sb.Allocated k := by
  unfold SuperBlock.Allocated
  rw [step.freemap]

theorem inodeAllocated_iff (step : Quiet s s') (n : Nat) :
    s'.sb.InodeAllocated n ↔ s.sb.InodeAllocated n := by
  unfold SuperBlock.InodeAllocated
  rw [step.inodes]

/-- Inodes whose blocks are data blocks are untouched. -/
theorem untouched (step : Quiet s s') (owns : Owns s.sb.Allocated s.pointers) {n : Nat}
    (allocated : s.sb.InodeAllocated n) : Untouched s s' n := by
  have owned := owned_of_owns owns allocated
  apply Untouched.of_blocks allocated ((step.inodeAllocated_iff n).mpr allocated)
    (step.view n allocated.1)
  exact fun slot nonzero => step.blocks _ (owned.range nonzero).1

theorem slots_eq (step : Quiet s s') (owns : Owns s.sb.Allocated s.pointers) (n : Nat) :
    s'.slots n = s.slots n := by
  by_cases allocated : s.sb.InodeAllocated n
  · exact (step.untouched owns allocated).slots
  · rw [State.slots_free allocated, State.slots_free]
    exact fun after => allocated ((step.inodeAllocated_iff n).mp after)

theorem pointers_eq (step : Quiet s s') (owns : Owns s.sb.Allocated s.pointers) :
    s'.pointers = s.pointers := by
  funext p
  exact congrFun (step.slots_eq owns p.1) p.2

theorem intact (step : Quiet s s') (intact : Intact s) : Intact s' := by
  have allocated : s'.sb.Allocated = s.sb.Allocated :=
    funext fun k => propext (step.allocated_iff k)
  have pointers := step.pointers_eq intact.owns
  refine ⟨step.consistent, step.table, ?_, ?_, ?_, ?_, ?_, ?_⟩
  · rw [allocated, pointers]
    exact intact.owns
  · rw [allocated, pointers]
    exact intact.full
  · intro n held
    have before := (step.inodeAllocated_iff n).mp held
    rw [step.view n before.1, step.slots_eq intact.owns]
    exact intact.counts n before
  · intro k data clear
    rw [step.blocks k data]
    exact intact.zeros k data fun held => clear ((step.allocated_iff k).mpr held)
  · intro n inside free
    rw [step.view n inside]
    exact intact.blank n inside fun held => free ((step.inodeAllocated_iff n).mpr held)
  · rw [step.inodes]
    exact intact.bits

theorem backed (step : Quiet s s') (backed : Backed s) : Backed s' := by
  intro k held
  exact (backed k ((step.allocated_iff k).mp held)).trans_le step.longer

end Quiet

theorem Backed.stored {s : State} (backed : Backed s) (owns : Owns s.sb.Allocated s.pointers)
    {n : Nat} (allocated : s.sb.InodeAllocated n) : Stored s.sb.dev (s.view n) := by
  intro slot nonzero
  exact backed _ ((owned_of_owns owns allocated).inside slot nonzero)

/-- It is enough that the blocks that pointers name are stored. -/
theorem Backed.of_stored {s : State} (intact : Intact s)
    (stored : ∀ n, s.sb.InodeAllocated n → Stored s.sb.dev (s.view n)) : Backed s := by
  intro k held
  obtain ⟨⟨n, slot⟩, named⟩ := intact.full k held
  have lower := held.1
  have nonzero : s.slots n slot ≠ 0 := by
    change s.pointers (n, slot) ≠ 0
    omega
  by_cases allocated : s.sb.InodeAllocated n
  · have shape := State.slots_eq allocated
    have same : ptr s.sb.dev (s.view n) slot = k := by
      rw [← shape]
      exact named
    rw [shape] at nonzero
    rw [← same]
    exact stored n allocated slot nonzero
  · exact absurd (congrFun (State.slots_free allocated) slot) nonzero

/-- An inode that is untouched while the image grows. -/
theorem Untouched.stored {s s' : State} {n : Nat} (same : Untouched s s' n)
    (before : s.sb.InodeAllocated n) (after : s'.sb.InodeAllocated n)
    (longer : s.sb.dev.nr ≤ s'.sb.dev.nr) (stored : Stored s.sb.dev (s.view n)) :
    Stored s'.sb.dev (s'.view n) := by
  have table : ptr s'.sb.dev (s'.view n) = ptr s.sb.dev (s.view n) := by
    rw [← State.slots_eq after, ← State.slots_eq before, same.slots]
  intro slot nonzero
  rw [table] at nonzero ⊢
  exact (stored slot nonzero).trans_le longer

/-- Blocks given to one inode. -/
theorem Extended.intact {p : Slot → Prop} {n : Nat} {inode inode' : Inode} {s s' : State}
    (step : Extended p n inode s inode' s') (intact : Intact s) (allocated : s.sb.InodeAllocated n)
    (view : inode.dinode = s.view n) : Intact s' := by
  have grows := step.grows intact.owns allocated view
  have same := step.allocated_iff
  have slots : s'.slots n = ptr s'.sb.dev inode'.dinode := by
    rw [State.slots_eq ((same n).mpr allocated), step.view_self allocated.1]
  refine ⟨step.ext.consistent, step.table.ok, grows.owns intact.owns, ?_, ?_,
    step.ext.zeros intact.zeros, ?_, ?_⟩
  · intro k held
    refine (grows.owned ?_ k held).2
    intro k before
    have lower := before.1
    exact ⟨by omega, intact.full k before⟩
  · intro m held
    have before := (same m).mp held
    by_cases here : m = n
    · subst here
      have count := intact.counts m before
      rw [State.slots_eq before, ← view] at count
      rw [slots, step.view_self allocated.1]
      exact step.ext.counted count
    · rw [step.view_other before.1 here, step.slots_other intact.owns allocated view here]
      exact intact.counts m before
  · intro m inside free
    have before : ¬ s.sb.InodeAllocated m := fun held => free ((same m).mpr held)
    have other : m ≠ n := fun here => before (here ▸ allocated)
    rw [step.view_other inside other]
    exact intact.blank m inside before
  · rw [step.ext.inodes]
    exact intact.bits

theorem Extended.untouched {p : Slot → Prop} {n m : Nat} {inode inode' : Inode} {s s' : State}
    (step : Extended p n inode s inode' s') (owns : Owns s.sb.Allocated s.pointers)
    (allocated : s.sb.InodeAllocated n) (view : inode.dinode = s.view n)
    (allocated' : s.sb.InodeAllocated m) (other : m ≠ n) : Untouched s s' m :=
  ⟨step.view_other allocated'.1 other, step.slots_other owns allocated view other,
    step.content_other owns allocated view allocated' other⟩

/-- Writing into one inode leaves the blocks of all others as they are. -/
theorem Extended.backed {p : Slot → Prop} {n : Nat} {inode inode' : Inode} {s s' : State}
    (step : Extended p n inode s inode' s') (intact : Intact s) (allocated : s.sb.InodeAllocated n)
    (view : inode.dinode = s.view n)
    (stored : Stored s.sb.dev inode.dinode → Stored s'.sb.dev inode'.dinode) (backed : Backed s) :
    Backed s' := by
  apply Backed.of_stored (step.intact intact allocated view)
  intro m held
  have before := (step.allocated_iff m).mp held
  have stored' := backed.stored intact.owns before
  by_cases here : m = n
  · subst here
    rw [step.view_self before.1]
    rw [← view] at stored'
    exact stored stored'
  · exact (step.untouched intact.owns allocated view before here).stored before held
      step.ext.longer stored'

end Ece344Lab.Fs
