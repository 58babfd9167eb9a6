import Ece344Lab.Fs.AllocateBlock
import Ece344Lab.Fs.Mount

set_option autoImplicit false

/- What a failed `testfs_allocate_block` leaves behind. -/
namespace Ece344Lab.Fs

open Outcome Ownership

/-- The pointers and the count of the inode, the index blocks that can be reached, the block freemap
and the counter of used blocks are as they were. -/
structure AsBefore (sb : SuperBlock) (inode : Inode) (sb' : SuperBlock)
    (inode' : Inode) : Prop where
  direct : inode'.dinode.iBlockNr = inode.dinode.iBlockNr
  indirect : inode'.dinode.iIndirect = inode.dinode.iIndirect
  dindirect : inode'.dinode.iDindirect = inode.dinode.iDindirect
  blockCount : inode'.dinode.blockCount = inode.dinode.blockCount
  index : ∀ s : Slot, s.index = true → ptr sb.dev inode.dinode s ≠ 0 →
    sb'.dev.block (ptr sb.dev inode.dinode s) = sb.dev.block (ptr sb.dev inode.dinode s)
  freemap : sb'.blockFreemap = sb.blockFreemap
  used : sb'.sb.usedBlockCount = sb.sb.usedBlockCount

/-- The last free block goes to an index block, so that there is none for what comes behind it: it
would be the single-indirect block, or the double-indirect block. -/
def LastForIndex (sb : SuperBlock) (inode : Inode) (log : Nat) : Prop :=
  sb.free = 1 ∧ ((10 ≤ log ∧ log < 2058 ∧ inode.dinode.iIndirect = 0) ∨
    (2058 ≤ log ∧ inode.dinode.iDindirect = 0))

section Failures

variable {sb sb' : SuperBlock} {inode : Inode}

theorem AsBefore.failed (sb : SuperBlock) (inode : Inode) : AsBefore sb inode sb.failed inode :=
  ⟨rfl, rfl, rfl, rfl, fun _ _ _ => rfl, rfl, rfl⟩

theorem AsBefore.of_undone (owned : Owned sb inode.dinode) (undone : Undone sb sb')
    (freemap : sb'.blockFreemap = sb.blockFreemap) :
    AsBefore sb inode sb' { inode with dirty := true } := by
  refine ⟨rfl, rfl, rfl, rfl, ?_, freemap, ?_⟩
  · intro s _ nonzero
    have range := (owned.range nonzero).1
    exact undone.block _ (by omega) (Or.inr (owned.inside s nonzero))
  · rw [undone.counts]

theorem SuperBlock.Next.freemap {n : Nat} (next : sb.Next n) :
    (sb.blockFreemap.mark (n - 146)).unmark (n - 146) = sb.blockFreemap := by
  apply Bitmap.unmark_mark
  have clear := next.clear
  unfold SuperBlock.Allocated at clear
  rw [Bool.eq_false_iff]
  exact fun set => clear ⟨next.lower, next.upper, set⟩

theorem pointer_ne_zero {n : Nat} (next : sb.Next n) : pointer n ≠ 0 := by
  intro zero
  have number := toNat_pointer n next.upper
  have lower := next.lower
  rw [zero] at number
  change 0 = n at number
  omega

/-- The ways out of one branch: failures change nothing, except when the last block went to an
index block. -/
def Undoes (sb : SuperBlock) (inode : Inode) (last : Prop) (r : BlockResult) : Prop :=
  (last ∧ r.ret < 0 ∧ ¬ AsBefore sb inode r.sb r.inode) ∨
    (¬ last ∧ (r.ret < 0 → AsBefore sb inode r.sb r.inode))

/-- No block is reached through an index block that is not there. -/
theorem LastForIndex.absent {log : Nat} (last : LastForIndex sb inode log)
    (inside : log < nrMaxBlock) :
    ∀ t ∈ path (leaf log), ptr sb.dev inode.dinode t = 0 := by
  have bound : log < 4196362 := inside
  intro t member
  rcases last.2 with single | double
  · obtain ⟨lower, upper, none⟩ := single
    have zero : ptr sb.dev inode.dinode .indirect = 0 := by
      change inode.dinode.iIndirect.toNat = 0
      rw [none]
      rfl
    rw [leaf_entry log lower upper] at member
    have cases : t = .indirect ∨ t = .entry ⟨log - 10, by omega⟩ := by
      simpa [path] using member
    cases cases with
    | inl same => rw [same, zero]
    | inr same =>
        rw [same]
        change indexEntry sb.dev inode.dinode.iIndirect.toNat _ = 0
        rw [none]
        rfl
  · obtain ⟨lower, none⟩ := double
    have zero : ∀ i, indexEntry sb.dev inode.dinode.iDindirect.toNat i = 0 := by
      intro i
      rw [none]
      rfl
    rw [leaf_dentry log lower bound] at member
    simp only [path, List.mem_cons, List.not_mem_nil, or_false] at member
    rcases member with same | same | same
    · rw [same]
      change inode.dinode.iDindirect.toNat = 0
      rw [none]
      rfl
    · rw [same]
      exact zero _
    · rw [same]
      change indexEntry sb.dev (indexEntry sb.dev inode.dinode.iDindirect.toNat _) _ = 0
      rw [zero]
      rfl

theorem not_lastForIndex_direct {log : Nat} {i : Fin 10} (inside : log < 4196362)
    (shape : leaf log = .direct i) : ¬ LastForIndex sb inode log := by
  have range := range_of_leaf_direct inside shape
  intro last
  rcases last.2 with single | double
  · omega
  · omega

theorem lastForIndex_entry {log : Nat} {i : Fin 2048} (inside : log < 4196362)
    (shape : leaf log = .entry i) :
    LastForIndex sb inode log ↔ sb.free = 1 ∧ inode.dinode.iIndirect = 0 := by
  have range := range_of_leaf_entry inside shape
  unfold LastForIndex
  constructor
  · intro last
    rcases last with ⟨one, single | double⟩
    · exact ⟨one, single.2.2⟩
    · omega
  · exact fun last => ⟨last.1, Or.inl ⟨range.1, range.2, last.2⟩⟩

theorem lastForIndex_dentry {log : Nat} {i j : Fin 2048} (inside : log < 4196362)
    (shape : leaf log = .dentry i j) :
    LastForIndex sb inode log ↔ sb.free = 1 ∧ inode.dinode.iDindirect = 0 := by
  have range := range_of_leaf_dentry inside shape
  unfold LastForIndex
  constructor
  · intro last
    rcases last with ⟨one, single | double⟩
    · omega
    · exact ⟨one, double.2⟩
  · exact fun last => ⟨last.1, Or.inr ⟨range, last.2⟩⟩

theorem Undoes.of_block {last : Prop} {n : Nat} {block : Block} {inode' : Inode} (other : ¬ last) :
    Undoes sb inode last ⟨n, block, inode', sb'⟩ :=
  Or.inr ⟨other, fun error => absurd error (pointer_nonneg n)⟩

theorem Undoes.of_error {last : Prop} {r : BlockResult} (other : ¬ last)
    (before : AsBefore sb inode r.sb r.inode) : Undoes sb inode last r :=
  Or.inr ⟨other, fun _ => before⟩

theorem BlockOutcome.undoes {log : Nat} {block : Block} {r : BlockResult} (ok : Consistent sb)
    (owned : Owned sb inode.dinode) (inside : log < 4196362)
    (outcome : BlockOutcome sb inode block (leaf log) r) :
    Undoes sb inode (LastForIndex sb inode log) r := by
  have error : -eNOSPC < 0 := by decide
  generalize shape : leaf log = s at outcome
  cases outcome with
  | held present _ =>
      exact .of_block fun last => present (shape ▸ last.absent inside _ (mem_path _))
  | full absent none =>
      refine .of_error (fun last => ?_) (.failed sb inode)
      have one := last.1
      omega
  | direct _ next => exact .of_block (not_lastForIndex_direct inside shape)
  | entry _ present next =>
      refine .of_block fun last => present ?_
      exact (toNat_eq_zero _).mpr ((lastForIndex_entry inside shape).mp last).2
  | indirect _ _ next next' =>
      refine .of_block fun last => ?_
      have one := last.1
      have count := next.free
      have room := next'.room
      omega
  | stranded _ missing next none =>
      have count := next.free
      refine Or.inl ⟨(lastForIndex_entry inside shape).mpr ⟨by omega, missing⟩, error,
        fun before => ?_⟩
      exact pointer_ne_zero next (before.indirect.trans missing)
  | dentry _ _ present next =>
      have present' : ptr sb.dev inode.dinode .dindirect ≠ 0 :=
        ptr_path_ne_zero present (by simp [path])
      refine .of_block fun last => present' ?_
      exact (toNat_eq_zero _).mpr ((lastForIndex_dentry inside shape).mp last).2
  | page _ _ present next next' =>
      refine .of_block fun last => present ?_
      exact (toNat_eq_zero _).mpr ((lastForIndex_dentry inside shape).mp last).2
  | pageBack _ _ present next none =>
      have range := owned.range present
      have undone := (next.undone ok).written (ptr sb.dev inode.dinode .dindirect) _ (by omega) rfl
      refine .of_error (fun last => present ?_) (.of_undone owned undone next.freemap)
      exact (toNat_eq_zero _).mpr ((lastForIndex_dentry inside shape).mp last).2
  | dindirect _ _ next next' next'' =>
      refine .of_block fun last => ?_
      have one := last.1
      have count := next.free
      have room := next'.room
      omega
  | @bothBack _ _ q p _ _ next next' none =>
      have undone := next'.undone (next.consistent ok)
      refine .of_error (fun last => ?_) (.of_undone owned (undone.around next ok _) ?_)
      · have one := last.1
        have count := next.free
        have room := next'.room
        omega
      · change ((((sb.blockFreemap.mark _).mark _).unmark _).unmark _) = _
        have inner : ((sb.blockFreemap.mark (q - 146)).mark (p - 146)).unmark (p - 146) =
            sb.blockFreemap.mark (q - 146) := next'.freemap
        rw [inner, next.freemap]
  | kept _ missing next none =>
      have count := next.free
      refine Or.inl ⟨(lastForIndex_dentry inside shape).mpr ⟨by omega, missing⟩, error,
        fun before => ?_⟩
      exact pointer_ne_zero next (before.dindirect.trans missing)

theorem testfsAllocateBlock_undoes (sb : SuperBlock) (inode : Inode) (log : Nat) (block : Block)
    (ok : Consistent sb) (owned : Owned sb inode.dinode) (inside : log < nrMaxBlock) :
    Sat (testfsAllocateBlock sb inode log block) (Undoes sb inode (LastForIndex sb inode log))
      (fun _ => True) :=
  (testfsAllocateBlock_outcome sb inode log block ok owned inside).mono
    (fun _ outcome => outcome.undoes ok owned inside) fun _ _ => trivial

end Failures

/-- A failed allocation leaves everything as it was, unless the last free block has gone to an index
block that the inode did not have. -/
theorem testfsAllocateBlock_atomic (sb : SuperBlock) (inode : Inode) (log : Nat) (block : Block)
    (ok : Consistent sb) (owned : Owned sb inode.dinode) (inside : log < nrMaxBlock) :
    Sat (testfsAllocateBlock sb inode log block)
      (fun r => r.ret < 0 → AsBefore sb inode r.sb r.inode) (fun _ => True) ↔
      ¬ LastForIndex sb inode log := by
  have spec := testfsAllocateBlock_undoes sb inode log block ok owned inside
  constructor
  · intro atomic last
    have stops := testfsAllocateBlock_sat sb inode log block ok owned inside
    cases run : testfsAllocateBlock sb inode log block with
    | error e =>
        rw [run] at stops
        obtain ⟨_, t, member, nonzero, _⟩ := stops
        exact nonzero (last.absent inside t member)
    | ok r =>
        rw [run] at spec atomic
        rcases spec with fails | undoes
        · exact fails.2.2 (atomic fails.2.1)
        · exact undoes.1 last
  · intro several
    apply spec.weaken
    intro r undoes
    rcases undoes with fails | undoes
    · exact absurd fails.1 several
    · exact undoes.2

def emptyFile : Inode := { dinode := Dinode.zero, dirty := false, iNr := 0, iCount := 1 }

theorem emptyFile_owned (sb : SuperBlock) : Owned sb emptyFile.dinode := by
  have none : ptr sb.dev emptyFile.dinode = fun _ => 0 := by
    funext s
    exact ptr_zero sb.dev s
  constructor
  · intro s nonzero
    exact absurd (congrFun none s) nonzero
  · intro s _ nonzero
    exact absurd (congrFun none s) nonzero

/-- No part of an empty file lies behind the end of the image. -/
theorem testfsAllocateBlock_emptyFile {sb : SuperBlock} (ok : Consistent sb) {log : Nat}
    (inside : log < nrMaxBlock) : ∃ r, testfsAllocateBlock sb emptyFile log Buffer.zero = .ok r ∧
      BlockOutcome sb emptyFile (fileBlock sb.dev emptyFile.dinode log) (leaf log) r := by
  have owned := emptyFile_owned sb
  have stops := testfsAllocateBlock_sat sb emptyFile log Buffer.zero ok owned inside
  have spec := testfsAllocateBlock_outcome sb emptyFile log Buffer.zero ok owned inside
  cases run : testfsAllocateBlock sb emptyFile log Buffer.zero with
  | error e =>
      rw [run] at stops
      obtain ⟨_, t, _, nonzero, _⟩ := stops
      exact absurd (ptr_zero sb.dev t) nonzero
  | ok r =>
      rw [run] at spec
      exact ⟨r, rfl, spec⟩

/-- The first block of the second level needs three. -/
theorem BlockOutcome.negative {sb : SuperBlock} {i j : Fin 2048} {block : Block} {r : BlockResult}
    (outcome : BlockOutcome sb emptyFile block (.dentry i j) r) (few : sb.free < 3) :
    r.ret < 0 := by
  have null := ptr_zero sb.dev
  have error : -eNOSPC < 0 := by decide
  cases outcome with
  | held present _ => exact absurd (null _) present
  | full _ _ | pageBack _ _ _ _ _ | bothBack _ _ _ _ _ | kept _ _ _ _ => exact error
  | dentry _ _ present _ => exact absurd (null _) present
  | page _ _ present _ _ => exact absurd (null _) present
  | dindirect _ _ next next' next'' =>
      have count := next.free
      have count' := next'.free
      have room := next''.room
      omega

/-- With two blocks left the first block behind the single-indirect ones cannot be had. Both index
blocks are given back. -/
theorem testfsAllocateBlock_atomic_two : ∃ sb r, freshSuperBlock 2 = .ok sb ∧
    testfsAllocateBlock sb emptyFile 2058 Buffer.zero = .ok r ∧ r.ret < 0 ∧
    Sat (testfsAllocateBlock sb emptyFile 2058 Buffer.zero)
      (fun r => r.ret < 0 → AsBefore sb emptyFile r.sb r.inode) (fun _ => True) := by
  obtain ⟨sb, made, blank⟩ := freshSuperBlock_eq 2 (by decide)
  have free := blank.free
  obtain ⟨r, run, outcome⟩ := testfsAllocateBlock_emptyFile blank.consistent
    (show 2058 < nrMaxBlock by decide)
  rw [leaf_dentry 2058 (by decide) (by decide)] at outcome
  refine ⟨sb, r, made, run, outcome.negative (by omega), (testfsAllocateBlock_atomic sb emptyFile
    2058 Buffer.zero blank.consistent (emptyFile_owned sb) (by decide)).mpr fun last => ?_⟩
  exact absurd (free.symm.trans last.1) (by decide)

/-- With one block left, the first block behind the direct ones and the first one behind the
single-indirect ones. -/
theorem last_block_for_index : ∃ sb, freshSuperBlock 1 = .ok sb ∧ Consistent sb ∧
    Owned sb emptyFile.dinode ∧ ∀ log ∈ ([10, 2058] : List Nat), ∃ r,
      testfsAllocateBlock sb emptyFile log Buffer.zero = .ok r ∧ r.ret < 0 ∧
        ¬ AsBefore sb emptyFile r.sb r.inode := by
  obtain ⟨sb, made, blank⟩ := freshSuperBlock_eq 1 (by decide)
  have owned := emptyFile_owned sb
  refine ⟨sb, made, blank.consistent, owned, fun log member => ?_⟩
  have cases : log = 10 ∨ log = 2058 := by simpa using member
  have inside : log < 4196362 := by omega
  have last : LastForIndex sb emptyFile log := by
    refine ⟨blank.free, ?_⟩
    cases cases with
    | inl single => exact Or.inl ⟨by omega, by omega, rfl⟩
    | inr double => exact Or.inr ⟨by omega, rfl⟩
  obtain ⟨r, run, outcome⟩ := testfsAllocateBlock_emptyFile blank.consistent inside
  rcases outcome.undoes blank.consistent owned inside with fails | undoes
  · exact ⟨r, run, fails.2⟩
  · exact absurd last undoes.1

end Ece344Lab.Fs
