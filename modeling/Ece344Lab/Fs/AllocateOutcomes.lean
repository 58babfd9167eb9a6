import Ece344Lab.Fs.Extends

set_option autoImplicit false

/- `testfs_allocate_block`: what is taken, written and given back on each way out. -/
namespace Ece344Lab.Fs

open Outcome Ownership

/-- The ways out of `testfs_allocate_block`, for the slot of the logical block. -/
inductive BlockOutcome (sb : SuperBlock) (inode : Inode) (block : Block) : Slot → BlockResult → Prop
  | held {s : Slot} (present : ptr sb.dev inode.dinode s ≠ 0)
    (whole : ¬ Cut sb.dev inode.dinode s) :
      BlockOutcome sb inode block s ⟨ptr sb.dev inode.dinode s, block, inode, sb⟩
  | full {s : Slot} (absent : ptr sb.dev inode.dinode s = 0) (none : sb.free = 0) :
      BlockOutcome sb inode block s ⟨-eNOSPC, block, inode, sb.failed⟩
  | direct {i : Fin 10} {n : Nat} (absent : ptr sb.dev inode.dinode (.direct i) = 0)
    (next : sb.Next n) :
      BlockOutcome sb inode block (.direct i) ⟨n, block,
        { inode.charged with dinode.iBlockNr := fun j =>
          if j = i then pointer n else inode.charged.dinode.iBlockNr j }, sb.taken n⟩
  | entry {i : Fin 2048} {n : Nat} (absent : ptr sb.dev inode.dinode (.entry i) = 0)
      (present : ptr sb.dev inode.dinode .indirect ≠ 0) (next : sb.Next n) :
      BlockOutcome sb inode block (.entry i) ⟨n, block, inode.charged,
        (sb.taken n).written (ptr sb.dev inode.dinode .indirect)
          ((sb.dev.block (ptr sb.dev inode.dinode .indirect)).setInt i (pointer n))⟩
  | indirect {i : Fin 2048} {m n : Nat} (absent : ptr sb.dev inode.dinode (.entry i) = 0)
      (missing : inode.dinode.iIndirect = 0) (next : sb.Next m) (next' : (sb.taken m).Next n) :
      BlockOutcome sb inode block (.entry i) ⟨n, block, (inode.charged.setIndirect m).charged,
        ((sb.taken m).taken n).written m (Buffer.zero.setInt i (pointer n))⟩
  -- the block is given back, and the inode still names it
  | stranded {i : Fin 2048} {m : Nat} (absent : ptr sb.dev inode.dinode (.entry i) = 0)
      (missing : inode.dinode.iIndirect = 0) (next : sb.Next m) (none : (sb.taken m).free = 0) :
      BlockOutcome sb inode block (.entry i) ⟨-eNOSPC, block,
        (inode.charged.setIndirect m).refunded, (sb.taken m).failed.released m⟩
  | dentry {i j : Fin 2048} {n : Nat} (absent : ptr sb.dev inode.dinode (.dentry i j) = 0)
      (stored : ptr sb.dev inode.dinode .dindirect < sb.dev.nr)
      (present : ptr sb.dev inode.dinode (.page i) ≠ 0) (next : sb.Next n) :
      BlockOutcome sb inode block (.dentry i j) ⟨n, block, inode.charged,
        (sb.taken n).written (ptr sb.dev inode.dinode (.page i))
          ((sb.dev.block (ptr sb.dev inode.dinode (.page i))).setInt j (pointer n))⟩
  | page {i j : Fin 2048} {p n : Nat} (absent : ptr sb.dev inode.dinode (.dentry i j) = 0)
      (null : ptr sb.dev inode.dinode (.page i) = 0)
        (present : ptr sb.dev inode.dinode .dindirect ≠ 0)
      (next : sb.Next p) (next' : (sb.taken p).Next n) :
      BlockOutcome sb inode block (.dentry i j) ⟨n, block, inode.charged.charged,
        (((sb.taken p).taken n).written p (Buffer.zero.setInt j (pointer n))).written
          (ptr sb.dev inode.dinode .dindirect)
          ((sb.dev.block (ptr sb.dev inode.dinode .dindirect)).setInt i (pointer p))⟩
  -- the page is given back, and the double-indirect block is written as it was
  | pageBack {i j : Fin 2048} {p : Nat} (absent : ptr sb.dev inode.dinode (.dentry i j) = 0)
      (null : ptr sb.dev inode.dinode (.page i) = 0)
        (present : ptr sb.dev inode.dinode .dindirect ≠ 0)
      (next : sb.Next p) (none : (sb.taken p).free = 0) :
      BlockOutcome sb inode block (.dentry i j) ⟨-eNOSPC, block, { inode with dirty := true },
        ((sb.taken p).failed.released p).written (ptr sb.dev inode.dinode .dindirect)
          (sb.dev.block (ptr sb.dev inode.dinode .dindirect))⟩
  | dindirect {i j : Fin 2048} {q p n : Nat} (absent : ptr sb.dev inode.dinode (.dentry i j) = 0)
      (missing : inode.dinode.iDindirect = 0) (next : sb.Next q) (next' : (sb.taken q).Next p)
      (next'' : ((sb.taken q).taken p).Next n) :
      BlockOutcome sb inode block (.dentry i j) ⟨n, block,
        (inode.charged.setDindirect q).charged.charged,
        ((((sb.taken q).taken p).taken n).written p (Buffer.zero.setInt j (pointer n))).written q
          (Buffer.zero.setInt i (pointer p))⟩
  -- both index blocks are given back
  | bothBack {i j : Fin 2048} {q p : Nat} (absent : ptr sb.dev inode.dinode (.dentry i j) = 0)
      (missing : inode.dinode.iDindirect = 0) (next : sb.Next q) (next' : (sb.taken q).Next p)
      (none : ((sb.taken q).taken p).free = 0) :
      BlockOutcome sb inode block (.dentry i j) ⟨-eNOSPC, block, { inode with dirty := true },
        ((((sb.taken q).taken p).failed.released p).written q
          ((Buffer.zero.setInt i (pointer p)).setInt i 0)).released q⟩
  -- the double-indirect block stays with the inode, and nothing is written to it
  | kept {i j : Fin 2048} {q : Nat} (absent : ptr sb.dev inode.dinode (.dentry i j) = 0)
      (missing : inode.dinode.iDindirect = 0) (next : sb.Next q) (none : (sb.taken q).free = 0) :
      BlockOutcome sb inode block (.dentry i j) ⟨-eNOSPC, block, inode.charged.setDindirect q,
        (sb.taken q).failed⟩

theorem charged_refunded (inode : Inode) :
    inode.charged.refunded = { inode with dirty := true } := by
  have count : inode.dinode.blockCount + 1 - 1 = inode.dinode.blockCount :=
    BitVec.add_sub_cancel _ _
  unfold Inode.charged Inode.refunded
  rw [count]

theorem testfsFreeBlockFromInode_pointer {sb : SuperBlock} {n : Nat} (inode : Inode)
    (ok : Consistent sb) (held : sb.Allocated n) :
    testfsFreeBlockFromInode sb inode (pointer n) = .ok (inode.refunded, sb.released n) := by
  have number := toNat_pointer n held.2.1
  have freed := testfsFreeBlockFromInode_eq sb inode (pointer n) ok (number.symm ▸ held)
  rwa [number] at freed

theorem pointer_nonneg (n : Nat) : ¬ (n : Int) < 0 := by omega

variable {sb : SuperBlock} {inode : Inode} {block : Block}

/-- A stored index block is read, or the image ends before it. -/
theorem readIndex_sat {s t : Slot} (member : t ∈ path s)
    (nonzero : ptr sb.dev inode.dinode t ≠ 0) :
    Sat (readBlocks sb.dev (ptr sb.dev inode.dinode t : Nat))
      (fun b =>
        b = sb.dev.block (ptr sb.dev inode.dinode t) ∧ ptr sb.dev inode.dinode t < sb.dev.nr)
      (fun e => e = .exit ∧ Cut sb.dev inode.dinode s) := by
  refine (readBlocks_sat sb.dev _).mono (fun _ spec => spec) fun e spec => ?_
  exact ⟨spec.1, t, member, nonzero, spec.2⟩

theorem allocateIndirect_outcome (ok : Consistent sb) (owned : Owned sb inode.dinode) (i : Fin 2048)
    (absent : ptr sb.dev inode.dinode (.entry i) = 0) :
    Sat (allocateIndirect sb inode i block) (BlockOutcome sb inode block (.entry i))
      (fun e => e = .exit ∧ Cut sb.dev inode.dinode (.entry i)) := by
  have negative : ¬ (0 : Int) ≤ -eNOSPC := by decide
  unfold allocateIndirect
  by_cases missing : inode.dinode.iIndirect = 0
  · simp only [missing, decide_true, ↓reduceIte, true_and]
    apply Sat.bind (testfsAllocBlockForInode_sat sb inode ok).total
    rintro _ (⟨none, rfl⟩ | ⟨m, next, rfl⟩)
    · exact .full absent none
    have ok' := next.consistent ok
    simp only [pointer_nonneg, ↓reduceIte, ok_bind, Buffer.getInt_zero, cAssert_pos]
    apply Sat.bind
      (testfsAllocBlockForInode_sat (sb.taken m) (inode.charged.setIndirect m) ok').total
    rintro _ (⟨none, rfl⟩ | ⟨n, next', rfl⟩)
    · have held : (sb.taken m).failed.Allocated m := (next.allocated m).mpr (Or.inr rfl)
      have freed := testfsFreeBlockFromInode_pointer (inode.charged.setIndirect m) ok'.failed held
      simp only [negative, ↓reduceIte]
      change Sat (testfsFreeBlockFromInode (sb.taken m).failed (inode.charged.setIndirect m)
        (pointer m) >>= _) _ _
      rw [freed, ok_bind]
      exact .stranded absent missing next none
    · simp only [Nat.cast_nonneg, ↓reduceIte, writeBlocks_nat, ok_bind]
      exact .indirect absent missing next next'
  · have present : ptr sb.dev inode.dinode .indirect ≠ 0 := fun zero =>
      missing ((toNat_eq_zero _).mp zero)
    have value : inode.dinode.iIndirect.toInt = (ptr sb.dev inode.dinode .indirect : Nat) :=
      toInt_of_small _ (owned.small .indirect)
    have empty : (sb.dev.block (ptr sb.dev inode.dinode .indirect)).getInt i = 0 := by
      have entry := absent
      rw [show ptr sb.dev inode.dinode (.entry i) =
        indexEntry sb.dev (ptr sb.dev inode.dinode .indirect) i from rfl,
        indexEntry_of_ne_zero _ _ _ present, toNat_eq_zero] at entry
      exact entry
    simp only [missing, decide_false, Bool.false_eq_true, ↓reduceIte, false_and, ok_bind]
    rw [value]
    apply Sat.bind (readIndex_sat (by simp [path]) present)
    rintro _ ⟨rfl, _⟩
    rw [cAssert_pos empty, ok_bind]
    apply Sat.bind (testfsAllocBlockForInode_sat sb inode ok).total
    rintro _ (⟨none, rfl⟩ | ⟨n, next, rfl⟩)
    · exact .full absent none
    · simp only [Nat.cast_nonneg, ↓reduceIte, writeBlocks_nat, ok_bind]
      exact .entry absent present next

theorem allocateDindirect_missing (ok : Consistent sb) {log : Nat} {i j : Fin 2048}
    (row : log / addrSize = i) (column : log % addrSize = j)
    (absent : ptr sb.dev inode.dinode (.dentry i j) = 0) (missing : inode.dinode.iDindirect = 0) :
    Sat (allocateDindirect sb inode log block) (BlockOutcome sb inode block (.dentry i j))
      (fun _ => False) := by
  have negative : ¬ (0 : Int) ≤ -eNOSPC := by decide
  have error : -eNOSPC < 0 := by decide
  unfold allocateDindirect
  simp only [row, column, missing, decide_true, ↓reduceIte, true_and]
  apply Sat.bind (testfsAllocBlockForInode_sat sb inode ok)
  rintro _ (⟨none, rfl⟩ | ⟨q, next, rfl⟩)
  · exact .full absent none
  have ok' := next.consistent ok
  have lower := next.lower
  simp only [pointer_nonneg, ↓reduceIte, ok_bind, Buffer.getInt_zero, decide_true, true_and]
  apply Sat.bind (testfsAllocBlockForInode_sat (sb.taken q) (inode.charged.setDindirect q) ok')
  rintro _ (⟨none, rfl⟩ | ⟨p, next', rfl⟩)
  · simp only [error, ↓reduceIte]
    exact .kept absent missing next none
  have ok'' := next'.consistent ok'
  simp only [pointer_nonneg, ↓reduceIte]
  apply Sat.bind (testfsAllocBlockForInode_sat ((sb.taken q).taken p)
    (inode.charged.setDindirect q).charged ok'')
  rintro _ (⟨none, rfl⟩ | ⟨n, next'', rfl⟩)
  · have held : ((sb.taken q).taken p).failed.Allocated p := (next'.allocated p).mpr (Or.inr rfl)
    have undone := next'.undone ok'
    have held' : ((((sb.taken q).taken p).failed.released p).written q
        ((Buffer.zero.setInt i (pointer p)).setInt i 0)).Allocated q :=
      (undone.allocated q).mpr ((next.allocated q).mpr (Or.inr rfl))
    have freed :=
      testfsFreeBlockFromInode_pointer (inode.charged.setDindirect q).charged ok''.failed held
    have freed' := testfsFreeBlockFromInode_pointer (inode.charged.setDindirect q).charged.refunded
      (undone.consistent.written q _ (by omega)) held'
    have same : ({ (inode.charged.setDindirect q).charged.refunded.refunded with
        dinode.iDindirect := 0 } : Inode) = { inode with dirty := true } := by
      rw [charged_refunded]
      change ({ inode.charged.refunded with dinode.iDindirect := 0 } : Inode) = _
      rw [charged_refunded, ← missing]
    simp only [negative, ↓reduceIte, freed, ok_bind, writeBlocks_nat]
    change Sat (testfsFreeBlockFromInode (SuperBlock.written _ _ _) _ _ >>= _) _ _
    rw [freed', ok_bind]
    simp only [same]
    exact .bothBack absent missing next next' none
  · simp only [Nat.cast_nonneg, ↓reduceIte, writeBlocks_nat, ok_bind]
    exact .dindirect absent missing next next' next''

theorem allocateDindirect_outcome (ok : Consistent sb) (owned : Owned sb inode.dinode) {log : Nat}
    {i j : Fin 2048} (row : log / addrSize = i) (column : log % addrSize = j)
    (absent : ptr sb.dev inode.dinode (.dentry i j) = 0) :
    Sat (allocateDindirect sb inode log block) (BlockOutcome sb inode block (.dentry i j))
      (fun e => e = .exit ∧ Cut sb.dev inode.dinode (.dentry i j)) := by
  have negative : ¬ (0 : Int) ≤ -eNOSPC := by decide
  by_cases missing : inode.dinode.iDindirect = 0
  · exact (allocateDindirect_missing ok row column absent missing).total
  have present : ptr sb.dev inode.dinode .dindirect ≠ 0 := fun zero =>
    missing ((toNat_eq_zero _).mp zero)
  have range := owned.range present
  have value : inode.dinode.iDindirect.toInt = (ptr sb.dev inode.dinode .dindirect : Nat) :=
    toInt_of_small _ (owned.small .dindirect)
  have entry : ptr sb.dev inode.dinode (.page i) =
      ((sb.dev.block (ptr sb.dev inode.dinode .dindirect)).getInt i).toNat :=
    indexEntry_of_ne_zero _ _ _ present
  unfold allocateDindirect
  simp only [row, column, missing, decide_false, Bool.false_eq_true, ↓reduceIte, false_and, ok_bind]
  rw [value]
  apply Sat.bind (readIndex_sat (by simp [path]) present)
  rintro _ ⟨rfl, stored⟩
  by_cases null : (sb.dev.block (ptr sb.dev inode.dinode .dindirect)).getInt i = 0
  · have null' : ptr sb.dev inode.dinode (.page i) = 0 := by
      rw [entry, null]
      rfl
    simp only [null, decide_true, ↓reduceIte, true_and]
    apply Sat.bind (testfsAllocBlockForInode_sat sb inode ok).total
    rintro _ (⟨none, rfl⟩ | ⟨p, next, rfl⟩)
    · exact .full absent none
    have ok' := next.consistent ok
    simp only [pointer_nonneg, ↓reduceIte]
    apply Sat.bind (testfsAllocBlockForInode_sat (sb.taken p) inode.charged ok').total
    rintro _ (⟨none, rfl⟩ | ⟨n, next', rfl⟩)
    · have held : (sb.taken p).failed.Allocated p := (next.allocated p).mpr (Or.inr rfl)
      have freed := testfsFreeBlockFromInode_pointer inode.charged ok'.failed held
      have same : ((sb.dev.block (ptr sb.dev inode.dinode .dindirect)).setInt i
        (pointer p)).setInt i 0 =
          sb.dev.block (ptr sb.dev inode.dinode .dindirect) := by
        rw [Buffer.setInt_setInt, ← null, Buffer.setInt_getInt]
      simp only [negative, ↓reduceIte, freed, ok_bind, writeBlocks_nat, charged_refunded, same]
      exact .pageBack absent null' present next none
    · simp only [Nat.cast_nonneg, ↓reduceIte, writeBlocks_nat, ok_bind]
      exact .page absent null' present next next'
  · have present' : ptr sb.dev inode.dinode (.page i) ≠ 0 := by
      rw [entry, ne_eq, toNat_eq_zero]
      exact null
    have value' : ((sb.dev.block (ptr sb.dev inode.dinode .dindirect)).getInt i).toInt =
        (ptr sb.dev inode.dinode (.page i) : Nat) := by
      rw [entry, toInt_of_small]
      rw [← entry]
      exact owned.small _
    simp only [null, decide_false, Bool.false_eq_true, ↓reduceIte, false_and]
    rw [value']
    apply Sat.bind (readIndex_sat (by simp [path]) present')
    rintro _ ⟨rfl, _⟩
    apply Sat.bind (testfsAllocBlockForInode_sat sb inode ok).total
    rintro _ (⟨none, rfl⟩ | ⟨n, next, rfl⟩)
    · exact .full absent none
    · simp only [Nat.cast_nonneg, ↓reduceIte, writeBlocks_nat, ok_bind]
      exact .dentry absent stored present' next

/-- Every way out of `testfs_allocate_block` for a block number in range. -/
theorem testfsAllocateBlock_outcome (sb : SuperBlock) (inode : Inode) (log : Nat) (block : Block)
    (ok : Consistent sb) (owned : Owned sb inode.dinode) (inside : log < nrMaxBlock) :
    Sat (testfsAllocateBlock sb inode log block)
      (BlockOutcome sb inode (fileBlock sb.dev inode.dinode log) (leaf log))
      (fun e => e = .exit ∧ Cut sb.dev inode.dinode (leaf log)) := by
  have bound : log < 4196362 := inside
  unfold testfsAllocateBlock
  rw [if_neg (by omega), cAssert_pos (by omega), ok_bind]
  apply Sat.bind (testfsReadBlock_sat sb inode.dinode log block owned inside)
  rintro _ ⟨rfl, whole⟩
  simp only [Int.toNat_natCast]
  by_cases present : ptr sb.dev inode.dinode (leaf log) ≠ 0
  · rw [if_pos (by simpa using present)]
    exact .held present whole
  have absent := not_not.mp present
  rw [if_neg (by rw [absent]; simp)]
  by_cases direct : log < 10
  · rw [leaf_direct log direct] at absent ⊢
    have null : inode.dinode.iBlockNr ⟨log, direct⟩ = 0 := (toNat_eq_zero _).mp absent
    rw [dif_pos direct, cAssert_pos null, ok_bind]
    apply Sat.bind (testfsAllocBlockForInode_sat sb inode ok).total
    rintro _ (⟨none, rfl⟩ | ⟨n, next, rfl⟩)
    · exact .full absent none
    · simp only [Nat.cast_nonneg, ↓reduceIte]
      exact .direct absent next
  · rw [dif_neg direct]
    by_cases single : log < 2058
    · rw [if_neg (by change ¬ 2048 ≤ log - 10; omega)]
      rw [leaf_entry log (by omega) single] at absent ⊢
      exact allocateIndirect_outcome ok owned ⟨log - 10, _⟩ absent
    · rw [if_pos (by change 2048 ≤ log - 10; omega)]
      rw [leaf_dentry log (by omega) bound] at absent ⊢
      have shift : log - nrDirectBlocks - nrIndirectBlocks = log - 2058 := by
        change log - 10 - 2048 = _
        omega
      rw [shift]
      exact allocateDindirect_outcome ok owned rfl rfl absent

end Ece344Lab.Fs
