import Ece344Lab.Fs.Mount
import Ece344Lab.Fs.ReadBlock

set_option autoImplicit false

/- Block addressing in `testfs_read_block`: which numbers lead to a data block, and what becomes of
the others. -/
namespace Ece344Lab.Fs

open Outcome Ownership

section Numbers

variable (sb : SuperBlock) (d : Dinode) (block : Block)

theorem testfsReadBlock_refuses {log : Nat} (beyond : nrMaxBlock < log) :
    testfsReadBlock sb d log block = .ok (eFBIG, block) :=
  if_pos (Int.ofNat_lt.mpr beyond)

/-- The number behind the last block asks for a page behind the last one. -/
theorem testfsReadBlock_last : testfsReadBlock sb d nrMaxBlock block =
    if 0 < d.iDindirect.toInt then readBlocks sb.dev d.iDindirect.toInt >>= fun _ =>
      .error .undefined
    else .ok (0, Buffer.zero) := by
  have path : indexPath nrMaxBlock = .dindirect 2048 0 := by decide
  rw [testfsReadBlock_follows sb d block (Nat.le_refl _), path]
  rfl

/-- Behind the last block `testfs_read_block` does not return an error. -/
theorem testfsReadBlock_beyond {log : Nat} (beyond : nrMaxBlock ≤ log) {r : Int × Block}
    (run : testfsReadBlock sb d log block = .ok r) : 0 ≤ r.1 := by
  by_cases last : log = nrMaxBlock
  · rw [last, testfsReadBlock_last] at run
    split at run
    · unfold readBlocks at run
      split at run
      · cases run
      · cases run
    · rw [← Except.ok.inj run]
  · rw [testfsReadBlock_refuses sb d block (by omega)] at run
    rw [← Except.ok.inj run]
    change (0 : Int) ≤ eFBIG
    decide

end Numbers

section Callers

/-- The test of `testfs_read_data`: a value that is not negative has left data in `block`. -/
def ReadDataTakes (ret : Int) : Prop := ¬ ret < 0

/-- The tests of `testfs_allocate_block` and of its caller: a value other than zero names a block
that is there already, unless it is negative. -/
def AllocateBlockTakes (ret : Int) : Prop := ret ≠ 0 ∧ ¬ ret < 0

instance (ret : Int) : Decidable (ReadDataTakes ret) := inferInstanceAs (Decidable (¬ ret < 0))

instance (ret : Int) : Decidable (AllocateBlockTakes ret) :=
  inferInstanceAs (Decidable (ret ≠ 0 ∧ ¬ ret < 0))

variable {sb : SuperBlock} {ret : Int} {block found : Block}

/-- `testfs_read_data` copies out of `block` after a value that it takes. -/
theorem readLast_takes {d : Dinode} {oSize : Int} {done : List Byte} {blockNr blockIx size : Nat}
    (inside : blockNr < nrMaxBlock) (fits : blockIx + size ≤ blockSize)
    (run : testfsReadBlock sb d blockNr Buffer.zero = .ok (ret, found))
    (takes : ReadDataTakes ret) :
    readLast sb d oSize done blockNr blockIx size =
      .ok ⟨oSize, done ++ found.slice blockIx size⟩ := by
  unfold readLast
  rw [if_neg (by omega), run, ok_bind]
  dsimp only
  rw [if_neg takes, if_neg (by omega)]

/-- `testfs_allocate_block` returns a value that it takes as the number of the block. -/
theorem testfsAllocateBlock_takes {inode : Inode} {log : Nat} (inside : log < nrMaxBlock)
    (run : testfsReadBlock sb inode.dinode log block = .ok (ret, found))
    (takes : AllocateBlockTakes ret) :
    testfsAllocateBlock sb inode log block = .ok ⟨ret, found, inode, sb⟩ := by
  unfold testfsAllocateBlock
  rw [if_neg (by omega), cAssert_pos (by omega), ok_bind, run, ok_bind]
  dsimp only
  rw [if_pos takes.1]

end Callers

/-- The test at the head of `testfs_read_block`. -/
def Rejected (log : Nat) : Prop := nrMaxBlock < log

section Addressed

variable {sb : SuperBlock} {d : Dinode} {log : Nat} {block : Block}

/-- The run goes along the indices of its number, and all of them are inside their arrays. -/
structure ReachesInside (sb : SuperBlock) (d : Dinode) (log : Nat) (block : Block) : Prop where
  inside : (indexPath log).Inside
  follows : testfsReadBlock sb d log block = (indexPath log).follow sb.dev d
  defined : testfsReadBlock sb d log block ≠ .error .undefined

/-- What is promised of a logical block number. -/
structure Addressed (sb : SuperBlock) (d : Dinode) (log : Nat) (block : Block) : Prop where
  reached : (∃ r, testfsReadBlock sb d log block = .ok r ∧ r.1 < 0) ∨ ReachesInside sb d log block
  apart : ¬ Rejected log → ∀ other, ¬ Rejected other → other ≠ log → indexPath other ≠ indexPath log
  rejected : Rejected log → ∀ r, testfsReadBlock sb d log block = .ok r →
    ¬ ReadDataTakes r.1 ∧ ¬ AllocateBlockTakes r.1

theorem Addressed.below (addressed : Addressed sb d log block) : log < nrMaxBlock := by
  cases addressed.reached with
  | inl failed =>
      obtain ⟨r, run, negative⟩ := failed
      by_contra beyond
      have nonneg := testfsReadBlock_beyond sb d block (Nat.not_lt.mp beyond) run
      omega
  | inr reaches => exact (indexPath_inside_iff log).mp reaches.inside

end Addressed

/-- Block addressing stays in range for the numbers below `NR_MAX_BLOCK`, and for no others. -/
theorem testfsReadBlock_addressed_iff (sb : SuperBlock) (d : Dinode) (logBlockNr : Nat)
    (block : Block) : Addressed sb d logBlockNr block ↔ logBlockNr < nrMaxBlock := by
  constructor
  · exact fun addressed => addressed.below
  · intro below
    have inside := (indexPath_inside_iff logBlockNr).mpr below
    have follows := testfsReadBlock_follows sb d block (Nat.le_of_lt below)
    refine ⟨Or.inr ⟨inside, follows, ?_⟩, fun _ other _ apart same => ?_, fun rejected => ?_⟩
    · have exits : Sat ((indexPath logBlockNr).follow sb.dev d) (fun _ => True) (fun e =>
          e = .exit) :=
        inside.exits
      intro undefined
      rw [← follows, undefined] at exits
      cases exits
    · exact apart (indexPath_injective same)
    · exact absurd rejected (Nat.lt_asymm below)

/-- A file whose only block is the one behind `i_dindirect`. -/
def oneIndex : Dinode :=
  { Dinode.zero with iType := InodeType.file.code, iDindirect := 146, blockCount := 1 }

theorem ptr_oneIndex (dev : Device) (blank : dev.block 146 = Buffer.zero) :
    ptr dev oneIndex = Function.update (fun _ => 0) .dindirect 146 := by
  have page : ∀ i : Nat, indexEntry dev 146 i = 0 := by
    intro i
    rw [indexEntry_of_ne_zero dev 146 i (by decide), blank, Buffer.getInt_zero]
    rfl
  funext s
  cases s with
  | direct i => rfl
  | indirect => rfl
  | entry i => rfl
  | dindirect => rfl
  | page i => exact page i
  | dentry i j =>
      change indexEntry dev (indexEntry dev 146 i) j = 0
      rw [page i, indexEntry_zero]

/-- The file on a new device, where block 146 has been taken for it and holds no pointers yet. -/
theorem fresh_oneIndex : ∃ start, freshSuperBlock 1 = .ok start ∧
    ∃ sb, sb = (start.taken 146).written 146 Buffer.zero ∧ Consistent sb ∧ Owned sb oneIndex ∧
      146 < sb.dev.nr := by
  obtain ⟨start, made, blank⟩ := freshSuperBlock_eq 1 (by decide)
  have ok := blank.consistent.taken 146 (by decide) (by decide) (blank.clear 146)
    (by rw [blank.free]; decide)
  have used := (start.allocated_taken 146 (by decide) (by decide) 146).mpr (Or.inr rfl)
  refine ⟨start, made, _, rfl, ok.written _ _ (by decide), ?_, ?_⟩
  · rw [Owned, ptr_oneIndex _ (by rw [SuperBlock.block_written, if_pos rfl])]
    exact .single _ 146 used
  · rw [SuperBlock.nr_written]
    omega

/-- Number 4196362 makes `testfs_read_block` read behind the end of the double indirect block, and
number 4196363 makes it return 27, which both callers take for a block. -/
theorem read_block_out_of_range : ∃ start, freshSuperBlock 1 = .ok start ∧
    ∃ sb, sb = (start.taken 146).written 146 Buffer.zero ∧ Consistent sb ∧ Owned sb oneIndex ∧
      indexPath 4196362 = .dindirect 2048 0 ∧ ∀ block,
        testfsReadBlock sb oneIndex (4196362 : Nat) block = .error .undefined ∧
        ¬ Addressed sb oneIndex 4196362 block ∧
        testfsReadBlock sb oneIndex (4196363 : Nat) block = .ok (27, block) ∧
        ReadDataTakes 27 ∧ AllocateBlockTakes 27 ∧ ¬ Addressed sb oneIndex 4196363 block := by
  obtain ⟨start, made, sb, written, ok, owned, room⟩ := fresh_oneIndex
  refine ⟨start, made, sb, written, ok, owned, by decide, fun block => ⟨?_, fun addressed => ?_,
    testfsReadBlock_refuses sb _ block (by decide), by decide, by decide, fun addressed => ?_⟩⟩
  · have last := testfsReadBlock_last sb oneIndex block
    have present : 0 < oneIndex.iDindirect.toInt := by decide
    have value : oneIndex.iDindirect.toInt = (146 : Nat) := by decide
    rw [if_pos present, value, readBlocks_of_lt _ 146 room, ok_bind] at last
    exact last
  · exact absurd addressed.below (by decide)
  · exact absurd addressed.below (by decide)

end Ece344Lab.Fs
