import Ece344Lab.Fs.ReadWrite

set_option autoImplicit false

/- The indices that `testfs_read_block` splits a logical block number into, and the way they lead to
a data block. -/
namespace Ece344Lab.Fs

open Outcome

/-- The indices that lead to a data block: one into `i_block_nr`, one into the block behind
`i_indirect`, or one into the block behind `i_dindirect` and one into the page found there. -/
inductive IndexPath
  | direct (i : Nat)
  | indirect (i : Nat)
  | dindirect (pgNum offset : Nat)
  deriving DecidableEq, Repr

/-- The subtractions and divisions of `testfs_read_block`. -/
def indexPath (logBlockNr : Nat) : IndexPath :=
  if logBlockNr < nrDirectBlocks then .direct logBlockNr
  else
    let log := logBlockNr - nrDirectBlocks
    if nrIndirectBlocks ≤ log then
      let log := log - nrIndirectBlocks
      .dindirect (log / addrSize) (log % addrSize)
    else .indirect log

/-- The element at index `i` of the index block that `table` names, handed to `next`. Where there
is no index block, `absent` is returned. -/
def throughIndex (dev : Device) (table : BitVec 32) (absent : Int) (i : Nat)
    (next : BitVec 32 → Except Halt (Int × Block)) : Except Halt (Int × Block) :=
  if 0 < table.toInt then do
    let entries ← readBlocks dev table.toInt
    let entry ← intAt entries i
    next entry
  else .ok (absent, Buffer.zero)

namespace IndexPath

/-- Every index is inside its array. -/
def Inside : IndexPath → Prop
  | direct i => i < nrDirectBlocks
  | indirect i => i < nrIndirectBlocks
  | dindirect pgNum offset => pgNum < nrIndirectBlocks ∧ offset < nrIndirectBlocks

/-- The data block at the end of a path. An index outside of its array has no defined effect. -/
def follow (dev : Device) (d : Dinode) : IndexPath → Except Halt (Int × Block)
  | direct i =>
    if inside : i < nrDirectBlocks then readPointer dev (d.iBlockNr ⟨i, inside⟩)
    else .error .undefined
  | indirect i => throughIndex dev d.iIndirect 0 i (readPointer dev)
  | dindirect pgNum offset =>
    throughIndex dev d.iDindirect 0 pgNum fun page =>
      throughIndex dev page page.toInt offset (readPointer dev)

end IndexPath

theorem indexPath_direct {log : Nat} (low : log < 10) : indexPath log = .direct log :=
  if_pos low

theorem indexPath_indirect {log : Nat} (low : 10 ≤ log) (high : log < 2058) :
    indexPath log = .indirect (log - 10) := by
  have single : ¬ nrIndirectBlocks ≤ log - nrDirectBlocks := by
    change ¬ 2048 ≤ log - 10
    omega
  unfold indexPath
  rw [if_neg (show ¬ log < 10 by omega)]
  exact if_neg single

theorem indexPath_dindirect {log : Nat} (low : 2058 ≤ log) :
    indexPath log = .dindirect ((log - 2058) / 2048) ((log - 2058) % 2048) := by
  have double : nrIndirectBlocks ≤ log - nrDirectBlocks := by
    change 2048 ≤ log - 10
    omega
  have shift : log - nrDirectBlocks - nrIndirectBlocks = log - 2058 := by
    change log - 10 - 2048 = _
    omega
  unfold indexPath
  rw [if_neg (show ¬ log < 10 by omega)]
  dsimp only
  rw [if_pos double, shift]
  rfl

theorem range_cases (log : Nat) : log < 10 ∨ 10 ≤ log ∧ log < 2058 ∨ 2058 ≤ log := by
  omega

/-- The first number whose page does not exist is the size of the largest file in blocks. -/
theorem indexPath_inside_iff (log : Nat) : (indexPath log).Inside ↔ log < nrMaxBlock := by
  change _ ↔ log < 4196362
  rcases range_cases log with low | ⟨low, high⟩ | low
  · rw [indexPath_direct low]
    change log < 10 ↔ _
    omega
  · rw [indexPath_indirect low high]
    change log - 10 < 2048 ↔ _
    omega
  · rw [indexPath_dindirect low]
    change (log - 2058) / 2048 < 2048 ∧ (log - 2058) % 2048 < 2048 ↔ _
    omega

/-- A number can be put together again from its indices. -/
theorem indexPath_injective {left right : Nat} (same : indexPath left = indexPath right) :
    left = right := by
  rcases range_cases left with low | ⟨low, high⟩ | low <;>
    rcases range_cases right with low' | ⟨low', high'⟩ | low'
  · rw [indexPath_direct low, indexPath_direct low'] at same
    exact IndexPath.direct.inj same
  · rw [indexPath_direct low, indexPath_indirect low' high'] at same
    cases same
  · rw [indexPath_direct low, indexPath_dindirect low'] at same
    cases same
  · rw [indexPath_indirect low high, indexPath_direct low'] at same
    cases same
  · rw [indexPath_indirect low high, indexPath_indirect low' high'] at same
    have equal := IndexPath.indirect.inj same
    omega
  · rw [indexPath_indirect low high, indexPath_dindirect low'] at same
    cases same
  · rw [indexPath_dindirect low, indexPath_direct low'] at same
    cases same
  · rw [indexPath_dindirect low, indexPath_indirect low' high'] at same
    cases same
  · rw [indexPath_dindirect low, indexPath_dindirect low'] at same
    obtain ⟨page, offset⟩ := IndexPath.dindirect.inj same
    omega

theorem intAt_of_lt (block : Block) {i : Nat} (inside : i < 2048) :
    intAt block i = .ok (block.getInt i) :=
  if_pos inside

section Follow

variable {dev : Device} {d : Dinode}

theorem follow_direct {i : Nat} (inside : i < 10) :
    (IndexPath.direct i).follow dev d = readPointer dev (d.iBlockNr ⟨i, inside⟩) :=
  dif_pos inside

/-- Only a block behind the end of the image keeps a pointer from being read. -/
theorem readPointer_exits (w : BitVec 32) :
    Sat (readPointer dev w) (fun _ => True) (fun e => e = .exit) := by
  unfold readPointer readBlocks
  split
  · split <;> trivial
  · trivial

theorem throughIndex_exits {table : BitVec 32} {absent : Int} {i : Nat}
    {next : BitVec 32 → Except Halt (Int × Block)} (inside : i < 2048)
    (rest : ∀ entry, Sat (next entry) (fun _ => True) (fun e => e = .exit)) :
    Sat (throughIndex dev table absent i next) (fun _ => True) (fun e => e = .exit) := by
  unfold throughIndex
  split
  · unfold readBlocks
    split
    · rw [ok_bind, intAt_of_lt _ inside, ok_bind]
      exact rest _
    · rfl
  · trivial

/-- On a path whose indices are inside their arrays nothing is undefined. -/
theorem IndexPath.Inside.exits {path : IndexPath} (inside : path.Inside) :
    Sat (path.follow dev d) (fun _ => True) (fun e => e = .exit) := by
  cases path with
  | direct i =>
      rw [follow_direct inside]
      exact readPointer_exits _
  | indirect i => exact throughIndex_exits inside readPointer_exits
  | dindirect pgNum offset =>
      exact throughIndex_exits inside.1 fun _ => throughIndex_exits inside.2 readPointer_exits

end Follow

/-- A number that passes the test of `testfs_read_block` goes the way of its indices. -/
theorem testfsReadBlock_follows (sb : SuperBlock) (d : Dinode) (block : Block) {log : Nat}
    (accepted : log ≤ nrMaxBlock) :
    testfsReadBlock sb d log block = (indexPath log).follow sb.dev d := by
  unfold testfsReadBlock
  rw [if_neg (by omega), cAssert_pos (by omega), ok_bind,
    Int.toNat_natCast]
  rcases range_cases log with low | ⟨low, high⟩ | low
  · rw [dif_pos low, indexPath_direct low, follow_direct low]
  · have single : ¬ nrIndirectBlocks ≤ log - nrDirectBlocks := by
      change ¬ 2048 ≤ log - 10
      omega
    rw [dif_neg (show ¬ log < 10 by omega), if_neg single, indexPath_indirect low high]
    rfl
  · have double : nrIndirectBlocks ≤ log - nrDirectBlocks := by
      change 2048 ≤ log - 10
      omega
    have shift : log - nrDirectBlocks - nrIndirectBlocks = log - 2058 := by
      change log - 10 - 2048 = _
      omega
    rw [dif_neg (show ¬ log < 10 by omega), if_pos double, indexPath_dindirect low, shift]
    rfl

end Ece344Lab.Fs
