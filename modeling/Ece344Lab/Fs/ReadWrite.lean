import Ece344Lab.Fs.Inode

set_option autoImplicit false

/- `read_write.c`: block addressing, reading, writing and freeing the data of one inode. -/
namespace Ece344Lab.Fs

open Outcome

abbrev nrMaxBlock : Nat :=
  nrDirectBlocks + nrIndirectBlocks + nrIndirectBlocks * nrIndirectBlocks
abbrev addrSize : Nat := blockSize / 4

/-- A C conversion to `int`. -/
def toInt32 (n : Int) : Int := Int.bmod n (2 ^ 32)

/-- A physical block number as it is stored in a pointer. -/
def pointer (n : Int) : BitVec 32 := BitVec.ofInt 32 n

/-- The block behind a pointer, or zeros where a sparse file has none, with the pointer. -/
def readPointer (dev : Device) (phyBlockNr : BitVec 32) : Except Halt (Int × Block) :=
  if 0 < phyBlockNr.toInt then do
    let block ← readBlocks dev phyBlockNr.toInt
    .ok (phyBlockNr.toInt, block)
  else .ok (phyBlockNr.toInt, Buffer.zero)

/-- `((int *) block)[i]` of an index block. There is no element behind the last one. -/
def intAt (block : Block) (i : Nat) : Except Halt (BitVec 32) :=
  if i < nrIndirectBlocks then .ok (block.getInt i) else .error .undefined

/-- `testfs_read_block`: the physical block number and the contents of `block` afterwards. -/
def testfsReadBlock (sb : SuperBlock) (d : Dinode) (logBlockNr : Int) (block : Block) :
    Except Halt (Int × Block) :=
  if (nrMaxBlock : Int) < logBlockNr then .ok (eFBIG, block)
  else do
    cAssert (0 ≤ logBlockNr)
    let log := logBlockNr.toNat
    if direct : log < nrDirectBlocks then readPointer sb.dev (d.iBlockNr ⟨log, direct⟩)
    else
      let log := log - nrDirectBlocks
      if nrIndirectBlocks ≤ log then
        -- for double indirect blocks
        let log := log - nrIndirectBlocks
        let offset := log % addrSize
        let pgNum := log / addrSize
        if 0 < d.iDindirect.toInt then do
          let index ← readBlocks sb.dev d.iDindirect.toInt
          let page ← intAt index pgNum
          if 0 < page.toInt then do
            let entries ← readBlocks sb.dev page.toInt
            let entry ← intAt entries offset
            readPointer sb.dev entry
          else .ok (page.toInt, Buffer.zero)
        else .ok (0, Buffer.zero)
      else if 0 < d.iIndirect.toInt then do
        let entries ← readBlocks sb.dev d.iIndirect.toInt
        let entry ← intAt entries log
        readPointer sb.dev entry
      else .ok (0, Buffer.zero)

/-- The return value and the bytes stored at the front of `buf`. -/
structure ReadResult where
  ret : Int
  stored : List Byte

/-- The part of `testfs_read_data` behind the loop: the last or only block. -/
def readLast (sb : SuperBlock) (d : Dinode) (oSize : Int) (done : List Byte)
    (blockNr blockIx size : Nat) : Except Halt ReadResult :=
  if nrMaxBlock ≤ blockNr then .ok ⟨eFBIG, done⟩
  else do
    let (ret, block) ← testfsReadBlock sb d blockNr Buffer.zero
    if ret < 0 then .ok ⟨ret, done⟩
    else if blockSize < blockIx + size then .error .undefined
    else .ok ⟨oSize, done ++ block.slice blockIx size⟩

/-- The loop of `testfs_read_data`; `done` has been copied to `buf` already. `size` is a
`size_t`, so `block_ix + size` is taken modulo 2^64. -/
def readLoop (sb : SuperBlock) (d : Dinode) (oSize : Int) :
    Nat → List Byte → Nat → Nat → Nat → Except Halt ReadResult
  | 0, _, _, _, _ => .error .diverges
  | fuel + 1, done, blockNr, blockIx, size =>
    if blockSize < (blockIx + size) % 2 ^ 64 then
      if nrMaxBlock ≤ blockNr then .ok ⟨eFBIG, done⟩
      else do
        let remainByte := blockSize - blockIx
        let (ret, block) ← testfsReadBlock sb d blockNr Buffer.zero
        if ret < 0 then .ok ⟨ret, done⟩
        else
          let done := done ++ block.slice blockIx remainByte
          let size := size - remainByte
          if blockSize < size then readLoop sb d oSize fuel done (blockNr + 1) 0 size
          else readLast sb d oSize done (blockNr + 1) 0 size
    else readLast sb d oSize done blockNr blockIx size

/-- `testfs_read_data`. Every caller passes a `start` that is not negative. -/
def testfsReadData (sb : SuperBlock) (d : Dinode) (start size : Nat) : Except Halt ReadResult :=
  let blockNr := start / blockSize
  let blockIx := start % blockSize
  if nrMaxBlock ≤ blockNr then .ok ⟨eFBIG, []⟩
  else
    let oSize := toInt32 size
    let wanted := Int.bmod (start + size) (2 ^ 64)
    let size := if d.size < wanted then ((d.size - start) % 2 ^ 64).toNat else size
    readLoop sb d oSize (nrMaxBlock + 1) [] blockNr blockIx size

/-- The result of `testfs_allocate_block`, with the contents of `block` afterwards. -/
structure BlockResult where
  ret : Int
  block : Block
  inode : Inode
  sb : SuperBlock

/-- The branch of `testfs_allocate_block` for double indirect blocks. -/
def allocateDindirect (sb : SuperBlock) (inode : Inode) (log : Nat) (block : Block) :
    Except Halt BlockResult := do
  let offset := log % addrSize
  let pgNum := log / addrSize
  -- the double indirect block: a new one, or the one the inode has
  let dindirectAllocated : Bool := inode.dinode.iDindirect = 0
  let dp2 ←
    if dindirectAllocated then testfsAllocBlockForInode sb inode
    else .ok ⟨inode.dinode.iDindirect.toInt, inode, sb⟩
  if dindirectAllocated ∧ dp2.ret < 0 then .ok ⟨dp2.ret, block, dp2.inode, dp2.sb⟩
  else
    let inode :=
      if dindirectAllocated then { dp2.inode with dinode.iDindirect := pointer dp2.ret }
      else dp2.inode
    let sb := dp2.sb
    let dp2Index ←
      if dindirectAllocated then .ok Buffer.zero else readBlocks sb.dev dp2.ret
    -- the page of entries
    let newPage : Bool := dp2Index.getInt pgNum = 0
    let dp1 ←
      if newPage then testfsAllocBlockForInode sb inode
      else .ok ⟨(dp2Index.getInt pgNum).toInt, inode, sb⟩
    -- a double indirect block that was allocated above stays with the inode here
    if newPage ∧ dp1.ret < 0 then .ok ⟨dp1.ret, block, dp1.inode, dp1.sb⟩
    else
      let inode := dp1.inode
      let sb := dp1.sb
      let dp1Index ← if newPage then .ok Buffer.zero else readBlocks sb.dev dp1.ret
      let dp2Index := if newPage then dp2Index.setInt pgNum (pointer dp1.ret) else dp2Index
      let phy ← testfsAllocBlockForInode sb inode
      let inode := phy.inode
      let sb := phy.sb
      if 0 ≤ phy.ret then
        let dev ← writeBlocks sb.dev (dp1Index.setInt offset (pointer phy.ret)) dp1.ret
        let dev ← if newPage then writeBlocks dev dp2Index dp2.ret else .ok dev
        .ok ⟨phy.ret, block, inode, { sb with dev := dev }⟩
      else
        let (inode, sb) ←
          if newPage then do
            let (inode, sb) ← testfsFreeBlockFromInode sb inode (pointer dp1.ret)
            let dev ← writeBlocks sb.dev (dp2Index.setInt pgNum 0) dp2.ret
            .ok (inode, { sb with dev := dev })
          else .ok (inode, sb)
        if dindirectAllocated then do
          let (inode, sb) ← testfsFreeBlockFromInode sb inode (pointer dp2.ret)
          .ok ⟨phy.ret, block, { inode with dinode.iDindirect := 0 }, sb⟩
        else .ok ⟨phy.ret, block, inode, sb⟩

/-- The branch of `testfs_allocate_block` for blocks behind `i_indirect`. -/
def allocateIndirect (sb : SuperBlock) (inode : Inode) (log : Nat) (block : Block) :
    Except Halt BlockResult := do
  let indirectAllocated : Bool := inode.dinode.iIndirect = 0
  let own ←
    if indirectAllocated then testfsAllocBlockForInode sb inode
    else .ok ⟨inode.dinode.iIndirect.toInt, inode, sb⟩
  if indirectAllocated ∧ own.ret < 0 then .ok ⟨own.ret, block, own.inode, own.sb⟩
  else
    let inode :=
      if indirectAllocated then { own.inode with dinode.iIndirect := pointer own.ret }
      else own.inode
    let sb := own.sb
    let indirect ←
      if indirectAllocated then .ok Buffer.zero else readBlocks sb.dev own.ret
    cAssert (indirect.getInt log = 0)
    let phy ← testfsAllocBlockForInode sb inode
    let inode := phy.inode
    let sb := phy.sb
    if 0 ≤ phy.ret then do
      let dev ← writeBlocks sb.dev (indirect.setInt log (pointer phy.ret)) own.ret
      .ok ⟨phy.ret, block, inode, { sb with dev := dev }⟩
    else if indirectAllocated then do
      -- the block is freed, but `i_indirect` keeps naming it
      let (inode, sb) ← testfsFreeBlockFromInode sb inode inode.dinode.iIndirect
      .ok ⟨phy.ret, block, inode, sb⟩
    else .ok ⟨phy.ret, block, inode, sb⟩

def testfsAllocateBlock (sb : SuperBlock) (inode : Inode) (logBlockNr : Int) (block : Block) :
    Except Halt BlockResult :=
  if (nrMaxBlock : Int) ≤ logBlockNr then .ok ⟨eFBIG, block, inode, sb⟩
  else do
    cAssert (0 ≤ logBlockNr)
    let (phyBlockNr, block) ← testfsReadBlock sb inode.dinode logBlockNr block
    if phyBlockNr ≠ 0 then .ok ⟨phyBlockNr, block, inode, sb⟩
    else
      let log := logBlockNr.toNat
      if direct : log < nrDirectBlocks then do
        cAssert (inode.dinode.iBlockNr ⟨log, direct⟩ = 0)
        let phy ← testfsAllocBlockForInode sb inode
        if 0 ≤ phy.ret then
          let blocks := fun i =>
            if i = ⟨log, direct⟩ then pointer phy.ret else phy.inode.dinode.iBlockNr i
          .ok ⟨phy.ret, block, { phy.inode with dinode.iBlockNr := blocks }, phy.sb⟩
        else .ok ⟨phy.ret, block, phy.inode, phy.sb⟩
      else
        let log := log - nrDirectBlocks
        if nrIndirectBlocks ≤ log then
          allocateDindirect sb inode (log - nrIndirectBlocks) block
        else allocateIndirect sb inode log block

/-- What `testfs_write_data` does when it reaches the largest file size. -/
def writeTooBig (sb : SuperBlock) (inode : Inode) (blockNr : Nat) : FileResult :=
  ⟨-eFBIG, { inode with
    dinode.iSize := BitVec.ofNat 64 (blockSize * blockNr), dirty := true }, sb⟩

/-- The part of `testfs_write_data` behind the loop: the last or only block. -/
def writeLast (sb : SuperBlock) (inode : Inode) (start oSize : Int) (buf : List Byte)
    (blockNr blockIx : Nat) : Except Halt FileResult :=
  if nrMaxBlock ≤ blockNr then .ok (writeTooBig sb inode blockNr)
  else do
    let r ← testfsAllocateBlock sb inode blockNr Buffer.zero
    if r.ret < 0 then .ok ⟨r.ret, r.inode, r.sb⟩
    else
      let dev ← writeBlocks r.sb.dev (r.block.splice blockIx buf) r.ret
      -- increment i_size by the number of bytes written
      let iSize :=
        if 0 < buf.length then BitVec.ofInt 64 (max r.inode.dinode.size (start + oSize))
        else r.inode.dinode.iSize
      .ok ⟨oSize, { r.inode with dinode.iSize := iSize, dirty := true }, { r.sb with dev := dev }⟩

/-- The loop of `testfs_write_data`; `buf` is what has not been written yet. Every round writes
at least one byte, so the loop ends before the fuel does. -/
def writeLoop (start oSize : Int) :
    Nat → SuperBlock → Inode → List Byte → Nat → Nat → Except Halt FileResult
  | 0, _, _, _, _, _ => .error .diverges
  | fuel + 1, sb, inode, buf, blockNr, blockIx =>
    if blockSize < blockIx + buf.length then
      if nrMaxBlock ≤ blockNr then .ok (writeTooBig sb inode blockNr)
      else do
        let remainByte := blockSize - blockIx
        let r ← testfsAllocateBlock sb inode blockNr Buffer.zero
        if r.ret < 0 then .ok ⟨r.ret, r.inode, r.sb⟩
        else
          let dev ← writeBlocks r.sb.dev (r.block.splice blockIx (buf.take remainByte)) r.ret
          let sb := { r.sb with dev := dev }
          let buf := buf.drop remainByte
          if blockSize < buf.length then
            writeLoop start oSize fuel sb r.inode buf (blockNr + 1) 0
          else writeLast sb r.inode start oSize buf (blockNr + 1) 0
    else writeLast sb inode start oSize buf blockNr blockIx

/-- `testfs_write_data`; `size` is the length of `buf`. A negative `start` fails the assertion
on the block number, or leaves `block_ix` negative with block number zero. -/
def testfsWriteData (sb : SuperBlock) (inode : Inode) (buf : List Byte) (start : Int) :
    Except Halt FileResult :=
  if start ≤ -(blockSize : Int) then .error .assertion
  else if start < 0 then .error .undefined
  else
    let blockNr := start.toNat / blockSize
    let blockIx := start.toNat % blockSize
    if nrMaxBlock ≤ blockNr then .ok ⟨eFBIG, inode, sb⟩
    else writeLoop start (toInt32 buf.length) (buf.length + 1) sb inode buf blockNr blockIx

/-- The pointers `from 0 to count` of an index block freed in turn; zero pointers are skipped. -/
def freeEntries (entries : Block) (indices : List Nat) (sb : SuperBlock) (inode : Inode) :
    Except Halt (Inode × SuperBlock) :=
  indices.foldlM (fun (inode, sb) i => testfsFreeBlockFromInode sb inode (entries.getInt i))
    (inode, sb)

def freeDirectBlocks (eBlockNr : Int) (sb : SuperBlock) (inode : Inode) :
    Except Halt (Inode × SuperBlock) :=
  (List.finRange nrDirectBlocks).foldlM (fun (inode, sb) i =>
    if (i.val : Int) < eBlockNr then do
      let (inode, sb) ← testfsFreeBlockFromInode sb inode (inode.dinode.iBlockNr i)
      let blocks := fun j => if j = i then 0 else inode.dinode.iBlockNr j
      .ok ({ inode with dinode.iBlockNr := blocks }, sb)
    else .ok (inode, sb)) (inode, sb)

def freeIndirectBlocks (eBlockNr : Int) (sb : SuperBlock) (inode : Inode) :
    Except Halt (Inode × SuperBlock) :=
  if 0 < inode.dinode.iIndirect.toInt then do
    let block ← readBlocks sb.dev inode.dinode.iIndirect.toInt
    let (inode, sb) ← freeEntries block (List.range (min eBlockNr.toNat nrIndirectBlocks)) sb inode
    let (inode, sb) ← testfsFreeBlockFromInode sb inode inode.dinode.iIndirect
    .ok ({ inode with dinode.iIndirect := 0 }, sb)
  else .ok (inode, sb)

/-- The double indirect blocks in `testfs_free_blocks`. -/
def freeDindirectBlocks (eBlockNr : Int) (sb : SuperBlock) (inode : Inode) :
    Except Halt (Inode × SuperBlock) :=
  if 0 ≤ eBlockNr ∧ 0 < inode.dinode.iDindirect.toInt then do
    let dp1Index ← readBlocks sb.dev inode.dinode.iDindirect.toInt
    let (inode, sb) ← (List.range nrIndirectBlocks).foldlM (fun (inode, sb) j =>
      if dp1Index.getInt j = 0 then .ok (inode, sb)
      else do
        let dp2Index ← readBlocks sb.dev (dp1Index.getInt j).toInt
        let (inode, sb) ← freeEntries dp2Index (List.range nrIndirectBlocks) sb inode
        testfsFreeBlockFromInode sb inode (dp1Index.getInt j)) (inode, sb)
    let (inode, sb) ← testfsFreeBlockFromInode sb inode inode.dinode.iDindirect
    .ok ({ inode with dinode.iDindirect := 0 }, sb)
  else .ok (inode, sb)

def testfsFreeBlocks (sb : SuperBlock) (inode : Inode) :
    Except Halt (Inode × SuperBlock) := do
  -- last block number
  let eBlockNr := toInt32 ((inode.dinode.size + blockSize - 1).tdiv blockSize)
  let (inode, sb) ← freeDirectBlocks eBlockNr sb inode
  let eBlockNr := eBlockNr - nrDirectBlocks
  let (inode, sb) ← freeIndirectBlocks eBlockNr sb inode
  let eBlockNr := eBlockNr - nrIndirectBlocks
  let (inode, sb) ← freeDindirectBlocks eBlockNr sb inode
  .ok ({ inode with dinode.iSize := 0, dirty := true }, sb)

end Ece344Lab.Fs
