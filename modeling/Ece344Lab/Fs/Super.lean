import Ece344Lab.Fs.Bitmap

set_option autoImplicit false

/- `super.c`: the super block, the two freemaps and the allocators over them. -/
namespace Ece344Lab.Fs

open Outcome

/-- `struct dsuper_block`. -/
structure DSuperBlock where
  inodeFreemapStart : Nat
  blockFreemapStart : Nat
  inodeBlocksStart : Nat
  dataBlocksStart : Nat
  usedInodeCount : Nat
  usedBlockCount : Nat
  maxFsBlocks : Nat
  deriving DecidableEq

namespace DSuperBlock

def words (d : DSuperBlock) : List (BitVec 32) :=
  [BitVec.ofNat 32 d.inodeFreemapStart, BitVec.ofNat 32 d.blockFreemapStart,
    BitVec.ofNat 32 d.inodeBlocksStart, BitVec.ofNat 32 d.dataBlocksStart,
    BitVec.ofNat 32 d.usedInodeCount, BitVec.ofNat 32 d.usedBlockCount,
    BitVec.ofNat 32 (d.maxFsBlocks % 2 ^ 32), BitVec.ofNat 32 (d.maxFsBlocks / 2 ^ 32)]

def bytes (d : DSuperBlock) : List Byte := d.words.flatMap Bytes.le32

def ofBytes (bytes : List Byte) : DSuperBlock where
  inodeFreemapStart := (Bytes.word bytes 0).toNat
  blockFreemapStart := (Bytes.word bytes 1).toNat
  inodeBlocksStart := (Bytes.word bytes 2).toNat
  dataBlocksStart := (Bytes.word bytes 3).toNat
  usedInodeCount := (Bytes.word bytes 4).toNat
  usedBlockCount := (Bytes.word bytes 5).toNat
  maxFsBlocks := (Bytes.word bytes 6).toNat + 2 ^ 32 * (Bytes.word bytes 7).toNat

def block (d : DSuperBlock) : Block := Buffer.zero.splice 0 d.bytes

end DSuperBlock

/-- `struct super_block`. `allocFailed` is a ghost: it records that `testfs_alloc_block`
has returned a negative value, and no function reads it. -/
@[ext] structure SuperBlock where
  sb : DSuperBlock
  dev : Device
  inodeFreemap : Bitmap
  blockFreemap : Bitmap
  allocFailed : Bool

/-- The `nr`-th page of a freemap, as written to the device. -/
def freemapPage (b : Bitmap) (nr : Nat) : Block := fun i => b.v (nr * blockSize + i.val)

def testfsWriteSuperBlock (sb : SuperBlock) : SuperBlock :=
  { sb with dev := sb.dev.set 0 sb.sb.block }

def testfsWriteInodeFreemap (sb : SuperBlock) (inodeNr : Nat) : SuperBlock :=
  let nr := inodeNr / (blockSize * bitsPerWord)
  { sb with dev := sb.dev.set (sb.sb.inodeFreemapStart + nr) (freemapPage sb.inodeFreemap nr) }

def testfsWriteBlockFreemap (sb : SuperBlock) (blockNr : Nat) : SuperBlock :=
  let nr := blockNr / (blockSize * bitsPerWord)
  { sb with dev := sb.dev.set (sb.sb.blockFreemapStart + nr) (freemapPage sb.blockFreemap nr) }

/-- The free block number or a negative value. -/
def testfsGetBlockFreemap (sb : SuperBlock) : Except Halt (Int × SuperBlock) := do
  match ← bitmapAlloc sb.blockFreemap with
  | none => .ok (-eNOSPC, sb)
  | some (index, freemap) =>
      .ok (index, testfsWriteBlockFreemap { sb with blockFreemap := freemap } index)

def testfsPutBlockFreemap (sb : SuperBlock) (blockNr : Nat) : Except Halt SuperBlock := do
  let freemap ← bitmapUnmark sb.blockFreemap blockNr
  .ok (testfsWriteBlockFreemap { sb with blockFreemap := freemap } blockNr)

/-- The inode number or a negative value. -/
def testfsGetInodeFreemap (sb : SuperBlock) : Except Halt (Int × SuperBlock) := do
  match ← bitmapAlloc sb.inodeFreemap with
  | none => .ok (-eNOSPC, sb)
  | some (index, freemap) =>
      let sb := testfsWriteInodeFreemap { sb with inodeFreemap := freemap } index
      let sb := { sb with sb.usedInodeCount := sb.sb.usedInodeCount + 1 }
      .ok (index, testfsWriteSuperBlock sb)

def testfsPutInodeFreemap (sb : SuperBlock) (inodeNr : Nat) : Except Halt SuperBlock := do
  let freemap ← bitmapUnmark sb.inodeFreemap inodeNr
  let sb := testfsWriteInodeFreemap { sb with inodeFreemap := freemap } inodeNr
  cAssert (0 < sb.sb.usedInodeCount)
  let sb := { sb with sb.usedInodeCount := sb.sb.usedInodeCount - 1 }
  .ok (testfsWriteSuperBlock sb)

def testfsAllocBlock (sb : SuperBlock) : Except Halt (Int × SuperBlock) :=
  -- file system size is limited to max_fs_blocks
  if sb.sb.maxFsBlocks ≤ sb.sb.usedBlockCount then .ok (-eNOSPC, { sb with allocFailed := true })
  else do
    let (phyBlockNr, sb) ← testfsGetBlockFreemap sb
    if phyBlockNr < 0 then .ok (phyBlockNr, { sb with allocFailed := true })
    else
      let sb := { sb with sb.usedBlockCount := sb.sb.usedBlockCount + 1 }
      let sb := testfsWriteSuperBlock sb
      .ok (sb.sb.dataBlocksStart + phyBlockNr, sb)

def testfsFreeBlock (sb : SuperBlock) (blockNr : Int) : Except Halt SuperBlock := do
  let dev ← zeroBlocks sb.dev blockNr 1
  let sb := { sb with dev := dev }
  let blockNr := blockNr - sb.sb.dataBlocksStart
  cAssert (0 ≤ blockNr)
  let sb ← testfsPutBlockFreemap sb blockNr.toNat
  cAssert (0 < sb.sb.usedBlockCount)
  let sb := { sb with sb.usedBlockCount := sb.sb.usedBlockCount - 1 }
  .ok (testfsWriteSuperBlock sb)

/-- `testfs_make_super_block`: the layout of a new device. -/
def testfsMakeSuperBlock (maxFsBlocks : Nat) : DSuperBlock × Device :=
  let inodeFreemapStart := superBlockSize
  let blockFreemapStart := inodeFreemapStart + inodeFreemapSize
  let inodeBlocksStart := blockFreemapStart + blockFreemapSize
  let sb : DSuperBlock :=
    { inodeFreemapStart := inodeFreemapStart
      blockFreemapStart := blockFreemapStart
      inodeBlocksStart := inodeBlocksStart
      dataBlocksStart := inodeBlocksStart + nrInodeBlocks
      usedInodeCount := 0
      usedBlockCount := 0
      maxFsBlocks := maxFsBlocks }
  (sb, Device.empty.set 0 sb.block)

def testfsMakeInodeFreemap (sb : DSuperBlock) (dev : Device) : Except Halt Device :=
  zeroBlocks dev sb.inodeFreemapStart inodeFreemapSize

def testfsMakeBlockFreemap (sb : DSuperBlock) (dev : Device) : Except Halt Device :=
  zeroBlocks dev sb.blockFreemapStart blockFreemapSize

def testfsMakeInodeBlocks (sb : DSuperBlock) (dev : Device) : Except Halt Device :=
  zeroBlocks dev sb.inodeBlocksStart nrInodeBlocks

/-- The words that `read_blocks` puts into a freemap of `pages` blocks. -/
def readFreemap (dev : Device) (start pages : Nat) (b : Bitmap) : Except Halt Bitmap := do
  let _ ← (List.range pages).foldlM (fun _ nr => do
    let _ ← readBlocks dev (start + nr : Nat)
    .ok ()) ()
  .ok { b with
    v := fun i =>
      if i < pages * blockSize then (dev.block (start + i / blockSize)).get (i % blockSize)
      else b.v i }

/-- `testfs_init_super_block`, with memory and the file open succeeding. -/
def testfsInitSuperBlock (dev : Device) : Except Halt SuperBlock := do
  let block ← readBlocks dev 0
  let sb := DSuperBlock.ofBytes (block.slice 0 32)
  let inodeFreemap ← bitmapCreate (blockSize * inodeFreemapSize * bitsPerWord)
  let inodeFreemap ← readFreemap dev sb.inodeFreemapStart inodeFreemapSize inodeFreemap
  let blockFreemap ← bitmapCreate (blockSize * blockFreemapSize * bitsPerWord)
  let blockFreemap ← readFreemap dev sb.blockFreemapStart blockFreemapSize blockFreemap
  .ok { sb, dev, inodeFreemap, blockFreemap, allocFailed := false }

/-- The writes of `testfs_close_super_block`, once the inode hash is empty. -/
def testfsCloseSuperBlock (sb : SuperBlock) : Device :=
  let dev := sb.dev.set 0 sb.sb.block
  let dev := (List.range inodeFreemapSize).foldl
    (fun dev nr => dev.set (sb.sb.inodeFreemapStart + nr) (freemapPage sb.inodeFreemap nr)) dev
  (List.range blockFreemapSize).foldl
    (fun dev nr => dev.set (sb.sb.blockFreemapStart + nr) (freemapPage sb.blockFreemap nr)) dev

/-- `main` of `mktestfs.c` up to the root directory: an empty device, mounted. -/
def freshSuperBlock (maxFsBlocks : Nat) : Except Halt SuperBlock := do
  let (sb, dev) := testfsMakeSuperBlock maxFsBlocks
  let dev ← testfsMakeInodeFreemap sb dev
  let dev ← testfsMakeBlockFreemap sb dev
  let dev ← testfsMakeInodeBlocks sb dev
  -- testfs_close_super_block, while there are no freemaps in memory
  testfsInitSuperBlock (dev.set 0 sb.block)

end Ece344Lab.Fs
