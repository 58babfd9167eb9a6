import Ece344Lab.Fs.ReadWrite

set_option autoImplicit false

/- The inode hash table and the life of an inode in `inode.c`. -/
namespace Ece344Lab.Fs

open Outcome

/-- What the commands print. -/
inductive Output
  | text (bytes : List Byte)
  | stat (name : List Byte) (iNr : Nat) (iType : BitVec 32) (iSize : BitVec 64)
      (blockCount : BitVec 32)
  | fsstat (inodes blocks : Nat)

/-- The running program: the super block, the inode hash table with its chains joined, and
standard output. -/
structure State where
  sb : SuperBlock
  inodes : List Inode
  stdout : List Output

def inodeHashFind (inodes : List Inode) (inodeNr : Nat) : Option Inode :=
  inodes.find? fun inode => inode.iNr = inodeNr

def inodeHashInsert (inodes : List Inode) (inode : Inode) : List Inode := inode :: inodes

def inodeHashRemove (inodes : List Inode) (inodeNr : Nat) : List Inode :=
  inodes.eraseP fun inode => inode.iNr = inodeNr

/-- Writes through a `struct inode *`. -/
def inodeHashUpdate (inodes : List Inode) (inode : Inode) : List Inode :=
  inodes.map fun other => if other.iNr = inode.iNr then inode else other

namespace State

/-- Reads through a `struct inode *`; a pointer to no inode is dangling. -/
def inode (s : State) (inodeNr : Nat) : Except Halt Inode :=
  match inodeHashFind s.inodes inodeNr with
  | some inode => .ok inode
  | none => .error .undefined

def update (s : State) (inode : Inode) : State :=
  { s with inodes := inodeHashUpdate s.inodes inode }

/-- Runs a function that changes one inode and the super block. -/
def onInode (s : State) (inodeNr : Nat)
    (f : SuperBlock → Inode → Except Halt FileResult) : Except Halt (Int × State) := do
  let inode ← s.inode inodeNr
  let r ← f s.sb inode
  .ok (r.ret, { s with sb := r.sb }.update r.inode)

def print (s : State) (output : Output) : State := { s with stdout := s.stdout ++ [output] }

end State

/-- `testfs_inode_to_block_nr`, with its assertions. -/
def testfsInodeToBlockNr (inodeNr : Nat) : Except Halt Nat := do
  let blockNr := inodeNr / inodesPerBlock
  cAssert (blockNr < nrInodeBlocks)
  .ok blockNr

def testfsInodeToBlockOffset (inodeNr : Nat) : Nat := inodeNr % inodesPerBlock * 64

def testfsReadInodeBlock (sb : SuperBlock) (inodeNr : Nat) : Except Halt Block := do
  let blockNr ← testfsInodeToBlockNr inodeNr
  readBlocks sb.dev (sb.sb.inodeBlocksStart + blockNr : Nat)

def testfsWriteInodeBlock (sb : SuperBlock) (inodeNr : Nat) (block : Block) :
    Except Halt SuperBlock := do
  let blockNr ← testfsInodeToBlockNr inodeNr
  let dev ← writeBlocks sb.dev block (sb.sb.inodeBlocksStart + blockNr : Nat)
  .ok { sb with dev := dev }

/-- `testfs_get_inode`; the caller holds the inode called `inodeNr` afterwards. -/
def testfsGetInode (s : State) (inodeNr : Nat) : Except Halt State :=
  match inodeHashFind s.inodes inodeNr with
  | some inode => .ok (s.update { inode with iCount := inode.iCount + 1 })
  | none => do
      let block ← testfsReadInodeBlock s.sb inodeNr
      let dinode := Dinode.ofBytes (block.slice (testfsInodeToBlockOffset inodeNr) 64)
      let inode := { dinode, dirty := false, iNr := inodeNr, iCount := 1 }
      .ok { s with inodes := inodeHashInsert s.inodes inode }

def testfsSyncInode (s : State) (inodeNr : Nat) : Except Halt State := do
  let inode ← s.inode inodeNr
  if inode.dirty then
    let block ← testfsReadInodeBlock s.sb inodeNr
    let block := block.splice (testfsInodeToBlockOffset inodeNr) inode.dinode.bytes
    let sb ← testfsWriteInodeBlock s.sb inodeNr block
    .ok ({ s with sb := sb }.update { inode with dirty := false })
  else .ok s

def testfsPutInode (s : State) (inodeNr : Nat) : Except Halt State := do
  let inode ← s.inode inodeNr
  cAssert (inode.dirty = false)
  if inode.iCount - 1 = 0 then .ok { s with inodes := inodeHashRemove s.inodes inodeNr }
  else .ok (s.update { inode with iCount := inode.iCount - 1 })

/-- `testfs_create_inode`: the return value and the number of the inode behind `*inp`. -/
def testfsCreateInode (s : State) (type : InodeType) : Except Halt (Int × Nat × State) := do
  let (inodeNr, sb) ← testfsGetInodeFreemap s.sb
  if inodeNr < 0 then .ok (inodeNr, 0, { s with sb := sb })
  else if nrInodeBlocks ≤ inodeNr.toNat / inodesPerBlock then do
    -- undo the freemap and return error
    let sb ← testfsPutInodeFreemap sb inodeNr.toNat
    .ok (-eNOSPC, 0, { s with sb := sb })
  else do
    let s ← testfsGetInode { s with sb := sb } inodeNr.toNat
    let inode ← s.inode inodeNr.toNat
    .ok (0, inodeNr.toNat, s.update { inode with dinode.iType := type.code, dirty := true })

def testfsRemoveInode (s : State) (inodeNr : Nat) : Except Halt State := do
  -- free all the data blocks
  let inode ← s.inode inodeNr
  let (inode, sb) ← testfsFreeBlocks s.sb inode
  cAssert (inode.dinode.blockCount = 0)
  let s := { s with sb := sb }.update { inode with dinode := Dinode.zero, dirty := true }
  let sb ← testfsPutInodeFreemap s.sb inodeNr
  let s ← testfsSyncInode { s with sb := sb } inodeNr
  testfsPutInode s inodeNr

end Ece344Lab.Fs
