import Ece344Lab.Fs.Super

set_option autoImplicit false

/- The inode structures of `inode.h` and the block bookkeeping of `inode.c`. -/
namespace Ece344Lab.Fs

open Outcome

abbrev nrDirectBlocks : Nat := 10
abbrev nrIndirectBlocks : Nat := blockSize / 4
abbrev inodesPerBlock : Nat := blockSize / 64

/-- `enum inode_type`. -/
inductive InodeType
  | none
  | file
  | dir
  deriving DecidableEq, Repr

def InodeType.code : InodeType → BitVec 32
  | none => 0
  | file => 1
  | dir => 2

/-- `struct dinode`. -/
structure Dinode where
  iType : BitVec 32
  iBlockNr : Fin nrDirectBlocks → BitVec 32
  iIndirect : BitVec 32
  iDindirect : BitVec 32
  blockCount : BitVec 32
  iSize : BitVec 64

namespace Dinode

/-- The inode that `calloc` and `bzero` leave. -/
def zero : Dinode := ⟨0, fun _ => 0, 0, 0, 0, 0⟩

/-- The sixteen 32-bit words of the structure in memory. -/
def words (d : Dinode) : List (BitVec 32) :=
  [d.iType, d.iBlockNr 0, d.iBlockNr 1, d.iBlockNr 2, d.iBlockNr 3, d.iBlockNr 4, d.iBlockNr 5,
    d.iBlockNr 6, d.iBlockNr 7, d.iBlockNr 8, d.iBlockNr 9, d.iIndirect, d.iDindirect,
    d.blockCount, d.iSize.extractLsb' 0 32, d.iSize.extractLsb' 32 32]

/-- The structure in memory; it has no padding. -/
def bytes (d : Dinode) : List Byte := d.words.flatMap Bytes.le32

def ofBytes (bytes : List Byte) : Dinode where
  iType := Bytes.word bytes 0
  iBlockNr := fun i => Bytes.word bytes (1 + i.val)
  iIndirect := Bytes.word bytes 11
  iDindirect := Bytes.word bytes 12
  blockCount := Bytes.word bytes 13
  iSize := Bytes.word bytes 15 ++ Bytes.word bytes 14

@[simp] theorem length_bytes (d : Dinode) : d.bytes.length = 64 := by
  rw [bytes, Bytes.length_flatMap_le32]
  rfl

@[simp] theorem ofBytes_bytes (d : Dinode) : ofBytes d.bytes = d := by
  have word : ∀ k (inside : k < 16), Bytes.word d.bytes k = d.words.get ⟨k, inside⟩ :=
    fun k inside => Bytes.word_flatMap_le32 d.words k inside
  have low := word 14 (by decide)
  have high := word 15 (by decide)
  have size : Bytes.word d.bytes 15 ++ Bytes.word d.bytes 14 = d.iSize := by
    rw [low, high]
    apply BitVec.eq_of_getLsbD_eq
    intro i inside
    change (d.iSize.extractLsb' 32 32 ++ d.iSize.extractLsb' 0 32).getLsbD i = _
    simp only [BitVec.getLsbD_append, BitVec.getLsbD_extractLsb']
    grind
  have direct : (fun i : Fin nrDirectBlocks => Bytes.word d.bytes (1 + i.val)) = d.iBlockNr := by
    funext i
    have cases : i = 0 ∨ i = 1 ∨ i = 2 ∨ i = 3 ∨ i = 4 ∨ i = 5 ∨ i = 6 ∨ i = 7 ∨ i = 8 ∨ i = 9 := by
      revert i
      decide
    rcases cases with rfl | rfl | rfl | rfl | rfl | rfl | rfl | rfl | rfl | rfl
    all_goals exact word _ (by decide)
  unfold ofBytes
  rw [size, direct, word 0 (by decide), word 11 (by decide), word 12 (by decide),
    word 13 (by decide)]
  rfl

@[simp] theorem ofBytes_zero : ofBytes (List.replicate 64 0) = zero := by
  have word : ∀ k < 16, Bytes.word (List.replicate 64 0) k = 0 := by
    intro k _
    rw [Bytes.word, List.drop_replicate, Bytes.of32_replicate_zero]
  have direct : (fun i : Fin nrDirectBlocks => Bytes.word (List.replicate 64 0) (1 + i.val)) =
      fun _ => 0 := by
    funext i
    have inside : i.val < 10 := i.isLt
    exact word _ (by omega)
  unfold ofBytes
  rw [direct, word 0 (by decide), word 11 (by decide), word 12 (by decide), word 13 (by decide),
    word 14 (by decide), word 15 (by decide)]
  rfl

/-- `in.i_size` as a number. -/
def size (d : Dinode) : Int := d.iSize.toInt

end Dinode

/-- `struct inode`. Code that holds a `struct inode *` names the inode by `iNr`; `dirty` is the
only flag in `i_flags`. -/
structure Inode where
  dinode : Dinode
  dirty : Bool
  iNr : Nat
  iCount : Nat

/-- The result of a function that returns an `int` and changes one inode and the super block. -/
structure FileResult where
  ret : Int
  inode : Inode
  sb : SuperBlock

def testfsAllocBlockForInode (sb : SuperBlock) (inode : Inode) : Except Halt FileResult := do
  let (phyBlockNr, sb) ← testfsAllocBlock sb
  if 0 ≤ phyBlockNr then
    let inode :=
      { inode with dinode.blockCount := inode.dinode.blockCount + 1, dirty := true }
    .ok ⟨phyBlockNr, inode, sb⟩
  else .ok ⟨phyBlockNr, inode, sb⟩

def testfsFreeBlockFromInode (sb : SuperBlock) (inode : Inode) (phyBlockNr : BitVec 32) :
    Except Halt (Inode × SuperBlock) :=
  if phyBlockNr = 0 then .ok (inode, sb)
  else do
    let sb ← testfsFreeBlock sb phyBlockNr.toInt
    .ok ({ inode with dinode.blockCount := inode.dinode.blockCount - 1, dirty := true }, sb)

end Ece344Lab.Fs
