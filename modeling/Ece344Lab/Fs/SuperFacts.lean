import Ece344Lab.Fs.Super
import Ece344Lab.Fs.BitmapFacts

set_option autoImplicit false

/- What the super block functions keep: the fixed layout, the counters and the equality of
memory and device. -/
namespace Ece344Lab.Fs

open Outcome

/-- The layout that `testfs_make_super_block` gives every device: data blocks start at 146, and
the block freemap has 16 * 8192 * 8 = 1048576 bits. -/
structure Layout (d : DSuperBlock) : Prop where
  inodeFreemap : d.inodeFreemapStart = 1
  blockFreemap : d.blockFreemapStart = 2
  inodeBlocks : d.inodeBlocksStart = 18
  dataBlocks : d.dataBlocksStart = 146

/-- Memory agrees with the device, and both counters with their freemaps. -/
structure Consistent (sb : SuperBlock) : Prop where
  layout : Layout sb.sb
  superOnDisk : sb.dev.block 0 = sb.sb.block
  inodesOnDisk : sb.dev.block 1 = freemapPage sb.inodeFreemap 0
  blocksOnDisk : ∀ nr < blockFreemapSize, sb.dev.block (2 + nr) = freemapPage sb.blockFreemap nr
  inodeBits : sb.inodeFreemap.nbits = 65536
  blockBits : sb.blockFreemap.nbits = 1048576
  inodeTail : ∀ i, 65536 ≤ 8 * i → sb.inodeFreemap.v i = 0
  blockTail : ∀ i, 1048576 ≤ 8 * i → sb.blockFreemap.v i = 0
  inodeCount : sb.sb.usedInodeCount = sb.inodeFreemap.elems.card
  blockCount : sb.sb.usedBlockCount = sb.blockFreemap.elems.card
  within : sb.sb.usedBlockCount ≤ sb.sb.maxFsBlocks
  limit : sb.sb.maxFsBlocks ≤ 1048576
  image : 146 ≤ sb.dev.nr

theorem Layout.of_counts {d : DSuperBlock} (layout : Layout d) (inodes blocks : Nat) :
    Layout { d with usedInodeCount := inodes, usedBlockCount := blocks } :=
  ⟨layout.inodeFreemap, layout.blockFreemap, layout.inodeBlocks, layout.dataBlocks⟩

namespace SuperBlock

/-- How many more blocks `testfs_alloc_block` will hand out. -/
def free (sb : SuperBlock) : Nat := sb.sb.maxFsBlocks - sb.sb.usedBlockCount

/-- Whether the data block with this physical number is marked in the freemap. -/
def Allocated (sb : SuperBlock) (n : Nat) : Prop :=
  146 ≤ n ∧ n < 1048722 ∧
    bitmapIsset sb.blockFreemap (n - 146) = true

instance (sb : SuperBlock) (n : Nat) : Decidable (sb.Allocated n) := by
  unfold Allocated
  infer_instance

/-- The super block after `testfs_alloc_block` has handed out data block `n`. -/
def taken (sb : SuperBlock) (n : Nat) : SuperBlock :=
  let index := n - 146
  let freemap := sb.blockFreemap.mark index
  let counts := { sb.sb with usedBlockCount := sb.sb.usedBlockCount + 1 }
  { sb with
    sb := counts
    blockFreemap := freemap
    dev := (sb.dev.set (sb.sb.blockFreemapStart + index / 65536)
      (freemapPage freemap (index / 65536))).set 0 counts.block }

/-- The super block after `testfs_free_block` has taken back data block `n`. -/
def released (sb : SuperBlock) (n : Nat) : SuperBlock :=
  let index := n - 146
  let freemap := sb.blockFreemap.unmark index
  let counts := { sb.sb with usedBlockCount := sb.sb.usedBlockCount - 1 }
  { sb with
    sb := counts
    blockFreemap := freemap
    dev := ((sb.dev.set n Buffer.zero).set (sb.sb.blockFreemapStart + index / 65536)
      (freemapPage freemap (index / 65536))).set 0 counts.block }

def written (sb : SuperBlock) (n : Nat) (b : Block) : SuperBlock :=
  { sb with dev := sb.dev.set n b }

def failed (sb : SuperBlock) : SuperBlock := { sb with allocFailed := true }

@[simp] theorem free_written (sb : SuperBlock) (n : Nat) (b : Block) :
    (sb.written n b).free = sb.free := rfl

@[simp] theorem free_failed (sb : SuperBlock) : sb.failed.free = sb.free := rfl

@[simp] theorem allocated_written (sb : SuperBlock) (n k : Nat) (b : Block) :
    (sb.written n b).Allocated k ↔ sb.Allocated k := Iff.rfl

@[simp] theorem allocated_failed (sb : SuperBlock) (k : Nat) :
    sb.failed.Allocated k ↔ sb.Allocated k := Iff.rfl

@[simp] theorem dev_failed (sb : SuperBlock) : sb.failed.dev = sb.dev := rfl

@[simp] theorem inodeFreemap_taken (sb : SuperBlock) (n : Nat) :
    (sb.taken n).inodeFreemap = sb.inodeFreemap := rfl

@[simp] theorem inodeFreemap_released (sb : SuperBlock) (n : Nat) :
    (sb.released n).inodeFreemap = sb.inodeFreemap := rfl

@[simp] theorem inodeFreemap_written (sb : SuperBlock) (n : Nat) (b : Block) :
    (sb.written n b).inodeFreemap = sb.inodeFreemap := rfl

@[simp] theorem inodeFreemap_failed (sb : SuperBlock) :
    sb.failed.inodeFreemap = sb.inodeFreemap := rfl

theorem block_written (sb : SuperBlock) (n : Nat) (b : Block) (k : Nat) :
    (sb.written n b).dev.block k = if k = n then b else sb.dev.block k := rfl

theorem allocated_taken (sb : SuperBlock) (n : Nat) (range : 146 ≤ n)
    (below : n < 1048722) (k : Nat) :
    (sb.taken n).Allocated k ↔ sb.Allocated k ∨ k = n := by
  simp only [Allocated, taken, Bitmap.isset_mark, Bool.or_eq_true, decide_eq_true_eq]
  by_cases same : k = n
  · subst same
    simp [range, below]
  · have apart : 146 ≤ k → k - 146 ≠ n - 146 := by omega
    grind

theorem allocated_released (sb : SuperBlock) (n : Nat) (range : 146 ≤ n) (k : Nat) :
    (sb.released n).Allocated k ↔ sb.Allocated k ∧ k ≠ n := by
  simp only [Allocated, released, Bitmap.isset_unmark, Bool.and_eq_true, Bool.not_eq_true',
    decide_eq_false_iff_not]
  have apart : 146 ≤ k → (k - 146 = n - 146 ↔ k = n) := by omega
  grind

/-- Allocation writes the freemap and the super block only. -/
theorem block_taken (sb : SuperBlock) (n : Nat) (layout : Layout sb.sb)
    (below : n < 1048722) (k : Nat) (outside : 18 ≤ k ∨ k = 1) :
    (sb.taken n).dev.block k = sb.dev.block k := by
  have page : k ≠ sb.sb.blockFreemapStart + (n - 146) / 65536 := by
    rw [layout.blockFreemap]
    omega
  have super : k ≠ 0 := by omega
  simp [taken, page, super]

theorem block_released (sb : SuperBlock) (n : Nat) (layout : Layout sb.sb)
    (below : n < 1048722) (k : Nat) (outside : 18 ≤ k ∨ k = 1) :
    (sb.released n).dev.block k = if k = n then Buffer.zero else sb.dev.block k := by
  have page : k ≠ sb.sb.blockFreemapStart + (n - 146) / 65536 := by
    rw [layout.blockFreemap]
    omega
  have super : k ≠ 0 := by omega
  simp [released, page, super]

theorem nr_taken (sb : SuperBlock) (n : Nat) : sb.dev.nr ≤ (sb.taken n).dev.nr := by
  simp only [taken, Device.nr_set]
  omega

theorem nr_released (sb : SuperBlock) (n : Nat) : sb.dev.nr ≤ (sb.released n).dev.nr := by
  simp only [released, Device.nr_set]
  omega

theorem nr_written (sb : SuperBlock) (n : Nat) (b : Block) :
    (sb.written n b).dev.nr = max sb.dev.nr (n + 1) := rfl

theorem written_written (sb : SuperBlock) (n : Nat) (b c : Block) :
    (sb.written n b).written n c = sb.written n c := by
  have dev : (sb.dev.set n b).set n c = sb.dev.set n c := by
    refine Device.ext (funext fun k => ?_) ?_
    · by_cases same : k = n <;> simp [same]
    · simp
  exact SuperBlock.ext rfl dev rfl rfl rfl

theorem written_comm (sb : SuperBlock) (m n : Nat) (b c : Block) (apart : m ≠ n) :
    (sb.written m b).written n c = (sb.written n c).written m b := by
  have dev : (sb.dev.set m b).set n c = (sb.dev.set n c).set m b := by
    refine Device.ext (funext fun k => ?_) ?_
    · by_cases first : k = m
      · subst first
        simp [apart]
      · simp [first]
    · simp only [Device.nr_set]
      omega
  exact SuperBlock.ext rfl dev rfl rfl rfl

/-- Taking a block commutes with rewriting a data block. -/
theorem written_taken (sb : SuperBlock) (m n : Nat) (b : Block) (layout : Layout sb.sb)
    (data : 18 ≤ m) (below : n < 1048722) :
    (sb.written m b).taken n = (sb.taken n).written m b := by
  have page : m ≠ sb.sb.blockFreemapStart + (n - 146) / 65536 := by
    rw [layout.blockFreemap]
    omega
  have super : m ≠ 0 := by omega
  have dev : ((sb.written m b).taken n).dev = ((sb.taken n).written m b).dev := by
    refine Device.ext (funext fun k => ?_) ?_
    · by_cases first : k = m
      · subst first
        simp [written, taken, page, super]
      · simp [written, taken, first]
    · simp only [written, taken, Device.nr_set]
      omega
  exact SuperBlock.ext rfl dev rfl rfl rfl

end SuperBlock

/-- Pages of a freemap other than the one holding the changed bit stay the same. -/
theorem freemapPage_setWord (b : Bitmap) (ix nr : Nat) (word : Byte) (other : nr ≠ ix / 8192) :
    freemapPage (b.setWord ix word) nr = freemapPage b nr := by
  funext i
  have inside := i.isLt
  have apart : nr * blockSize + i.val ≠ ix := by
    simp only [blockSize] at *
    omega
  simp [freemapPage, Bitmap.setWord, apart]

namespace Consistent

open SuperBlock

theorem wholeBlocks {sb : SuperBlock} (ok : Consistent sb) : WholeWords sb.blockFreemap := by
  unfold WholeWords
  rw [ok.blockBits]
  decide

theorem wholeInodes {sb : SuperBlock} (ok : Consistent sb) : WholeWords sb.inodeFreemap := by
  unfold WholeWords
  rw [ok.inodeBits]
  decide

/-- The freemap pages on the device after one word and its page have been rewritten. -/
theorem blocksOnDisk_setWord {sb : SuperBlock} (ok : Consistent sb) (dev : Device) (index : Nat)
    (word : Byte)
    (page : dev.block (2 + index / 65536) =
      freemapPage (sb.blockFreemap.setWord (index / 8) word) (index / 65536))
    (rest : ∀ nr < blockFreemapSize, nr ≠ index / 65536 →
      dev.block (2 + nr) = sb.dev.block (2 + nr)) :
    ∀ nr < blockFreemapSize,
      dev.block (2 + nr) = freemapPage (sb.blockFreemap.setWord (index / 8) word) nr := by
  intro nr below
  by_cases same : nr = index / 65536
  · rw [same, page]
  · rw [rest nr below same, ok.blocksOnDisk nr below, freemapPage_setWord]
    omega

theorem taken {sb : SuperBlock} (ok : Consistent sb) (n : Nat) (range : 146 ≤ n)
    (below : n < 1048722) (clear : ¬ sb.Allocated n) (room : 0 < sb.free) :
    Consistent (sb.taken n) := by
  have unset : bitmapIsset sb.blockFreemap (n - 146) = false := by
    simpa [Allocated, range, below] using clear
  have inside : n - 146 < 1048576 := by omega
  have card := Bitmap.card_mark sb.blockFreemap (n - 146) (by rw [ok.blockBits]; exact inside)
    unset
  refine ⟨ok.layout.of_counts _ _, ?_, ?_, ?_, ok.inodeBits, ok.blockBits, ok.inodeTail, ?_,
    ok.inodeCount, ?_, ?_, ok.limit, Nat.le_trans ok.image (nr_taken sb n)⟩
  · simp [SuperBlock.taken]
  · rw [block_taken sb n ok.layout below 1 (Or.inr rfl)]
    exact ok.inodesOnDisk
  · apply blocksOnDisk_setWord ok _ (n - 146) _
    · simp [SuperBlock.taken, ok.layout.blockFreemap, Bitmap.mark]
    · intro nr below apart
      simp [SuperBlock.taken, ok.layout.blockFreemap, apart]
  · intro i tail
    have apart : i ≠ (n - 146) / 8 := by omega
    simp only [SuperBlock.taken, Bitmap.mark, Bitmap.setWord, apart, ↓reduceIte]
    exact ok.blockTail i tail
  · simp only [SuperBlock.taken, card, ok.blockCount]
  · have within := ok.within
    simp only [SuperBlock.taken, SuperBlock.free] at room ⊢
    omega

theorem released {sb : SuperBlock} (ok : Consistent sb) (n : Nat) (held : sb.Allocated n) :
    Consistent (sb.released n) := by
  obtain ⟨range, below, set⟩ := held
  have inside : n - 146 < 1048576 := by omega
  have card := Bitmap.card_unmark sb.blockFreemap (n - 146)
    (by rw [ok.blockBits]; exact inside) set
  refine ⟨ok.layout.of_counts _ _, ?_, ?_, ?_, ok.inodeBits, ok.blockBits, ok.inodeTail, ?_,
    ok.inodeCount, ?_, ?_, ok.limit, Nat.le_trans ok.image (nr_released sb n)⟩
  · simp [SuperBlock.released]
  · rw [block_released sb n ok.layout below 1 (Or.inr rfl), if_neg (by omega)]
    exact ok.inodesOnDisk
  · apply blocksOnDisk_setWord ok _ (n - 146) _
    · simp [SuperBlock.released, ok.layout.blockFreemap, Bitmap.unmark]
    · intro nr below apart
      have other : 2 + nr ≠ n := by
        simp only [blockFreemapSize] at below
        omega
      simp [SuperBlock.released, ok.layout.blockFreemap, apart, other]
  · intro i tail
    have apart : i ≠ (n - 146) / 8 := by omega
    simp only [SuperBlock.released, Bitmap.unmark, Bitmap.setWord, apart, ↓reduceIte]
    exact ok.blockTail i tail
  · have count := ok.blockCount
    simp only [SuperBlock.released]
    omega
  · have within := ok.within
    simp only [SuperBlock.released]
    omega

/-- Data and inode blocks are no part of what the super block keeps on the device. -/
theorem written {sb : SuperBlock} (ok : Consistent sb) (n : Nat) (b : Block) (apart : 18 ≤ n) :
    Consistent (sb.written n b) := by
  refine ⟨ok.layout, ?_, ?_, ?_, ok.inodeBits, ok.blockBits, ok.inodeTail, ok.blockTail,
    ok.inodeCount, ok.blockCount, ok.within, ok.limit, ?_⟩
  · rw [block_written, if_neg (by omega)]
    exact ok.superOnDisk
  · rw [block_written, if_neg (by omega)]
    exact ok.inodesOnDisk
  · intro nr below
    simp only [blockFreemapSize] at below
    rw [block_written, if_neg (by omega)]
    exact ok.blocksOnDisk nr below
  · rw [nr_written]
    have image := ok.image
    omega

theorem failed {sb : SuperBlock} (ok : Consistent sb) : Consistent sb.failed :=
  ⟨ok.layout, ok.superOnDisk, ok.inodesOnDisk, ok.blocksOnDisk, ok.inodeBits, ok.blockBits,
    ok.inodeTail, ok.blockTail, ok.inodeCount, ok.blockCount, ok.within, ok.limit, ok.image⟩

theorem allocated_iff_mem {sb : SuperBlock} (ok : Consistent sb) (n : Nat)
    (range : 146 ≤ n) : sb.Allocated n ↔ n - 146 ∈ sb.blockFreemap.elems := by
  rw [Bitmap.mem_elems, ok.blockBits]
  unfold Allocated
  grind

end Consistent

/-- `testfs_alloc_block` fails exactly when no block may be handed out; otherwise it hands out
the least free one, which lies within the configured size. -/
theorem testfsAllocBlock_sat (sb : SuperBlock) (ok : Consistent sb) :
    Sat (testfsAllocBlock sb)
      (fun r => (sb.free = 0 ∧ r = (-eNOSPC, sb.failed)) ∨
        (0 < sb.free ∧ ∃ n, 146 ≤ n ∧ n < 146 + sb.sb.maxFsBlocks ∧
          ¬ sb.Allocated n ∧ r = ((n : Int), sb.taken n)))
      (fun _ => False) := by
  unfold testfsAllocBlock
  split
  · rename_i full
    exact Or.inl ⟨by unfold SuperBlock.free; omega, rfl⟩
  · rename_i room
    unfold testfsGetBlockFreemap
    rw [sat_bind_iff, sat_bind_iff]
    refine (bitmapAlloc_sat sb.blockFreemap ok.wholeBlocks.padded).weaken ?_
    have bits := ok.blockBits
    have limit := ok.limit
    obtain ⟨i, small, clear⟩ := sb.blockFreemap.exists_clear sb.sb.maxFsBlocks (by omega)
      (by rw [← ok.blockCount]; omega)
    rintro (_ | ⟨index, freemap⟩) spec
    · -- the counter leaves room, so some bit is clear
      have set := spec i (by omega)
      rw [clear] at set
      cases set
    · obtain ⟨inside, unset, least, rfl⟩ := spec
      have bounded : index < sb.sb.maxFsBlocks := by
        by_contra beyond
        have set := least i (by omega)
        rw [clear] at set
        cases set
      have nonneg : ¬ (index : Int) < 0 := by omega
      simp only [sat_ok, nonneg, ↓reduceIte]
      refine Or.inr ⟨by unfold SuperBlock.free; omega, 146 + index, by omega, by omega, ?_, ?_⟩
      · simp only [SuperBlock.Allocated, Nat.add_sub_cancel_left, unset, Bool.false_eq_true,
          and_false, not_false_eq_true]
      · simp only [testfsWriteBlockFreemap, testfsWriteSuperBlock, SuperBlock.taken,
          ok.layout.dataBlocks, Nat.add_sub_cancel_left, blockSize, bitsPerWord]
        rfl

/-- `testfs_free_block` returns exactly for allocated data blocks. -/
theorem testfsFreeBlock_sat (sb : SuperBlock) (ok : Consistent sb) (blockNr : Int) :
    Sat (testfsFreeBlock sb blockNr)
      (fun sb' => ∃ n : Nat, blockNr = n ∧ sb.Allocated n ∧ sb' = sb.released n)
      (fun _ => ∀ n : Nat, blockNr = n → ¬ sb.Allocated n) := by
  unfold testfsFreeBlock
  rw [sat_bind_iff]
  by_cases negative : blockNr < 0
  · simp only [zeroBlocks, writeBlocks, negative, ↓reduceIte]
    intro n same
    omega
  · obtain ⟨n, rfl⟩ := Int.eq_ofNat_of_zero_le (by omega : 0 ≤ blockNr)
    rw [zeroBlocks_one]
    simp only [sat_ok, ok.layout.dataBlocks, Int.cast_ofNat_Int]
    by_cases range : 146 ≤ n
    · have shift : ((n : Int) - 146).toNat = n - 146 := by omega
      rw [cAssert_pos (by omega), ok_bind, shift]
      unfold testfsPutBlockFreemap
      rw [sat_bind_iff, sat_bind_iff]
      refine (bitmapUnmark_sat sb.blockFreemap (n - 146)).mono ?_ ?_
      · rintro freemap ⟨inside, set, rfl⟩
        rw [ok.blockBits] at inside
        have held : sb.Allocated n := ⟨range, by omega, set⟩
        have positive : 0 < sb.sb.usedBlockCount := by
          rw [ok.blockCount, Finset.card_pos]
          exact ⟨_, (ok.allocated_iff_mem n range).mp held⟩
        simp only [sat_ok, testfsWriteBlockFreemap]
        rw [cAssert_pos positive]
        refine ⟨n, rfl, held, ?_⟩
        simp only [testfsWriteSuperBlock, SuperBlock.released, blockSize, bitsPerWord]
      · rintro _ ⟨_, unset⟩ k same held
        obtain rfl : n = k := by omega
        rw [ok.blockBits] at unset
        exact unset ⟨by have := held.2.1; omega, held.2.2⟩
    · rw [cAssert_neg (by omega)]
      intro k same held
      have := held.1
      omega

theorem testfsFreeBlock_eq (sb : SuperBlock) (ok : Consistent sb) (n : Nat)
    (held : sb.Allocated n) : testfsFreeBlock sb n = .ok (sb.released n) := by
  have spec := testfsFreeBlock_sat sb ok n
  cases outcome : testfsFreeBlock sb n with
  | ok sb' =>
      rw [outcome] at spec
      obtain ⟨k, same, _, rfl⟩ := spec
      obtain rfl : n = k := by omega
      rfl
  | error e =>
      rw [outcome] at spec
      exact absurd held (spec n rfl)

end Ece344Lab.Fs
