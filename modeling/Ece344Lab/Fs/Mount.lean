import Ece344Lab.Fs.SuperFacts

set_option autoImplicit false

/- Mounting a device: what `testfs_init_super_block` finds is what memory held. -/
namespace Ece344Lab.Fs

open Outcome

namespace DSuperBlock

/-- The fields fit the widths they have on the device. -/
structure Fits (d : DSuperBlock) : Prop where
  inodeFreemap : d.inodeFreemapStart < 2 ^ 32
  blockFreemap : d.blockFreemapStart < 2 ^ 32
  inodeBlocks : d.inodeBlocksStart < 2 ^ 32
  dataBlocks : d.dataBlocksStart < 2 ^ 32
  usedInodes : d.usedInodeCount < 2 ^ 32
  usedBlocks : d.usedBlockCount < 2 ^ 32
  maxFsBlocks : d.maxFsBlocks < 2 ^ 64

theorem length_bytes (d : DSuperBlock) : d.bytes.length = 32 := by
  rw [bytes, Bytes.length_flatMap_le32]
  rfl

theorem ofBytes_bytes (d : DSuperBlock) (fits : d.Fits) : ofBytes d.bytes = d := by
  obtain ⟨first, second, third, fourth, fifth, sixth, last⟩ := fits
  have word : ∀ k (inside : k < 8), Bytes.word d.bytes k = d.words.get ⟨k, inside⟩ :=
    fun k inside => Bytes.word_flatMap_le32 d.words k inside
  have low : d.maxFsBlocks % 2 ^ 32 < 2 ^ 32 := Nat.mod_lt _ (by decide)
  have high : d.maxFsBlocks / 2 ^ 32 < 2 ^ 32 := by omega
  unfold ofBytes
  rw [word 0 (by decide), word 1 (by decide), word 2 (by decide), word 3 (by decide),
    word 4 (by decide), word 5 (by decide), word 6 (by decide), word 7 (by decide)]
  simp only [words, List.get_eq_getElem, List.getElem_cons_zero, List.getElem_cons_succ,
    BitVec.toNat_ofNat, Nat.mod_eq_of_lt first, Nat.mod_eq_of_lt second, Nat.mod_eq_of_lt third,
    Nat.mod_eq_of_lt fourth, Nat.mod_eq_of_lt fifth, Nat.mod_eq_of_lt sixth,
    Nat.mod_eq_of_lt low, Nat.mod_eq_of_lt high, Nat.mod_add_div]

theorem ofBytes_block (d : DSuperBlock) (fits : d.Fits) :
    ofBytes (d.block.slice 0 32) = d := by
  have copied := Buffer.slice_splice_same (Buffer.zero : Block) 0 d.bytes
    (by rw [length_bytes]; decide)
  rw [length_bytes] at copied
  rw [block, copied, ofBytes_bytes d fits]

end DSuperBlock

theorem readFreemap_eq (dev : Device) (start pages : Nat) (b : Bitmap)
    (inside : start + pages ≤ dev.nr) :
    readFreemap dev start pages b = .ok ⟨b.nbits, fun i =>
      if i < pages * blockSize then (dev.block (start + i / blockSize)).get (i % blockSize)
      else b.v i⟩ := by
  have reads : ∀ items : List Nat, (∀ nr ∈ items, nr < pages) →
      items.foldlM (fun _ nr => do
        let _ ← readBlocks dev (start + nr : Nat)
        .ok ()) () = (.ok () : Except Halt Unit) := by
    intro items
    induction items with
    | nil => exact fun _ => rfl
    | cons nr rest ih =>
        intro below
        have first := below nr List.mem_cons_self
        rw [List.foldlM_cons, readBlocks_of_lt dev (start + nr) (by omega)]
        exact ih fun k member => below k (List.mem_cons_of_mem _ member)
  unfold readFreemap
  rw [reads _ fun nr member => List.mem_range.mp member]
  rfl

theorem bitmapCreate_inodes : bitmapCreate (blockSize * inodeFreemapSize * bitsPerWord) =
    .ok ⟨65536, fun _ => 0⟩ := rfl

theorem bitmapCreate_blocks : bitmapCreate (blockSize * blockFreemapSize * bitsPerWord) =
    .ok ⟨1048576, fun _ => 0⟩ := rfl

/-- The words of a freemap are those of its pages on the device. -/
theorem freemap_of_pages (dev : Device) (start pages : Nat) (b : Bitmap)
    (onDisk : ∀ nr < pages, dev.block (start + nr) = freemapPage b nr)
    (tail : ∀ i, pages * blockSize ≤ i → b.v i = 0) (i : Nat) :
    (if i < pages * blockSize then (dev.block (start + i / blockSize)).get (i % blockSize)
      else 0) = b.v i := by
  split
  · rename_i inside
    have page : i / blockSize < pages := by
      rw [Nat.div_lt_iff_lt_mul (by decide)]
      exact inside
    have small : i % blockSize < blockSize := Nat.mod_lt _ (by decide)
    rw [onDisk _ page, Buffer.get, dif_pos small, freemapPage, Nat.div_add_mod']
  · rename_i outside
    exact (tail i (by omega)).symm

namespace Consistent

theorem fits {sb : SuperBlock} (ok : Consistent sb) : sb.sb.Fits := by
  have layout := ok.layout
  have inodes := sb.inodeFreemap.card_le
  have within := ok.within
  have limit := ok.limit
  rw [← ok.inodeCount, ok.inodeBits] at inodes
  exact ⟨by rw [layout.inodeFreemap]; decide, by rw [layout.blockFreemap]; decide,
    by rw [layout.inodeBlocks]; decide, by rw [layout.dataBlocks]; decide, by omega, by omega,
    by omega⟩

/-- Initialising from the device gives back the running super block. -/
theorem remount {sb : SuperBlock} (ok : Consistent sb) :
    testfsInitSuperBlock sb.dev = .ok { sb with allocFailed := false } := by
  have image := ok.image
  have super : DSuperBlock.ofBytes ((sb.dev.block 0).slice 0 32) = sb.sb := by
    rw [ok.superOnDisk, DSuperBlock.ofBytes_block _ ok.fits]
  have inodes := freemap_of_pages sb.dev 1 inodeFreemapSize sb.inodeFreemap
    (by
      intro nr below
      obtain rfl : nr = 0 := Nat.lt_one_iff.mp below
      exact ok.inodesOnDisk)
    (fun i outside => ok.inodeTail i (by simp only [blockSize, inodeFreemapSize] at outside; omega))
  have blocks := freemap_of_pages sb.dev 2 blockFreemapSize sb.blockFreemap ok.blocksOnDisk
    (fun i outside => ok.blockTail i (by simp only [blockSize, blockFreemapSize] at outside; omega))
  unfold testfsInitSuperBlock
  rw [show (0 : Int) = ((0 : Nat) : Int) from rfl, readBlocks_of_lt sb.dev 0 (by omega), ok_bind,
    super, bitmapCreate_inodes, ok_bind, ok.layout.inodeFreemap,
    readFreemap_eq _ _ _ _ (by simp only [inodeFreemapSize]; omega), ok_bind,
    bitmapCreate_blocks, ok_bind, ok.layout.blockFreemap,
    readFreemap_eq _ _ _ _ (by simp only [blockFreemapSize]; omega), ok_bind]
  simp only [inodes, blocks, ← ok.inodeBits, ← ok.blockBits]

end Consistent

theorem zeroBlocks_eq (dev : Device) (start nr : Nat) :
    ∃ dev', zeroBlocks dev start nr = .ok dev' ∧ dev.nr ≤ dev'.nr ∧
      dev'.nr = max dev.nr (if nr = 0 then 0 else start + nr) ∧
      ∀ k, dev'.block k = if start ≤ k ∧ k < start + nr then Buffer.zero else dev.block k := by
  induction nr generalizing dev start with
  | zero =>
      refine ⟨dev, rfl, Nat.le_refl _, by simp, ?_⟩
      intro k
      rw [if_neg (by omega)]
  | succ nr ih =>
      obtain ⟨dev', returned, longer, last, blocks⟩ := ih (dev.set start Buffer.zero) (start + 1)
      refine ⟨dev', ?_, ?_, ?_, ?_⟩
      · rw [zeroBlocks, writeBlocks_nat, ok_bind]
        exact_mod_cast returned
      · rw [Device.nr_set] at longer
        omega
      · rw [last, Device.nr_set]
        split <;> simp only [Nat.add_eq_zero_iff, one_ne_zero, and_false, ↓reduceIte] <;> omega
      · intro k
        rw [blocks, Device.block_set]
        by_cases first : k = start
        · rw [if_neg (by omega), if_pos first, if_pos (by omega)]
        · rw [if_neg first]
          split
          · rw [if_pos (by omega)]
          · rw [if_neg (by omega)]

/-- A file system on which nothing has been allocated. -/
structure Blank (sb : SuperBlock) (maxFsBlocks : Nat) : Prop where
  consistent : Consistent sb
  noInodes : ∀ i, bitmapIsset sb.inodeFreemap i = false
  noBlocks : ∀ i, bitmapIsset sb.blockFreemap i = false
  maximum : sb.sb.maxFsBlocks = maxFsBlocks
  zeros : ∀ k, k ≠ 0 → sb.dev.block k = Buffer.zero
  length : sb.dev.nr = 146
  unfailed : sb.allocFailed = false

theorem Blank.clear {sb : SuperBlock} {maxFsBlocks : Nat} (blank : Blank sb maxFsBlocks) (n : Nat) :
    ¬ sb.Allocated n := by
  intro used
  have set := used.2.2
  rw [blank.noBlocks] at set
  cases set

theorem isset_zero (nbits i : Nat) : bitmapIsset ⟨nbits, fun _ => 0⟩ i = false := by
  simp [bitmapIsset]

theorem elems_zero (nbits : Nat) : (⟨nbits, fun _ => 0⟩ : Bitmap).elems = ∅ := by
  ext i
  rw [Bitmap.mem_elems, isset_zero]
  simp

theorem Blank.free {sb : SuperBlock} {maxFsBlocks : Nat} (blank : Blank sb maxFsBlocks) :
    sb.free = maxFsBlocks := by
  have none : sb.blockFreemap.elems = ∅ := by
    ext i
    rw [Bitmap.mem_elems, blank.noBlocks]
    simp
  unfold SuperBlock.free
  rw [blank.maximum, blank.consistent.blockCount, none]
  rfl

theorem freshSuperBlock_eq (maxFsBlocks : Nat) (limit : maxFsBlocks ≤ 1048576) :
    ∃ sb, freshSuperBlock maxFsBlocks = .ok sb ∧ Blank sb maxFsBlocks := by
  obtain ⟨first, inodes, _, last, blocks⟩ :=
    zeroBlocks_eq (testfsMakeSuperBlock maxFsBlocks).2 1 inodeFreemapSize
  obtain ⟨second, pages, _, last', blocks'⟩ := zeroBlocks_eq first 2 blockFreemapSize
  obtain ⟨third, table, _, last'', blocks''⟩ := zeroBlocks_eq second 18 nrInodeBlocks
  let made : DSuperBlock := (testfsMakeSuperBlock maxFsBlocks).1
  let sb : SuperBlock := ⟨made, third.set 0 made.block, ⟨65536, fun _ => 0⟩,
    ⟨1048576, fun _ => 0⟩, false⟩
  have length : sb.dev.nr = 146 := by
    change max third.nr (0 + 1) = 146
    rw [last'', last', last]
    rfl
  have zeros : ∀ k, k ≠ 0 → sb.dev.block k = Buffer.zero := by
    intro k other
    change (third.set 0 made.block).block k = _
    rw [Device.block_set_of_ne _ _ _ _ other, blocks'', blocks', blocks]
    have start : (testfsMakeSuperBlock maxFsBlocks).2.block k = Buffer.zero := if_neg other
    simp only [start, ite_self]
  have page : ∀ nr nbits, freemapPage ⟨nbits, fun _ => 0⟩ nr = Buffer.zero := fun _ _ => rfl
  have consistent : Consistent sb := by
    refine ⟨⟨rfl, rfl, rfl, rfl⟩, Device.block_set_same _ _ _, ?_, ?_, rfl, rfl, fun _ _ => rfl,
      fun _ _ => rfl, ?_, ?_, Nat.zero_le _, limit, by omega⟩
    · rw [zeros 1 (by decide), page]
    · intro nr _
      rw [zeros (2 + nr) (by omega), page]
    · rw [elems_zero]
      rfl
    · rw [elems_zero]
      rfl
  refine ⟨sb, ?_, consistent, fun i => isset_zero _ i, fun i => isset_zero _ i, rfl, zeros, length,
    rfl⟩
  have inodes' : testfsMakeInodeFreemap made (testfsMakeSuperBlock maxFsBlocks).2 = .ok first :=
    inodes
  have pages' : testfsMakeBlockFreemap made first = .ok second := pages
  have table' : testfsMakeInodeBlocks made second = .ok third := table
  calc freshSuperBlock maxFsBlocks
      = (testfsMakeInodeFreemap made (testfsMakeSuperBlock maxFsBlocks).2 >>= fun dev =>
          testfsMakeBlockFreemap made dev >>= fun dev =>
          testfsMakeInodeBlocks made dev >>= fun dev =>
          testfsInitSuperBlock (dev.set 0 made.block)) := rfl
    _ = testfsInitSuperBlock sb.dev := by
        rw [inodes', ok_bind, pages', ok_bind, table', ok_bind]
    _ = .ok sb := consistent.remount

end Ece344Lab.Fs
