import Ece344Lab.Fs.SuperFacts

set_option autoImplicit false

/- The inode freemap: `testfs_get_inode_freemap` and `testfs_put_inode_freemap`. -/
namespace Ece344Lab.Fs

open Outcome

namespace SuperBlock

/-- Whether inode `n` is marked in the freemap; the inode blocks have room for 16384. -/
def InodeAllocated (sb : SuperBlock) (n : Nat) : Prop :=
  n < 16384 ∧ bitmapIsset sb.inodeFreemap n = true

instance (sb : SuperBlock) (n : Nat) : Decidable (sb.InodeAllocated n) := by
  unfold InodeAllocated
  infer_instance

def inodeTaken (sb : SuperBlock) (n : Nat) : SuperBlock :=
  let freemap := sb.inodeFreemap.mark n
  let counts := { sb.sb with usedInodeCount := sb.sb.usedInodeCount + 1 }
  { sb with
    sb := counts
    inodeFreemap := freemap
    dev := (sb.dev.set (sb.sb.inodeFreemapStart + n / 65536)
      (freemapPage freemap (n / 65536))).set 0 counts.block }

def inodeReleased (sb : SuperBlock) (n : Nat) : SuperBlock :=
  let freemap := sb.inodeFreemap.unmark n
  let counts := { sb.sb with usedInodeCount := sb.sb.usedInodeCount - 1 }
  { sb with
    sb := counts
    inodeFreemap := freemap
    dev := (sb.dev.set (sb.sb.inodeFreemapStart + n / 65536)
      (freemapPage freemap (n / 65536))).set 0 counts.block }

@[simp] theorem allocated_inodeTaken (sb : SuperBlock) (n k : Nat) :
    (sb.inodeTaken n).Allocated k ↔ sb.Allocated k := Iff.rfl

@[simp] theorem allocated_inodeReleased (sb : SuperBlock) (n k : Nat) :
    (sb.inodeReleased n).Allocated k ↔ sb.Allocated k := Iff.rfl

@[simp] theorem free_inodeTaken (sb : SuperBlock) (n : Nat) : (sb.inodeTaken n).free = sb.free :=
  rfl

@[simp] theorem free_inodeReleased (sb : SuperBlock) (n : Nat) :
    (sb.inodeReleased n).free = sb.free := rfl

theorem inodeAllocated_inodeTaken (sb : SuperBlock) (n : Nat) (inside : n < 16384) (m : Nat) :
    (sb.inodeTaken n).InodeAllocated m ↔ sb.InodeAllocated m ∨ m = n := by
  simp only [InodeAllocated, inodeTaken, Bitmap.isset_mark, Bool.or_eq_true, decide_eq_true_eq]
  by_cases same : m = n
  · simp [same, inside]
  · simp [same]

theorem inodeAllocated_inodeReleased (sb : SuperBlock) (n m : Nat) :
    (sb.inodeReleased n).InodeAllocated m ↔ sb.InodeAllocated m ∧ m ≠ n := by
  simp only [InodeAllocated, inodeReleased, Bitmap.isset_unmark, Bool.and_eq_true,
    Bool.not_eq_true', decide_eq_false_iff_not]
  tauto

section Page

variable {sb : SuperBlock} {n : Nat}

/-- Only the freemap page and the super block are written. -/
theorem block_inodeTaken (layout : Layout sb.sb) (inside : n < 65536) (k : Nat) (other : 2 ≤ k) :
    (sb.inodeTaken n).dev.block k = sb.dev.block k := by
  have page : k ≠ sb.sb.inodeFreemapStart + n / 65536 := by
    rw [layout.inodeFreemap]
    omega
  have super : k ≠ 0 := by omega
  simp [inodeTaken, page, super]

theorem block_inodeReleased (layout : Layout sb.sb) (inside : n < 65536) (k : Nat)
    (other : 2 ≤ k) : (sb.inodeReleased n).dev.block k = sb.dev.block k := by
  have page : k ≠ sb.sb.inodeFreemapStart + n / 65536 := by
    rw [layout.inodeFreemap]
    omega
  have super : k ≠ 0 := by omega
  simp [inodeReleased, page, super]

end Page

end SuperBlock

namespace Consistent

open SuperBlock

variable {sb : SuperBlock} {n : Nat}

theorem inodeTaken (ok : Consistent sb) (inside : n < 65536)
    (clear : bitmapIsset sb.inodeFreemap n = false) : Consistent (sb.inodeTaken n) := by
  have card := Bitmap.card_mark sb.inodeFreemap n (by rw [ok.inodeBits]; exact inside) clear
  have page : n / 65536 = 0 := Nat.div_eq_of_lt inside
  refine ⟨ok.layout.of_counts _ _, ?_, ?_, ?_, ok.inodeBits, ok.blockBits, ?_, ok.blockTail, ?_,
    ok.blockCount, ok.within, ok.limit, ?_⟩
  · simp [SuperBlock.inodeTaken]
  · simp [SuperBlock.inodeTaken, ok.layout.inodeFreemap, page]
  · intro nr below
    rw [block_inodeTaken ok.layout inside _ (by omega)]
    exact ok.blocksOnDisk nr below
  · intro i tail
    have apart : i ≠ n / 8 := by omega
    simp only [SuperBlock.inodeTaken, Bitmap.mark, Bitmap.setWord, apart, ↓reduceIte]
    exact ok.inodeTail i tail
  · simp only [SuperBlock.inodeTaken, card, ok.inodeCount]
  · have image := ok.image
    simp only [SuperBlock.inodeTaken, Device.nr_set]
    omega

theorem inodeReleased (ok : Consistent sb) (inside : n < 65536)
    (present : bitmapIsset sb.inodeFreemap n = true) : Consistent (sb.inodeReleased n) := by
  have card := Bitmap.card_unmark sb.inodeFreemap n (by rw [ok.inodeBits]; exact inside) present
  have page : n / 65536 = 0 := Nat.div_eq_of_lt inside
  refine ⟨ok.layout.of_counts _ _, ?_, ?_, ?_, ok.inodeBits, ok.blockBits, ?_, ok.blockTail, ?_,
    ok.blockCount, ok.within, ok.limit, ?_⟩
  · simp [SuperBlock.inodeReleased]
  · simp [SuperBlock.inodeReleased, ok.layout.inodeFreemap, page]
  · intro nr below
    rw [block_inodeReleased ok.layout inside _ (by omega)]
    exact ok.blocksOnDisk nr below
  · intro i tail
    have apart : i ≠ n / 8 := by omega
    simp only [SuperBlock.inodeReleased, Bitmap.unmark, Bitmap.setWord, apart, ↓reduceIte]
    exact ok.inodeTail i tail
  · have count := ok.inodeCount
    simp only [SuperBlock.inodeReleased]
    omega
  · have image := ok.image
    simp only [SuperBlock.inodeReleased, Device.nr_set]
    omega

end Consistent

/-- Handing out an inode number and taking it back leaves everything as it was. -/
theorem inodeReleased_inodeTaken {sb : SuperBlock} (ok : Consistent sb) {n : Nat}
    (inside : n < 65536) (clear : bitmapIsset sb.inodeFreemap n = false) :
    (sb.inodeTaken n).inodeReleased n = sb := by
  have taken := ok.inodeTaken inside clear
  have present : bitmapIsset (sb.inodeTaken n).inodeFreemap n = true := by
    simp [SuperBlock.inodeTaken, Bitmap.isset_mark]
  have back := taken.inodeReleased inside present
  have freemap : ((sb.inodeTaken n).inodeReleased n).inodeFreemap = sb.inodeFreemap :=
    sb.inodeFreemap.unmark_mark n clear
  have counts : ((sb.inodeTaken n).inodeReleased n).sb = sb.sb := rfl
  have dev : ((sb.inodeTaken n).inodeReleased n).dev = sb.dev := by
    apply Device.ext
    · funext k
      by_cases first : k = 0
      · rw [first, back.superOnDisk, ok.superOnDisk, counts]
      · by_cases second : k = 1
        · rw [second, back.inodesOnDisk, ok.inodesOnDisk, freemap]
        · rw [SuperBlock.block_inodeReleased taken.layout inside k (by omega),
            SuperBlock.block_inodeTaken ok.layout inside k (by omega)]
    · have image := ok.image
      have page : n / 65536 = 0 := Nat.div_eq_of_lt inside
      simp only [SuperBlock.inodeReleased, SuperBlock.inodeTaken, Device.nr_set,
        ok.layout.inodeFreemap, page]
      omega
  exact SuperBlock.ext counts dev freemap rfl rfl

/-- `testfs_get_inode_freemap` hands out the least free number. -/
theorem testfsGetInodeFreemap_sat (sb : SuperBlock) (ok : Consistent sb) :
    Sat (testfsGetInodeFreemap sb)
      (fun r => ((∀ n < 65536, bitmapIsset sb.inodeFreemap n = true) ∧ r = (-eNOSPC, sb)) ∨
        ∃ n < 65536, bitmapIsset sb.inodeFreemap n = false ∧
          (∀ m < n, bitmapIsset sb.inodeFreemap m = true) ∧ r = ((n : Int), sb.inodeTaken n))
      (fun _ => False) := by
  unfold testfsGetInodeFreemap
  rw [sat_bind_iff]
  apply (bitmapAlloc_sat sb.inodeFreemap ok.wholeInodes.padded).weaken
  intro found spec
  cases found with
  | none =>
      rw [ok.inodeBits] at spec
      exact Or.inl ⟨spec, rfl⟩
  | some found =>
      obtain ⟨inside, clear, least, marked⟩ := spec
      rw [ok.inodeBits] at inside
      refine Or.inr ⟨found.1, inside, clear, least, ?_⟩
      rw [marked]
      rfl

/-- `testfs_put_inode_freemap` returns exactly for numbers that are in use. -/
theorem testfsPutInodeFreemap_sat (sb : SuperBlock) (ok : Consistent sb) (n : Nat) :
    Sat (testfsPutInodeFreemap sb n)
      (fun sb' => n < 65536 ∧ bitmapIsset sb.inodeFreemap n = true ∧ sb' = sb.inodeReleased n)
      (fun _ => ¬ (n < 65536 ∧ bitmapIsset sb.inodeFreemap n = true)) := by
  unfold testfsPutInodeFreemap
  rw [sat_bind_iff]
  apply (bitmapUnmark_sat sb.inodeFreemap n).mono
  · intro freemap spec
    obtain ⟨inside, present, marked⟩ := spec
    have positive : 0 < sb.sb.usedInodeCount := by
      rw [ok.inodeCount, Finset.card_pos]
      exact ⟨n, (Bitmap.mem_elems _ _).mpr ⟨inside, present⟩⟩
    rw [ok.inodeBits] at inside
    have counted :
        0 < (testfsWriteInodeFreemap { sb with inodeFreemap := freemap } n).sb.usedInodeCount :=
      positive
    rw [sat_bind_iff, cAssert_pos counted, marked]
    exact ⟨inside, present, rfl⟩
  · intro e spec
    rw [← ok.inodeBits]
    exact spec.2

theorem testfsPutInodeFreemap_eq (sb : SuperBlock) (ok : Consistent sb) (n : Nat)
    (inside : n < 65536) (present : bitmapIsset sb.inodeFreemap n = true) :
    testfsPutInodeFreemap sb n = .ok (sb.inodeReleased n) := by
  have spec := testfsPutInodeFreemap_sat sb ok n
  cases outcome : testfsPutInodeFreemap sb n with
  | ok sb' =>
      rw [outcome] at spec
      rw [spec.2.2]
  | error e =>
      rw [outcome] at spec
      exact absurd ⟨inside, present⟩ spec

end Ece344Lab.Fs
