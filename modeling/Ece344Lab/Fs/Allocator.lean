import Ece344Lab.Fs.Mount

set_option autoImplicit false

/- The block allocator over whole runs. -/
namespace Ece344Lab.Fs

open Outcome

/-- Any order of `testfs_alloc_block` and of `testfs_free_block` on allocated blocks. -/
inductive AllocatorRun (start : SuperBlock) : SuperBlock → Prop
  | start : AllocatorRun start start
  | alloc {sb sb' : SuperBlock} {ret : Int} (run : AllocatorRun start sb)
      (step : testfsAllocBlock sb = .ok (ret, sb')) : AllocatorRun start sb'
  | free {sb sb' : SuperBlock} {n : Nat} (run : AllocatorRun start sb) (held : sb.Allocated n)
      (step : testfsFreeBlock sb n = .ok sb') : AllocatorRun start sb'

/-- What every state of such a run satisfies: only the first `maxFsBlocks` data blocks are ever
handed out, and the image does not reach beyond them. -/
structure Bounded (maxFsBlocks : Nat) (sb : SuperBlock) : Prop where
  consistent : Consistent sb
  maximum : sb.sb.maxFsBlocks = maxFsBlocks
  inside : ∀ n, sb.Allocated n → n < 146 + maxFsBlocks
  length : sb.dev.nr ≤ 146 + maxFsBlocks

theorem Bounded.alloc {maxFsBlocks : Nat} {sb sb' : SuperBlock} {ret : Int}
    (bounded : Bounded maxFsBlocks sb) (step : testfsAllocBlock sb = .ok (ret, sb')) :
    Bounded maxFsBlocks sb' := by
  have ok := bounded.consistent
  have limit := ok.limit
  rcases (testfsAllocBlock_sat sb ok).of_ok step with ⟨_, same⟩ | ⟨room, n, lower, upper,
    clear, same⟩
  · cases same
    exact ⟨ok.failed, bounded.maximum, bounded.inside, bounded.length⟩
  · cases same
    have below : n < 1048722 := by omega
    rw [bounded.maximum] at upper
    refine ⟨ok.taken n lower below clear room, bounded.maximum, ?_, ?_⟩
    · intro k held
      rcases (sb.allocated_taken n lower below k).mp held with before | rfl
      · exact bounded.inside k before
      · exact upper
    · have image := ok.image
      have length := bounded.length
      simp only [SuperBlock.taken, Device.nr_set, ok.layout.blockFreemap]
      omega

theorem Bounded.free {maxFsBlocks : Nat} {sb sb' : SuperBlock} {n : Nat}
    (bounded : Bounded maxFsBlocks sb) (held : sb.Allocated n)
    (step : testfsFreeBlock sb n = .ok sb') : Bounded maxFsBlocks sb' := by
  have ok := bounded.consistent
  have lower := held.1
  have upper := held.2.1
  have below := bounded.inside n held
  rw [testfsFreeBlock_eq sb ok n held] at step
  cases step
  refine ⟨ok.released n held, bounded.maximum, ?_, ?_⟩
  · intro k still
    exact bounded.inside k ((sb.allocated_released n lower k).mp still).1
  · have image := ok.image
    have length := bounded.length
    simp only [SuperBlock.released, Device.nr_set, ok.layout.blockFreemap]
    omega

theorem Blank.bounded {sb : SuperBlock} {maxFsBlocks : Nat} (blank : Blank sb maxFsBlocks) :
    Bounded maxFsBlocks sb := by
  refine ⟨blank.consistent, blank.maximum, ?_, ?_⟩
  · exact fun n used => absurd used (blank.clear n)
  · have length := blank.length
    omega

theorem AllocatorRun.bounded {maxFsBlocks : Nat} {start sb : SuperBlock}
    (initial : Bounded maxFsBlocks start) (run : AllocatorRun start sb) :
    Bounded maxFsBlocks sb := by
  induction run with
  | start => exact initial
  | alloc _ step ih => exact ih.alloc step
  | free _ held step ih => exact ih.free held step

/-- Memory and device agree on the super block and on every page of the block freemap. -/
def OnDisk (sb : SuperBlock) : Prop :=
  sb.dev.block 0 = sb.sb.block ∧ ∀ nr < blockFreemapSize,
    sb.dev.block (sb.sb.blockFreemapStart + nr) = freemapPage sb.blockFreemap nr

/-- Over every run of the allocator from a new file system: the counter counts the set bits and
stays within the limit, allocation fails exactly at the limit and otherwise hands out a free block
of the configured range, freeing always succeeds, and memory agrees with the device. -/
theorem allocator_run (maxFsBlocks : Nat)
    (limit : maxFsBlocks ≤ blockFreemapSize * blockSize * 8) (start sb : SuperBlock)
    (fresh : freshSuperBlock maxFsBlocks = .ok start) (run : AllocatorRun start sb) :
    bitmapNrAllocated sb.blockFreemap = .ok sb.sb.usedBlockCount ∧
    sb.sb.usedBlockCount ≤ maxFsBlocks ∧
    (∃ ret sb', testfsAllocBlock sb = .ok (ret, sb') ∧
      (ret < 0 ↔ sb.sb.usedBlockCount = maxFsBlocks) ∧
      (0 ≤ ret → ∃ n : Nat, ret = n ∧ ¬ sb.Allocated n ∧ sb'.Allocated n ∧
        sb.sb.dataBlocksStart ≤ n ∧ n < sb.sb.dataBlocksStart + maxFsBlocks)) ∧
    (∀ n, sb.Allocated n → ∃ sb', testfsFreeBlock sb n = .ok sb' ∧ ¬ sb'.Allocated n) ∧
    sb.dev.nr ≤ sb.sb.dataBlocksStart + maxFsBlocks ∧ OnDisk sb := by
  have initial : Bounded maxFsBlocks start := by
    obtain ⟨sb₀, made, blank⟩ := freshSuperBlock_eq maxFsBlocks limit
    rw [fresh] at made
    cases made
    exact blank.bounded
  have bounded := run.bounded initial
  have ok := bounded.consistent
  have within := ok.within
  have most := ok.limit
  have maximum := bounded.maximum
  have data := ok.layout.dataBlocks
  rw [data]
  refine ⟨?_, maximum ▸ within, ?_, ?_,
    bounded.length, ok.superOnDisk, ?_⟩
  · have count := ok.blockCount
    rw [bitmapNrAllocated_eq, ← count, if_pos (by omega)]
  · obtain ⟨⟨ret, sb'⟩, returned, spec⟩ := (testfsAllocBlock_sat sb ok).exists_ok
    refine ⟨ret, sb', returned, ?_⟩
    rcases spec with ⟨full, same⟩ | ⟨room, n, lower, upper, clear, same⟩
    · cases same
      unfold SuperBlock.free at full
      have negative : -eNOSPC < 0 := by decide
      exact ⟨⟨fun _ => by omega, fun _ => negative⟩, fun nonneg => by omega⟩
    · cases same
      unfold SuperBlock.free at room
      have below : n < 1048722 := by omega
      refine ⟨⟨fun negative => by omega, fun full => by omega⟩, fun _ => ?_⟩
      exact ⟨n, rfl, clear, (sb.allocated_taken n lower below n).mpr (Or.inr rfl), lower,
        by omega⟩
  · intro n held
    refine ⟨_, testfsFreeBlock_eq sb ok n held, ?_⟩
    rw [sb.allocated_released n held.1]
    exact fun still => still.2 rfl
  · rw [ok.layout.blockFreemap]
    exact ok.blocksOnDisk

theorem allocator_run_one : ∃ start sb, freshSuperBlock 128 = .ok start ∧
    testfsAllocBlock start = .ok (146, sb) ∧ sb.sb.usedBlockCount = 1 ∧
    bitmapNrAllocated sb.blockFreemap = .ok sb.sb.usedBlockCount ∧ OnDisk sb := by
  have alloc : Returns (freshSuperBlock 128 >>= fun start => testfsAllocBlock start)
      fun r => r.1 = 146 ∧ r.2.sb.usedBlockCount = 1 := by
    decide +kernel
  obtain ⟨⟨ret, sb⟩, ran, first, one⟩ := alloc
  cases fresh : freshSuperBlock 128 with
  | error e =>
      rw [fresh] at ran
      cases ran
  | ok start =>
      rw [fresh] at ran
      change testfsAllocBlock start = .ok (ret, sb) at ran
      change ret = 146 at first
      subst first
      have spec := allocator_run 128 (by decide) start sb fresh (.alloc .start ran)
      exact ⟨start, sb, rfl, ran, one, spec.1, spec.2.2.2.2.2⟩

end Ece344Lab.Fs
