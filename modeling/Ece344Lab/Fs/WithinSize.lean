import Ece344Lab.Fs.Atomic
import Ece344Lab.Fs.FreeBlocks
import Ece344Lab.Fs.WriteLoop

set_option autoImplicit false

/- The blocks behind the end of a file: `testfs_free_blocks` does not look for any, and
`testfs_write_data` can leave some when the blocks run out. -/
namespace Ece344Lab.Fs

open Outcome Ownership

section Last

variable {sb : SuperBlock}

/-- What is done with the last block: it is given back and `i_indirect` keeps naming it, or it
becomes the double-indirect block and stays with the inode. -/
theorem BlockOutcome.of_last {inode : Inode} {log : Nat} {block : Block} {r : BlockResult}
    (inside : log < 4196362) (last : LastForIndex sb inode log)
    (outcome : BlockOutcome sb inode block (leaf log) r) :
    (∃ n, sb.Next n ∧ 10 ≤ log ∧ log < 2058 ∧ inode.dinode.iIndirect = 0 ∧
      r = ⟨-eNOSPC, block, (inode.charged.setIndirect n).refunded,
        (sb.taken n).failed.released n⟩) ∨
    (∃ n, sb.Next n ∧ 2058 ≤ log ∧ inode.dinode.iDindirect = 0 ∧
      r = ⟨-eNOSPC, block, inode.charged.setDindirect n, (sb.taken n).failed⟩) := by
  have one := last.1
  generalize shape : leaf log = s at outcome
  cases outcome with
  | held present _ => exact absurd (shape ▸ last.absent inside _ (mem_path _)) present
  | full _ none => omega
  | direct => exact absurd last (not_lastForIndex_direct inside shape)
  | entry _ present next =>
      exact absurd ((toNat_eq_zero _).mpr ((lastForIndex_entry inside shape).mp last).2) present
  | indirect _ _ next next' =>
      have count := next.free
      have room := next'.room
      omega
  | stranded _ missing next none =>
      have range := range_of_leaf_entry inside shape
      exact Or.inl ⟨_, next, range.1, range.2, missing, rfl⟩
  | dentry _ _ present next =>
      have missing := ((lastForIndex_dentry inside shape).mp last).2
      exact absurd (ptr_page_of_missing missing _) present
  | page _ _ present | pageBack _ _ present =>
      exact absurd ((toNat_eq_zero _).mpr ((lastForIndex_dentry inside shape).mp last).2) present
  | dindirect _ _ next next' | bothBack _ _ next next' =>
      have count := next.free
      have room := next'.room
      omega
  | kept _ missing next none =>
      exact Or.inr ⟨_, next, range_of_leaf_dentry inside shape, missing, rfl⟩

theorem LastForIndex.lacking {inode : Inode} {log : Nat} (last : LastForIndex sb inode log)
    (inside : log < 4196362) : 2 ≤ lacking sb.dev inode.dinode (leaf log) := by
  have absent := last.absent inside
  rcases last.2 with single | double
  · obtain ⟨lower, upper, _⟩ := single
    rw [leaf_entry log lower upper] at absent ⊢
    rw [lacking_entry _ _ _ (absent _ (mem_path _)), if_pos (absent _ (by simp [path]))]
  · rw [leaf_dentry log double.1 inside] at absent ⊢
    rw [lacking_dentry _ _ _ _ (absent _ (by simp [path])) (absent _ (mem_path _)),
      if_pos (absent _ (by simp [path]))]
    decide

end Last

section Missing

variable (dev : Device) (d : Dinode)

theorem missing_empty (first last : Nat) (beyond : last < first ∨ 4196362 ≤ first) :
    missing dev d first last = 0 := by
  apply missing_filled
  intro s span
  obtain ⟨log, lower, upper, inside, _⟩ := span
  omega

theorem missing_mono (first : Nat) {last last' : Nat} (upper : last ≤ last') :
    missing dev d first last ≤ missing dev d first last' := by
  apply Finset.card_le_card
  apply Finset.filter_subset_filter
  intro s member
  rw [mem_spanSlots] at member ⊢
  obtain ⟨log, lower, upper', inside, found⟩ := member
  exact ⟨log, lower, by omega, inside, found⟩

end Missing

theorem le_of_dindirect_mem {log : Nat} (member : .dindirect ∈ path (leaf log)) : 2058 ≤ log := by
  by_contra near
  by_cases direct : log < 10
  · rw [leaf_direct log direct] at member
    simp [path] at member
  · rw [leaf_entry log (by omega) (by omega)] at member
    simp [path] at member

/-- The write of the blocks `first` to `last` has come to an end at block `k`, the first one that
is not to be had. The blocks before it are there now, and the size is as it was. -/
structure Stops (first last k : Nat) (sb : SuperBlock) (inode : Inode) (r : FileResult) :
    Prop where
  lower : first ≤ k
  upper : k ≤ last
  inside : k < 4196362
  short : sb.free < missing sb.dev inode.dinode first k
  enough : first < k → missing sb.dev inode.dinode first (k - 1) ≤ sb.free
  leaves : ∀ log < 4196362, ptr r.sb.dev r.inode.dinode (leaf log) ≠ 0 ↔
    ptr sb.dev inode.dinode (leaf log) ≠ 0 ∨ first ≤ log ∧ log < k
  dindirect : r.inode.dinode.iDindirect ≠ 0 → inode.dinode.iDindirect ≠ 0 ∨
    2058 ≤ k ∧ (first < k ∨ LastForIndex sb inode first)
  stays : LastForIndex sb inode first → 2058 ≤ first → r.inode.dinode.iDindirect ≠ 0
  dangles : Strands sb.free inode.dinode first last → r.inode.dinode.iIndirect ≠ 0 ∧
    ¬ r.sb.Allocated r.inode.dinode.iIndirect.toNat
  size : r.inode.dinode.iSize = inode.dinode.iSize

section Stopping

variable {sb : SuperBlock} {inode : Inode}

theorem ptr_eq_of_asBefore {sb' : SuperBlock} {inode' : Inode}
    (before : AsBefore sb inode sb' inode') :
    ptr sb'.dev inode'.dinode = ptr sb.dev inode.dinode := by
  have same : ptr sb'.dev inode'.dinode = ptr sb'.dev inode.dinode := by
    funext s
    have direct := before.direct
    have indirect := before.indirect
    have dindirect := before.dindirect
    cases s <;> simp only [ptr, direct, indirect, dindirect]
  rw [same]
  exact ptr_congr before.index

/-- Nothing was done to the blocks of the file, except perhaps to an index block. -/
theorem leaf_of_update {sb' : SuperBlock} {inode' : Inode} {s : Slot} {n : Nat}
    (index : s.index = true)
    (table : ptr sb'.dev inode'.dinode = Function.update (ptr sb.dev inode.dinode) s n)
    (first log : Nat) : ptr sb'.dev inode'.dinode (leaf log) ≠ 0 ↔
      ptr sb.dev inode.dinode (leaf log) ≠ 0 ∨ first ≤ log ∧ log < first := by
  have other : leaf log ≠ s := by
    intro same
    have kind := index_leaf log
    rw [same, index] at kind
    cases kind
  rw [table, Function.update_of_ne other]
  omega

/-- The single-indirect block that was given back has been cleared, so that there is nothing behind
it. -/
theorem ptr_stranded {n : Nat} (ok : Consistent sb) (owned : Owned sb inode.dinode)
    (next : sb.Next n) (absent : inode.dinode.iIndirect = 0) :
    ptr ((sb.taken n).failed.released n).dev (inode.charged.setIndirect n).refunded.dinode =
      Function.update (ptr sb.dev inode.dinode) .indirect n := by
  have number := toNat_pointer n next.upper
  have same := (next.undone ok).ptr_eq owned
  have blank : ((sb.taken n).failed.released n).dev.block (pointer n).toNat = Buffer.zero := by
    have ok' := (next.consistent ok).failed
    have lower := next.lower
    rw [number, SuperBlock.block_released _ _ ok'.layout next.upper n (Or.inl (by omega)),
      if_pos rfl]
  have set := ptr_setIndirect ((sb.taken n).failed.released n).dev inode.charged.dinode
    (pointer n) absent blank
  rw [ptr_charged, number, same] at set
  rw [ptr_refunded]
  exact set

theorem testfsAllocateBlock_stops (ok : Consistent sb) (owned : Owned sb inode.dinode)
    (zeros : FreeZero sb) {log last : Nat} (inside : log < 4196362) (upper : log ≤ last)
    (block : Block) :
    Sat (testfsAllocateBlock sb inode log block)
      (fun r => r.ret < 0 → Stops log last log sb inode ⟨r.ret, r.inode, r.sb⟩)
      (fun _ => True) := by
  refine (testfsAllocateBlock_outcome sb inode log block ok owned inside).mono ?_ fun _ _ => trivial
  intro r outcome error
  by_cases lastBlock : LastForIndex sb inode log
  · have lacks := lastBlock.lacking inside
    have amount := missing_one sb.dev inode.dinode log inside
    have one := lastBlock.1
    rcases outcome.of_last inside lastBlock with ⟨n, next, lower, single, absent, rfl⟩ |
      ⟨n, next, lower, absent, rfl⟩
    · have undone := next.undone ok
      have number := toNat_pointer n next.upper
      have table := ptr_stranded ok owned next absent
      refine ⟨Nat.le_refl log, upper, inside, by omega, fun less => absurd less (Nat.lt_irrefl log),
        fun l _ => leaf_of_update rfl table log l, fun double => Or.inl double,
        fun _ low => by omega, fun _ => ⟨pointer_ne_zero next, ?_⟩, rfl⟩
      change ¬ ((sb.taken n).failed.released n).Allocated (pointer n).toNat
      rw [number, undone.allocated]
      exact next.clear
    · have attached := Extends.attachDindirect_unwritten ok owned next absent zeros
      refine ⟨Nat.le_refl log, upper, inside, by omega, fun less => absurd less (Nat.lt_irrefl log),
        fun l _ => leaf_of_update rfl attached.table log l,
        fun _ => Or.inr ⟨lower, Or.inr lastBlock⟩,
        fun _ _ => pointer_ne_zero next, fun strands => ?_, rfl⟩
      have before := strands.before
      omega
  · have amount := missing_one sb.dev inode.dinode log inside
    have undoes := outcome.undoes ok owned inside
    have before := (undoes.resolve_left fun last => lastBlock last.1).2 error
    have table := ptr_eq_of_asBefore before
    rcases outcome.ends ok owned with reached | refused | stranded
    · have ret := reached.ret
      omega
    · have short := refused.short
      refine ⟨Nat.le_refl log, upper, inside, by omega,
        fun less => absurd less (Nat.lt_irrefl log), fun l _ => ?_, fun double => Or.inl ?_,
        fun last _ => absurd last lastBlock, fun strands => ?_, refused.size⟩
      · change ptr r.sb.dev r.inode.dinode (leaf l) ≠ 0 ↔ _
        rw [table]
        omega
      · change r.inode.dinode.iDindirect ≠ 0 at double
        rwa [before.dindirect] at double
      · -- a hole among the direct blocks could have been filled
        have one := strands.free
        by_cases direct : log < 10
        · rw [leaf_direct log direct, lacking_direct] at short
          split at short <;> omega
        · have none := holes_of_ge inode.dinode log (Nat.not_lt.mp direct)
          exact absurd ⟨by omega, Or.inl ⟨Nat.not_lt.mp direct, strands.before,
            strands.absent⟩⟩ lastBlock
    · obtain ⟨i, shape⟩ := stranded.entry
      have range := range_of_leaf_entry inside shape
      exact absurd ⟨stranded.last, Or.inl ⟨range.1, range.2, stranded.absent⟩⟩ lastBlock

/-- The end of the write after its first block, seen from before that block. -/
theorem Stops.after {log ix last k : Nat} {bytes : List Byte} {sb' : SuperBlock} {inode' : Inode}
    {r : FileResult} (stops : Stops (log + 1) last k sb' inode' r)
    (wrote : Wrote log ix bytes sb inode sb' inode') (inside : log < 4196362) :
    Stops log last k sb inode r := by
  have lower := stops.lower
  have amount := wrote.held
  have before : ∀ s ∉ path (leaf log), ptr sb'.dev inode'.dinode s = ptr sb.dev inode.dinode s :=
    wrote.ext.off
  have lastBlock : ¬ LastForIndex sb inode log := by
    intro lastBlock
    have lacks := lastBlock.lacking inside
    have one := lastBlock.1
    omega
  refine ⟨by omega, stops.upper, stops.inside, ?_, fun _ => ?_, fun l bound => ?_, fun double => ?_,
    fun last _ => absurd last lastBlock, fun strands => ?_, stops.size.trans wrote.size⟩
  · have short := stops.short
    rw [wrote.missing inside (by omega)]
    omega
  · rw [wrote.missing inside (by omega)]
    by_cases next : k = log + 1
    · rw [missing_empty _ _ _ _ (Or.inl (by omega))]
      omega
    · have enough := stops.enough (by omega)
      omega
  · rw [stops.leaves l bound]
    by_cases here : l = log
    · have present := wrote.present _ (mem_path (leaf log))
      rw [here]
      exact ⟨fun _ => Or.inr ⟨Nat.le_refl log, by omega⟩, fun _ => Or.inl present⟩
    · rw [before _ fun member => here (leaf_mem_path bound inside member)]
      omega
  · rcases stops.dindirect double with earlier | later
    · by_cases far : 2058 ≤ log
      · exact Or.inr ⟨by omega, Or.inl (by omega)⟩
      · left
        have same := before .dindirect fun member => far (le_of_dindirect_mem member)
        intro zero
        have null : ptr sb.dev inode.dinode .dindirect = 0 := (toNat_eq_zero _).mpr zero
        exact earlier ((toNat_eq_zero _).mp (same.trans null))
    · exact Or.inr ⟨later.1, Or.inl (by omega)⟩
  · apply stops.dangles
    have free := strands.free
    have first := strands.before
    -- the block just written was a direct one, for behind `i_indirect` it takes two
    by_cases direct : log < 10
    · have holes := wrote.holes direct
      refine ⟨?_, by omega, strands.reaches, by omega⟩
      rw [← toNat_eq_zero]
      refine (before .indirect ?_).trans ((toNat_eq_zero _).mpr strands.absent)
      rw [leaf_direct log direct]
      simp [path]
    · have two := wrote.two (Nat.not_lt.mp direct) first strands.absent
      have none := holes_of_ge inode.dinode log (Nat.not_lt.mp direct)
      omega

end Stopping

/-- A write finds all its blocks, or stops at the first one that is not to be had. -/
abbrev Tail (first last : Nat) (sb : SuperBlock) (inode : Inode) (r : FileResult) : Prop :=
  missing sb.dev inode.dinode first last ≤ sb.free ∨ ∃ k, Stops first last k sb inode r

theorem writeLast_tail (sb : SuperBlock) (inode : Inode) (start oSize : Int) (buf : List Byte)
    (blockNr ix : Nat) (ok : Consistent sb) (owned : Owned sb inode.dinode) (zeros : FreeZero sb)
    (small : ix < 8192) (fits : ix + buf.length ≤ 8192) :
    Sat (writeLast sb inode start oSize buf blockNr ix)
      (Tail blockNr (lastBlock (blockNr * 8192 + ix) buf.length) sb inode) (fun _ => True) := by
  rw [lastBlock_of_fits blockNr ix buf.length small fits]
  unfold writeLast
  refine Sat.ite (fun full => Or.inl ?_) ?_
  · rw [missing_empty _ _ _ _ (Or.inr full)]
    exact Nat.zero_le _
  intro room
  have inside : blockNr < 4196362 := Nat.not_le.mp room
  have spec := testfsAllocateBlock_sat sb inode blockNr Buffer.zero ok owned inside
  have stops := testfsAllocateBlock_stops ok owned zeros inside (Nat.le_refl blockNr) Buffer.zero
  cases run : testfsAllocateBlock sb inode blockNr Buffer.zero with
  | error e => trivial
  | ok r =>
      rw [run] at spec stops
      rw [ok_bind]
      by_cases error : r.ret < 0
      · rw [if_pos error]
        exact Or.inr ⟨blockNr, stops error⟩
      · rcases spec with reached | refused | stranded
        · have amount := (reached.wrote owned ix buf).held
          rw [if_neg error]
          apply Sat.bind (sat_true _)
          intro dev _
          left
          rw [missing_one _ _ _ inside]
          omega
        · exact absurd refused.ret error
        · exact absurd stranded.ret error

theorem writeLoop_tail (start oSize : Int) (fuel : Nat) (sb : SuperBlock) (inode : Inode)
    (buf : List Byte) (blockNr ix : Nat) (ok : Consistent sb) (owned : Owned sb inode.dinode)
    (zeros : FreeZero sb) (small : ix < 8192) :
    Sat (writeLoop start oSize fuel sb inode buf blockNr ix)
      (Tail blockNr (lastBlock (blockNr * 8192 + ix) buf.length) sb inode) (fun _ => True) := by
  induction fuel generalizing sb inode buf blockNr ix with
  | zero => trivial
  | succ fuel ih =>
      unfold writeLoop
      refine Sat.ite ?_ fun fits => writeLast_tail sb inode start oSize buf blockNr ix ok owned
        zeros small (Nat.not_lt.mp fits)
      intro more
      have more' : 8192 < ix + buf.length := more
      refine Sat.ite (fun full => Or.inl ?_) ?_
      · rw [missing_empty _ _ _ _ (Or.inr full)]
        exact Nat.zero_le _
      intro room
      have inside : blockNr < 4196362 := Nat.not_le.mp room
      have next := lastBlock_rest blockNr ix buf.length small more'
      have length : (buf.drop (8192 - ix)).length = buf.length - (8192 - ix) := List.length_drop
      have upper := le_lastBlock ((blockNr + 1) * 8192) (buf.length - (8192 - ix))
      rw [next] at upper
      have upper' : blockNr + 1 ≤ lastBlock (blockNr * 8192 + ix) buf.length := by
        rwa [Nat.mul_div_cancel _ (by decide)] at upper
      have spec := testfsAllocateBlock_sat sb inode blockNr Buffer.zero ok owned inside
      have stops := testfsAllocateBlock_stops ok owned zeros inside
        (Nat.le_of_succ_le upper') Buffer.zero
      cases run : testfsAllocateBlock sb inode blockNr Buffer.zero with
      | error e => trivial
      | ok r =>
          rw [run] at spec stops
          rw [ok_bind]
          dsimp only
          by_cases error : r.ret < 0
          · rw [if_pos error]
            exact Or.inr ⟨blockNr, stops error⟩
          · rcases spec with reached | refused | stranded
            · have wrote := reached.wrote owned ix (buf.take (8192 - ix))
              have rest : ∀ sb', Wrote blockNr ix (buf.take (8192 - ix)) sb inode sb' r.inode →
                  Sat (if blockSize < (buf.drop (8192 - ix)).length then
                      writeLoop start oSize fuel sb' r.inode (buf.drop (8192 - ix)) (blockNr + 1) 0
                    else writeLast sb' r.inode start oSize (buf.drop (8192 - ix)) (blockNr + 1) 0)
                    (Tail (blockNr + 1) (lastBlock (blockNr * 8192 + ix) buf.length) sb' r.inode)
                    (fun _ => True) := by
                intro sb' wrote'
                have owned' := wrote'.ext.owned owned
                have zeros' := wrote'.ext.zeros zeros
                rw [← next, ← length, ← Nat.add_zero ((blockNr + 1) * 8192)]
                refine Sat.ite (fun _ => ?_) fun fits => ?_
                · exact ih sb' r.inode (buf.drop (8192 - ix)) (blockNr + 1) 0
                    wrote'.ext.consistent owned' zeros' (by decide)
                · exact writeLast_tail sb' r.inode start oSize (buf.drop (8192 - ix))
                    (blockNr + 1) 0 wrote'.ext.consistent owned' zeros' (by decide)
                    (by rw [Nat.zero_add]; exact Nat.not_lt.mp fits)
              rw [if_neg error, reached.ret, writeBlocks_nat, ok_bind]
              apply (rest _ wrote).weaken
              intro r' tail
              rcases tail with enough | ⟨k, stopped⟩
              · have amount := wrote.held
                left
                rw [wrote.missing inside (Nat.le_of_succ_le upper')]
                omega
              · exact Or.inr ⟨k, stopped.after wrote inside⟩
            · exact absurd refused.ret error
            · exact absurd stranded.ret error

theorem testfsWriteData_tail (sb : SuperBlock) (inode : Inode) (buf : List Byte) (start : Nat)
    (ok : Consistent sb) (owned : Owned sb inode.dinode) (zeros : FreeZero sb)
    (inside : start / 8192 < 4196362) :
    Sat (testfsWriteData sb inode buf start)
      (Tail (start / 8192) (lastBlock start buf.length) sb inode) (fun _ => True) := by
  unfold testfsWriteData
  have room : ¬ nrMaxBlock ≤ start / blockSize := Nat.not_le.mpr inside
  have below : ¬ (start : Int) ≤ -(blockSize : Int) := by
    simp only [blockSize]
    omega
  rw [if_neg below, if_neg (by omega)]
  simp only [Int.toNat_natCast, room, ↓reduceIte]
  have loop :=
    writeLoop_tail start (toInt32 buf.length) (buf.length + 1) sb inode buf (start / 8192)
    (start % 8192) ok owned zeros (Nat.mod_lt _ (by decide))
  rw [Nat.div_add_mod'] at loop
  exact loop

section Sizes

theorem lt_endBlock_iff (d : Dinode) (log : Nat) :
    (log : Int) < d.endBlock ↔ log * 8192 < d.size := by
  unfold Dinode.endBlock
  by_cases negative : d.size + (blockSize : Nat) - 1 < 0
  · have none : 0 ≤ (-(d.size + (blockSize : Nat) - 1)).tdiv (blockSize : Nat) :=
      Int.tdiv_nonneg (by omega) (by decide)
    rw [Int.neg_tdiv] at none
    simp only [blockSize, Nat.cast_ofNat] at negative none ⊢
    omega
  · rw [Int.tdiv_eq_ediv_of_nonneg (by omega)]
    simp only [blockSize, Nat.cast_ofNat] at negative ⊢
    omega

theorem le_endBlock_iff (d : Dinode) (log : Nat) :
    ((log + 1 : Nat) : Int) ≤ d.endBlock ↔ log * 8192 < d.size := by
  rw [← lt_endBlock_iff]
  omega

theorem endBlock_lt (d : Dinode) (small : d.size ≤ 2 ^ 43) : d.endBlock < 2 ^ 31 := by
  by_contra large
  have inside : ((2 ^ 31 - 1 + 1 : Nat) : Int) ≤ d.endBlock := by
    push_cast
    omega
  have least := (le_endBlock_iff d _).mp inside
  push_cast at least
  omega

/-- The new `i_size`, whatever the old one was. -/
theorem size_max (old : BitVec 64) (start : Nat) (n : Int) (bound : start < 4196362 * 8192)
    (lower : -2 ^ 31 ≤ n) (upper : n < 2 ^ 31) :
    (BitVec.ofInt 64 (max old.toInt (start + n))).toInt = max old.toInt (start + n) := by
  have least := old.le_toInt
  have most := old.toInt_lt
  rw [BitVec.toInt_ofInt]
  apply Int.bmod_eq_of_le <;> omega

theorem toInt32_range (n : Int) : -2 ^ 31 ≤ toInt32 n ∧ toInt32 n < 2 ^ 31 := by
  unfold toInt32
  rw [Int.bmod_def]
  split <;> omega

theorem toInt32_le (n : Int) (large : 2 ^ 31 ≤ n) : toInt32 n ≤ n - 2 ^ 32 := by
  unfold toInt32
  rw [Int.bmod_def]
  split <;> omega

end Sizes

/-- `testfs_remove_inode` can give back every block of the inode: they are in use, and none is after
`testfs_free_blocks`, which leaves a count of zero for the assertion behind it. -/
structure Removable (sb : SuperBlock) (inode : Inode) : Prop where
  used : ∀ s, ptr sb.dev inode.dinode s ≠ 0 → sb.Allocated (ptr sb.dev inode.dinode s)
  freed : Sat (testfsFreeBlocks sb inode)
    (fun r => r.1.dinode.blockCount = 0 ∧
      ∀ s, ptr sb.dev inode.dinode s ≠ 0 → ¬ r.2.Allocated (ptr sb.dev inode.dinode s))
    (fun e => e = .exit ∧ ¬ Stored sb.dev inode.dinode)

theorem WithinSize.removable {sb : SuperBlock} {inode : Inode}
    (within : WithinSize sb.dev inode.dinode) (ok : Consistent sb) (owned : Owned sb inode.dinode)
    (counts : inode.dinode.blockCount = BitVec.ofNat 32 (held (ptr sb.dev inode.dinode)))
    (small : inode.dinode.size ≤ 2 ^ 43) : Removable sb inode := by
  refine ⟨owned.inside, (testfsFreeBlocks_sat sb inode ok owned).weaken ?_⟩
  intro r spec
  obtain ⟨F, freeing, covers⟩ := spec
  have all := covers within (endBlock_lt _ small)
  refine ⟨freeing.emptied counts all, ?_⟩
  intro s nonzero still
  exact ((freeing.allocated _).mp still).2 s (all s nonzero) rfl

/-- The writes that leave no block behind the end of the file: one that begins behind the largest
file; one that finds its blocks, where the new size comes from a `size` that an `int` can hold or
the last block was inside the file before; and one that stops at its first block or inside the file,
with no index block left over. -/
def KeepsWithin (sb : SuperBlock) (d : Dinode) (start size : Nat) : Prop :=
  let first := start / blockSize
  let last := lastBlock start size
  nrMaxBlock ≤ first ∨
    if missing sb.dev d first last ≤ sb.free then
      nrMaxBlock ≤ last ∨ size < 2 ^ 31 ∨ (last : Int) < d.endBlock
    else
      sb.free < missing sb.dev d first (max first d.endBlock.toNat) ∧
        ¬ Strands sb.free d first last ∧
        ¬ (2058 ≤ first ∧ d.endBlock < 2058 ∧ d.iDindirect = 0 ∧ sb.free = 1)

section Outcomes

variable {sb : SuperBlock} {inode : Inode} {r : FileResult}

theorem Spliced.leaves {pos : Nat} {buf : List Byte} (spliced : Spliced pos buf sb inode r)
    (log : Nat) (inside : log < 4196362) : ptr r.sb.dev r.inode.dinode (leaf log) ≠ 0 ↔
      ptr sb.dev inode.dinode (leaf log) ≠ 0 ∨
      pos / 8192 ≤ log ∧ log ≤ lastBlock pos buf.length := by
  by_cases range : pos / 8192 ≤ log ∧ log ≤ lastBlock pos buf.length
  · have present := spliced.present _ (Span.block range.1 range.2 inside (mem_path (leaf log)))
    exact ⟨fun _ => Or.inr range, fun _ => present⟩
  · rw [spliced.ext.off _ (not_span inside (by omega))]
    exact ⟨Or.inl, fun either => either.resolve_right range⟩

/-- The new blocks decide, when the file has not become shorter. -/
theorem Spliced.within_iff {pos : Nat} {buf : List Byte} (spliced : Spliced pos buf sb inode r)
    (within : WithinSize sb.dev inode.dinode) (longer : inode.dinode.size ≤ r.inode.dinode.size) :
    WithinSize r.sb.dev r.inode.dinode ↔ ∀ log < 4196362, pos / 8192 ≤ log →
      log ≤ lastBlock pos buf.length → log * 8192 < r.inode.dinode.size := by
  constructor
  · intro within' log inside lower upper
    have present := (spliced.leaves log inside).mpr (Or.inr ⟨lower, upper⟩)
    exact (lt_endBlock_iff _ _).mp (within'.data log inside present)
  · intro covered
    refine ⟨fun log inside present => ?_, fun double => ?_⟩
    · rw [lt_endBlock_iff]
      rcases (spliced.leaves log inside).mp present with before | ⟨lower, upper⟩
      · have least := (lt_endBlock_iff _ _).mp (within.data log inside before)
        omega
      · exact covered log inside lower upper
    · apply (le_endBlock_iff r.inode.dinode 2057).mpr
      by_cases before : inode.dinode.iDindirect = 0
      · have new : Span (pos / 8192) (lastBlock pos buf.length) .dindirect := by
          by_contra outside
          have same := spliced.ext.off .dindirect outside
          have null : ptr sb.dev inode.dinode .dindirect = 0 := (toNat_eq_zero _).mpr before
          exact double ((toNat_eq_zero _).mp (same.trans null))
        obtain ⟨log, lower, upper, inside, member⟩ := new
        have far := le_of_dindirect_mem member
        have least := covered log inside lower upper
        omega
      · have least := (le_endBlock_iff inode.dinode 2057).mp (within.dindirect before)
        omega

/-- The last block is inside the new size when `size` is a number for an `int`, or when the block
was inside before. -/
theorem last_inside_iff (old : Int) (start size : Nat) (positive : 0 < size) :
    (lastBlock start size * 8192 : Int) < max old (start + toInt32 size) ↔
      size < 2 ^ 31 ∨ (lastBlock start size * 8192 : Int) < old := by
  have split : lastBlock start size * 8192 ≤ start + (size - 1) ∧
      start + (size - 1) < lastBlock start size * 8192 + 8192 := by
    unfold lastBlock
    omega
  rw [lt_max_iff]
  by_cases small : size < 2 ^ 31
  · have same : toInt32 (size : Int) = size := toInt32_of_lt _ (by omega) (by omega)
    rw [same]
    omega
  · have less := toInt32_le (size : Int) (by omega)
    omega

/-- A write that is done, and has set the size. -/
theorem Spliced.done_iff {start : Nat} {buf : List Byte} (spliced : Spliced start buf sb inode r)
    (owned : Owned sb inode.dinode)
    (counts : inode.dinode.blockCount = BitVec.ofNat 32 (held (ptr sb.dev inode.dinode)))
    (bounded : inode.dinode.size ≤ 4196362 * 8192) (within : WithinSize sb.dev inode.dinode)
    (positive : 0 < buf.length) (inside : start / 8192 < 4196362)
    (fits : lastBlock start buf.length < 4196362)
    (size : r.inode.dinode.iSize =
      BitVec.ofInt 64 (max inode.dinode.size (start + toInt32 buf.length))) :
    WithinSize r.sb.dev r.inode.dinode ∧ Removable r.sb r.inode ↔
      buf.length < 2 ^ 31 ∨ (lastBlock start buf.length : Int) < inode.dinode.endBlock := by
  have range := toInt32_range buf.length
  have size' : r.inode.dinode.size = max inode.dinode.size (start + toInt32 buf.length) := by
    have value := size_max inode.dinode.iSize start (toInt32 buf.length) (by omega) range.1 range.2
    unfold Dinode.size at size ⊢
    rw [size, value]
  have small : r.inode.dinode.size ≤ 2 ^ 43 := by
    rw [size']
    apply max_le <;> omega
  have covered := spliced.within_iff within (by rw [size']; exact le_max_left _ _)
  have upper := le_lastBlock start buf.length
  rw [lt_endBlock_iff, ← last_inside_iff inode.dinode.size start buf.length positive, ← size']
  constructor
  · intro both
    exact covered.mp both.1 _ fits upper (Nat.le_refl _)
  · intro least
    have within' := covered.mpr fun log _ _ below => by omega
    exact ⟨within', within'.removable spliced.ext.consistent (spliced.ext.owned owned)
      (spliced.ext.counted counts) small⟩

theorem Stops.within_iff {first last k : Nat} (stops : Stops first last k sb inode r)
    (within : WithinSize sb.dev inode.dinode) : WithinSize r.sb.dev r.inode.dinode ↔
      sb.free < missing sb.dev inode.dinode first (max first inode.dinode.endBlock.toNat) ∧
        ¬ (2058 ≤ first ∧ inode.dinode.endBlock < 2058 ∧ inode.dinode.iDindirect = 0 ∧
          sb.free = 1) := by
  have lower := stops.lower
  have same : r.inode.dinode.endBlock = inode.dinode.endBlock := by
    unfold Dinode.endBlock Dinode.size
    rw [stops.size]
  have place : sb.free <
      missing sb.dev inode.dinode first (max first inode.dinode.endBlock.toNat) ↔
        k = first ∨ k ≤ inode.dinode.endBlock.toNat := by
    constructor
    · intro short
      by_contra later
      have enough := stops.enough (by omega)
      have less := missing_mono sb.dev inode.dinode first
        (show max first inode.dinode.endBlock.toNat ≤ k - 1 by omega)
      omega
    · intro early
      have less := missing_mono sb.dev inode.dinode first
        (show k ≤ max first inode.dinode.endBlock.toNat by omega)
      have short := stops.short
      omega
  rw [place]
  constructor
  · intro within'
    constructor
    · by_contra later
      have inside : k - 1 < 4196362 := Nat.lt_of_le_of_lt (Nat.sub_le k 1) stops.inside
      have present := (stops.leaves (k - 1) inside).mpr (Or.inr ⟨by omega, by omega⟩)
      have below := within'.data (k - 1) inside present
      omega
    · intro only
      obtain ⟨far, near, absent, one⟩ := only
      have stays := stops.stays ⟨one, Or.inr ⟨far, absent⟩⟩ far
      have least := within'.dindirect stays
      rw [same] at least
      change (2058 : Int) ≤ _ at least
      omega
  · intro early
    obtain ⟨early, several⟩ := early
    refine ⟨fun log inside present => ?_, fun double => ?_⟩
    · rw [same]
      rcases (stops.leaves log inside).mp present with before | new
      · exact within.data log inside before
      · omega
    · rw [same]
      rcases stops.dindirect double with before | ⟨far, later⟩
      · exact within.dindirect before
      · change (2058 : Int) ≤ _
        by_cases here : k = first
        · have last := later.resolve_left (by omega)
          rcases last.2 with single | none
          · omega
          · by_contra near
            exact several ⟨none.1, by omega, none.2, last.1⟩
        · omega

end Outcomes

/-- The file has no block behind its end after the write, and can be removed whole, if and only if
the write is one of those. -/
theorem testfsWriteData_within_iff (sb : SuperBlock) (inode : Inode) (buf : List Byte) (start : Nat)
    (ok : Consistent sb) (owned : Owned sb inode.dinode) (zeros : FreeZero sb)
    (counts : inode.dinode.blockCount = BitVec.ofNat 32 (held (ptr sb.dev inode.dinode)))
    (bounded : inode.dinode.size ≤ (nrMaxBlock * blockSize : Nat))
    (within : WithinSize sb.dev inode.dinode) (nonempty : buf ≠ []) :
    Sat (testfsWriteData sb inode buf start)
      (fun r => WithinSize r.sb.dev r.inode.dinode ∧ Removable r.sb r.inode ↔
        KeepsWithin sb inode.dinode start buf.length)
      (fun e => e = .exit ∧ ¬ Stored sb.dev inode.dinode) := by
  have positive := List.length_pos_of_ne_nil nonempty
  have bounded' : inode.dinode.size ≤ 4196362 * 8192 := by exact_mod_cast bounded
  unfold KeepsWithin
  dsimp only
  by_cases beyond : 4196362 ≤ start / 8192
  · rw [testfsWriteData_beyond sb inode buf start beyond]
    have removable := within.removable ok owned counts (by omega)
    exact ⟨fun _ => Or.inl beyond, fun _ => ⟨within, removable⟩⟩
  have inside : start / 8192 < 4196362 := Nat.not_le.mp beyond
  have outcome := testfsWriteData_sat sb inode buf start ok owned inside
  have tail := testfsWriteData_tail sb inode buf start ok owned zeros inside
  cases run : testfsWriteData sb inode buf start with
  | error e =>
      rw [run] at outcome
      exact outcome
  | ok r =>
      rw [run] at outcome tail
      change _ ↔ _
      rw [or_iff_right (show ¬ nrMaxBlock ≤ start / blockSize from beyond)]
      by_cases enough : missing sb.dev inode.dinode (start / blockSize) (lastBlock start buf.length)
          ≤ sb.free
      · rw [if_pos enough]
        cases outcome with
        | done spliced ret fits size =>
            rw [if_pos positive] at size
            rw [spliced.done_iff owned counts bounded' within positive inside fits size]
            exact ⟨Or.inr, fun either => either.resolve_left (Nat.not_le.mpr fits)⟩
        | tooBig spliced ret full size =>
            have size' : r.inode.dinode.size = 4196362 * 8192 := by
              unfold Dinode.size
              rw [size]
              decide
            have within' :=
              (spliced.within_iff within (by omega)).mpr fun log inside _ _ => by omega
            exact ⟨fun _ => Or.inl full, fun _ => ⟨within', within'.removable spliced.ext.consistent
              (spliced.ext.owned owned) (spliced.ext.counted counts) (by omega)⟩⟩
        | failed failed => exact absurd failed.short (Nat.not_lt.mpr enough)
        | stranded strands ret ghost dangling =>
            have short := (strands.short sb.dev (le_lastBlock start buf.length)).2
            exact absurd short (Nat.not_lt.mpr enough)
      · rw [if_neg enough]
        obtain ⟨k, stops⟩ := tail.resolve_left enough
        have placed := stops.within_iff within
        constructor
        · intro both
          obtain ⟨within', removable⟩ := both
          obtain ⟨early, several⟩ := placed.mp within'
          refine ⟨early, fun strands => ?_, several⟩
          obtain ⟨nonzero, dangling⟩ := stops.dangles strands
          exact dangling (removable.used .indirect fun zero => nonzero ((toNat_eq_zero _).mp zero))
        · intro keeps
          obtain ⟨early, whole, several⟩ := keeps
          have within' := placed.mpr ⟨early, several⟩
          refine ⟨within', ?_⟩
          have small : r.inode.dinode.size ≤ 2 ^ 43 := by
            unfold Dinode.size
            rw [stops.size]
            change inode.dinode.size ≤ _
            omega
          cases outcome with
          | done spliced ret fits size =>
              exact absurd (le_of_le_of_eq (Nat.le_add_left _ _) spliced.free) enough
          | tooBig spliced ret full size =>
              exact absurd (le_of_le_of_eq (Nat.le_add_left _ _) spliced.free) enough
          | failed failed =>
              have ext := failed.ext zeros
              exact within'.removable ext.consistent (ext.owned owned) (ext.counted counts) small
          | stranded strands ret ghost dangling => exact absurd strands whole

theorem fresh_emptyFile : ∃ sb, freshSuperBlock 1 = .ok sb ∧ Consistent sb ∧ FreeZero sb ∧
    sb.free = 1 ∧ (∀ s, ptr sb.dev emptyFile.dinode s = 0) ∧
    emptyFile.dinode.blockCount = BitVec.ofNat 32 (held (ptr sb.dev emptyFile.dinode)) ∧
    WithinSize sb.dev emptyFile.dinode := by
  obtain ⟨sb, made, blank⟩ := freshSuperBlock_eq 1 (by decide)
  have null : ∀ s, ptr sb.dev emptyFile.dinode s = 0 := ptr_zero sb.dev
  refine ⟨sb, made, blank.consistent, fun n lower _ => blank.zeros n (by omega),
    blank.free, null, ?_,
    ⟨fun log _ present => absurd (null _) present, fun double => absurd rfl double⟩⟩
  have none : ptr sb.dev emptyFile.dinode = fun _ => 0 := funext null
  rw [none, held_null]
  rfl

theorem fresh_missing {sb : SuperBlock} (null : ∀ s, ptr sb.dev emptyFile.dinode s = 0) :
    missing sb.dev emptyFile.dinode (0 / blockSize) (lastBlock 0 [(7 : Byte)].length) = 1 := by
  have first : leaf 0 = .direct 0 := rfl
  change missing sb.dev emptyFile.dinode 0 0 = _
  rw [missing_one _ _ 0 (by decide), first, lacking_direct, if_pos (null _)]

theorem fresh_written : ∃ sb r, freshSuperBlock 1 = .ok sb ∧
    testfsWriteData sb emptyFile [7] 0 = .ok r ∧ Owned r.sb r.inode.dinode ∧
    Stored r.sb.dev r.inode.dinode ∧ r.inode.dinode.size = 1 ∧
    content r.sb.dev r.inode.dinode 0 = 7 := by
  obtain ⟨sb, made, ok, zeros, free, null, _, _⟩ := fresh_emptyFile
  have owned := emptyFile_owned sb
  have stored : Stored sb.dev emptyFile.dinode := fun s nonzero => absurd (null s) nonzero
  have one := fresh_missing null
  obtain ⟨r, run, outcome⟩ := (testfsWriteData_sat sb emptyFile [7] 0 ok owned
    (by decide)).exists_of fun e stop => stop.2 stored
  refine ⟨sb, r, made, run, ?_⟩
  cases outcome with
  | done spliced ret fits size =>
      refine ⟨spliced.ext.owned owned, spliced.stored stored, ?_, ?_⟩
      · unfold Dinode.size
        rw [size]
        rfl
      · rw [spliced.contents 0 (by decide)]
        rfl
  | tooBig _ _ beyond _ => exact absurd beyond (by decide)
  | failed failed => exact absurd (free ▸ one ▸ failed.short) (by decide)
  | stranded strands _ _ _ => exact absurd strands.reaches (by decide)

theorem testfsWriteData_within_iff_first : ∃ sb, freshSuperBlock 1 = .ok sb ∧
    Sat (testfsWriteData sb emptyFile [7] 0)
      (fun r => WithinSize r.sb.dev r.inode.dinode ∧ Removable r.sb r.inode)
      (fun e => e = .exit ∧ ¬ Stored sb.dev emptyFile.dinode) := by
  obtain ⟨sb, made, ok, zeros, free, null, counts, within⟩ := fresh_emptyFile
  have spec := testfsWriteData_within_iff sb emptyFile [7] 0 ok (emptyFile_owned sb) zeros counts
    (by decide) within (by decide)
  refine ⟨sb, made, spec.weaken fun r keeps => keeps.mpr (Or.inr ?_)⟩
  have one := fresh_missing null
  rw [if_pos (one.trans free.symm).le]
  exact Or.inr (Or.inl (by decide))

/-- Two blocks to write with one free: the first stays behind the end of the empty file. -/
theorem second_block_missing : ∃ sb, freshSuperBlock 1 = .ok sb ∧ Consistent sb ∧ FreeZero sb ∧
    Owned sb emptyFile.dinode ∧ WithinSize sb.dev emptyFile.dinode ∧
    ∃ r, testfsWriteData sb emptyFile (List.replicate 8193 7) 0 = .ok r ∧
      r.inode.dinode.size = 0 ∧ ptr r.sb.dev r.inode.dinode (leaf 0) ≠ 0 ∧
      ¬ WithinSize r.sb.dev r.inode.dinode := by
  obtain ⟨sb, made, ok, zeros, free, null, _, within⟩ := fresh_emptyFile
  have owned := emptyFile_owned sb
  have bytes : (List.replicate 8193 (7 : Byte)).length = 8193 := List.length_replicate
  generalize List.replicate 8193 (7 : Byte) = buf at bytes
  have outcome := testfsWriteData_sat sb emptyFile buf 0 ok owned (by decide)
  have tail := testfsWriteData_tail sb emptyFile buf 0 ok owned zeros (by decide)
  have first : leaf 0 = .direct 0 := rfl
  have second : leaf 1 = .direct 1 := rfl
  have last : lastBlock 0 buf.length = 1 := by
    rw [bytes]
    rfl
  refine ⟨sb, made, ok, zeros, owned, within, ?_⟩
  change Sat _ (Tail 0 (lastBlock 0 buf.length) sb emptyFile) _ at tail
  rw [last] at tail
  cases run : testfsWriteData sb emptyFile buf 0 with
  | error e =>
      change Sat (testfsWriteData sb emptyFile buf 0) _ _ at outcome
      rw [run] at outcome
      exact absurd (fun s nonzero => absurd (null s) nonzero) outcome.2
  | ok r =>
      change Sat (testfsWriteData sb emptyFile buf 0) _ _ at tail
      rw [run] at tail
      have two : 1 < missing sb.dev emptyFile.dinode 0 1 := by
        have member : ∀ log ≤ 1, leaf log ∈
            (spanSlots 0 1).filter fun s => ptr sb.dev emptyFile.dinode s = 0 := by
          intro log upper
          rw [Finset.mem_filter, mem_spanSlots]
          exact ⟨Span.block (Nat.zero_le log) upper (by omega) (mem_path _), null _⟩
        exact Finset.one_lt_card.mpr ⟨leaf 0, member 0 (by decide), leaf 1, member 1 (by decide),
          by rw [first, second]; decide⟩
      obtain ⟨k, stops⟩ := Or.resolve_left tail (by rw [free]; exact Nat.not_le.mpr two)
      have one : missing sb.dev emptyFile.dinode 0 0 = 1 := by
        rw [missing_one _ _ 0 (by decide), first, lacking_direct, if_pos (null _)]
      have later : 0 < k := by
        by_contra early
        have short := stops.short
        rw [Nat.eq_zero_of_not_pos early, one, free] at short
        exact Nat.lt_irrefl 1 short
      have present := (stops.leaves 0 (by decide)).mpr (Or.inr ⟨Nat.le_refl 0, later⟩)
      have size : r.inode.dinode.size = 0 := by
        unfold Dinode.size
        rw [stops.size]
        rfl
      refine ⟨r, rfl, size, present, fun within' => ?_⟩
      have least := (lt_endBlock_iff _ 0).mp (within'.data 0 (by decide) present)
      rw [size] at least
      omega

end Ece344Lab.Fs
