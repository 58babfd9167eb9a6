import Ece344Lab.Fs.WithinSize

set_option autoImplicit false

/- `testfs_free_blocks` frees a file: what becomes of the blocks, of the counters and of the
pointers in the inode. -/
namespace Ece344Lab.Fs

open Outcome Ownership

theorem testfsFreeBlockFromInode_recounted (sb : SuperBlock) (inode : Inode) (w : BitVec 32) :
    Sat (testfsFreeBlockFromInode sb inode w) (fun r => Recounted inode r.1) fun _ => True := by
  unfold testfsFreeBlockFromInode
  apply Sat.ite
  · exact fun _ => Recounted.refl inode
  · exact fun _ => Sat.bind (sat_true _) fun sb' _ => ⟨_, _, rfl⟩

theorem freeEntries_recounted (entries : Block) (indices : List Nat) (sb : SuperBlock)
    (inode : Inode) :
    Sat (freeEntries entries indices sb inode) (fun r => Recounted inode r.1) fun _ => True := by
  apply sat_foldlM (I := fun _ r => Recounted inode r.1) indices (inode, sb) ?_
    (Recounted.refl inode)
  intro i rest r same
  exact (testfsFreeBlockFromInode_recounted r.2 r.1 _).weaken fun r' same' => same.trans same'

/-- The direct pointers below the bound are null afterwards. -/
theorem freeDirectBlocks_clears (eBlockNr : Int) (sb : SuperBlock) (inode : Inode) :
    Sat (freeDirectBlocks eBlockNr sb inode)
      (fun r => (∀ i, r.1.dinode.iBlockNr i = 0 ∨
          r.1.dinode.iBlockNr i = inode.dinode.iBlockNr i ∧ eBlockNr ≤ i.val) ∧
        r.1.dinode.iIndirect = inode.dinode.iIndirect ∧
        r.1.dinode.iDindirect = inode.dinode.iDindirect) fun _ => True := by
  let I (rest : List (Fin nrDirectBlocks)) (r : Inode × SuperBlock) : Prop :=
    (∀ i, r.1.dinode.iBlockNr i = 0 ∨
      r.1.dinode.iBlockNr i = inode.dinode.iBlockNr i ∧ ((i.val : Int) < eBlockNr → i ∈ rest)) ∧
    r.1.dinode.iIndirect = inode.dinode.iIndirect ∧
    r.1.dinode.iDindirect = inode.dinode.iDindirect
  unfold freeDirectBlocks
  apply Sat.weaken (Q := I []) (sat_foldlM (I := I) _ _ ?_ ?_)
  · intro r spec
    refine ⟨fun i => (spec.1 i).imp id fun still => ⟨still.1, ?_⟩, spec.2⟩
    by_contra below
    exact List.not_mem_nil (still.2 (Int.not_le.mp below))
  · intro i rest r spec
    obtain ⟨direct, indirect, dindirect⟩ := spec
    apply Sat.ite
    · intro _
      apply Sat.bind (testfsFreeBlockFromInode_recounted r.2 r.1 _)
      intro r' same
      obtain ⟨blocks, indirect', dindirect'⟩ := same.pointers
      refine ⟨fun j => ?_, indirect'.trans indirect, dindirect'.trans dindirect⟩
      by_cases here : j = i
      · exact Or.inl (if_pos here)
      · change (if j = i then 0 else r'.1.dinode.iBlockNr j) = 0 ∨
          (if j = i then 0 else r'.1.dinode.iBlockNr j) = _ ∧ _
        rw [if_neg here, blocks]
        refine (direct j).imp id fun still => ⟨still.1, fun below => ?_⟩
        exact (List.mem_cons.mp (still.2 below)).resolve_left here
    · intro beyond
      refine ⟨fun j => (direct j).imp id fun still => ⟨still.1, fun below => ?_⟩,
        indirect, dindirect⟩
      apply (List.mem_cons.mp (still.2 below)).resolve_left
      intro here
      exact beyond (here ▸ below)
  · exact ⟨fun i => Or.inr ⟨rfl, fun _ => List.mem_finRange i⟩, rfl, rfl⟩

theorem freeIndirectBlocks_clears (eBlockNr : Int) (sb : SuperBlock) (inode : Inode) :
    Sat (freeIndirectBlocks eBlockNr sb inode)
      (fun r => r.1.dinode.iBlockNr = inode.dinode.iBlockNr ∧
        (r.1.dinode.iIndirect = 0 ∨
          r.1.dinode.iIndirect = inode.dinode.iIndirect ∧ inode.dinode.iIndirect.toInt ≤ 0) ∧
        r.1.dinode.iDindirect = inode.dinode.iDindirect) fun _ => True := by
  unfold freeIndirectBlocks
  apply Sat.ite
  · intro _
    apply Sat.bind (sat_true _)
    intro block _
    apply Sat.bind (freeEntries_recounted block _ sb inode)
    intro r same
    apply Sat.bind (testfsFreeBlockFromInode_recounted r.2 r.1 _)
    intro r' same'
    obtain ⟨blocks, _, dindirect⟩ := (same.trans same').pointers
    exact ⟨blocks, Or.inl rfl, dindirect⟩
  · exact fun absent => ⟨rfl, Or.inr ⟨rfl, Int.not_lt.mp absent⟩, rfl⟩

theorem freeDindirectBlocks_clears (eBlockNr : Int) (sb : SuperBlock) (inode : Inode) :
    Sat (freeDindirectBlocks eBlockNr sb inode)
      (fun r => r.1.dinode.iBlockNr = inode.dinode.iBlockNr ∧
        r.1.dinode.iIndirect = inode.dinode.iIndirect ∧
        (r.1.dinode.iDindirect = 0 ∨ r.1.dinode.iDindirect = inode.dinode.iDindirect ∧
          ¬ (0 ≤ eBlockNr ∧ 0 < inode.dinode.iDindirect.toInt))) fun _ => True := by
  unfold freeDindirectBlocks
  generalize List.range nrIndirectBlocks = indices
  apply Sat.ite
  · intro _
    apply Sat.bind (sat_true _)
    intro index _
    apply Sat.bind (Q := fun r => Recounted inode r.1)
    · apply sat_foldlM (I := fun _ (r : Inode × SuperBlock) => Recounted inode r.1) indices
        (inode, sb) ?_ (Recounted.refl inode)
      intro j rest r same
      apply Sat.ite
      · exact fun _ => same
      · intro _
        apply Sat.bind (sat_true _)
        intro entries _
        apply Sat.bind (freeEntries_recounted entries _ r.2 r.1)
        intro r' same'
        exact (testfsFreeBlockFromInode_recounted r'.2 r'.1 _).weaken
          fun r'' same'' => (same.trans same').trans same''
    · intro r same
      apply Sat.bind (testfsFreeBlockFromInode_recounted r.2 r.1 _)
      intro r' same'
      obtain ⟨blocks, indirect, _⟩ := (same.trans same').pointers
      exact ⟨blocks, indirect, Or.inl rfl⟩
  · exact fun absent => ⟨rfl, rfl, Or.inr ⟨rfl, absent⟩⟩

/-- What `testfs_free_blocks` leaves of the inode, with `eBlockNr` as the `int` it works with. -/
theorem testfsFreeBlocks_clears (sb : SuperBlock) (inode : Inode) :
    Sat (testfsFreeBlocks sb inode)
      (fun r => r.1.dinode.iSize = 0 ∧
        (∀ i, r.1.dinode.iBlockNr i = 0 ∨ r.1.dinode.iBlockNr i = inode.dinode.iBlockNr i ∧
          toInt32 inode.dinode.endBlock ≤ i.val) ∧
        (r.1.dinode.iIndirect = 0 ∨
          r.1.dinode.iIndirect = inode.dinode.iIndirect ∧ inode.dinode.iIndirect.toInt ≤ 0) ∧
        (r.1.dinode.iDindirect = 0 ∨ r.1.dinode.iDindirect = inode.dinode.iDindirect ∧
          ¬ (0 ≤ toInt32 inode.dinode.endBlock - 10 - 2048 ∧ 0 < inode.dinode.iDindirect.toInt)))
      fun _ => True := by
  unfold testfsFreeBlocks
  apply Sat.bind (freeDirectBlocks_clears (toInt32 inode.dinode.endBlock) sb inode)
  intro r first
  apply Sat.bind (freeIndirectBlocks_clears (toInt32 inode.dinode.endBlock - 10) r.2 r.1)
  intro r' second
  apply Sat.bind (freeDindirectBlocks_clears (toInt32 inode.dinode.endBlock - 10 - 2048) r'.2 r'.1)
  intro r'' third
  obtain ⟨direct, indirect, dindirect⟩ := first
  obtain ⟨direct', indirect', dindirect'⟩ := second
  obtain ⟨direct'', indirect'', dindirect''⟩ := third
  rw [indirect] at indirect'
  rw [dindirect', dindirect] at dindirect''
  refine ⟨rfl, fun i => ?_, ?_, dindirect''⟩
  · change r''.1.dinode.iBlockNr i = 0 ∨ r''.1.dinode.iBlockNr i = _ ∧ _
    rw [direct'', direct']
    exact direct i
  · change r''.1.dinode.iIndirect = 0 ∨ r''.1.dinode.iIndirect = _ ∧ _
    rw [indirect'']
    exact indirect'

/-- The blocks of a file are all given back, and nothing else: `sb` and `inode` are the state
before. -/
structure FreesAll (sb : SuperBlock) (inode : Inode) (sb' : SuperBlock) (inode' : Inode) :
    Prop where
  bits : ∀ k, sb'.Allocated k ↔ sb.Allocated k ∧ ∀ s, ptr sb.dev inode.dinode s ≠ k
  zeroed : ∀ s, ptr sb.dev inode.dinode s ≠ 0 →
    sb'.dev.block (ptr sb.dev inode.dinode s) = Buffer.zero
  kept : ∀ k, 18 ≤ k → (∀ s, ptr sb.dev inode.dinode s ≠ k) → sb'.dev.block k = sb.dev.block k
  used : sb'.sb.usedBlockCount + held (ptr sb.dev inode.dinode) = sb.sb.usedBlockCount
  blockCount : inode'.dinode.blockCount = 0
  iSize : inode'.dinode.iSize = 0
  iBlockNr : ∀ i, inode'.dinode.iBlockNr i = 0
  iIndirect : inode'.dinode.iIndirect = 0
  iDindirect : inode'.dinode.iDindirect = 0

/-- The counter goes down by the number of the blocks given back. -/
theorem Owned.usedBlockCount {sb sb' : SuperBlock} {d : Dinode} (owned : Owned sb d)
    (ok : Consistent sb) (ok' : Consistent sb')
    (bits : ∀ k, sb'.Allocated k ↔ sb.Allocated k ∧ ∀ s, ptr sb.dev d s ≠ k) :
    sb'.sb.usedBlockCount + held (ptr sb.dev d) = sb.sb.usedBlockCount := by
  let used (sb : SuperBlock) := sb.blockFreemap.elems.map (addRightEmbedding 146)
  have member : ∀ {sb : SuperBlock}, Consistent sb → ∀ k, k ∈ used sb ↔ sb.Allocated k := by
    intro sb ok k
    constructor
    · intro inside
      obtain ⟨i, inside, same⟩ := Finset.mem_map.mp inside
      have same' : i + 146 = k := same
      rw [← same', ok.allocated_iff_mem _ (Nat.le_add_left _ _), Nat.add_sub_cancel]
      exact inside
    · intro allocated
      have lower := allocated.1
      refine Finset.mem_map.mpr ⟨k - 146, (ok.allocated_iff_mem k lower).mp allocated, ?_⟩
      exact Nat.sub_add_cancel lower
  have owned' : Owns (· ∈ used sb) (ptr sb.dev d) :=
    ⟨fun s nonzero => (member ok _).mpr (owned.inside s nonzero), owned.distinct⟩
  have left : ∀ k, k ∈ used sb' ↔ k ∈ used sb ∧ ∀ s, ptr sb.dev d s ≠ k := by
    intro k
    rw [member ok', member ok, bits]
  have nonzero : 0 ∉ used sb := by
    rw [member ok]
    intro allocated
    exact absurd allocated.1 (by decide)
  have fewer := owned'.card_freed left nonzero
  rw [ok.blockCount, ok'.blockCount]
  rwa [Finset.card_map, Finset.card_map] at fewer

/-- `testfs_free_blocks` frees a file whose blocks all lie below `DIVROUNDUP(i_size, BLOCK_SIZE)`,
when that number fits the `int` it is stored in. -/
theorem testfsFreeBlocks_frees (sb : SuperBlock) (inode : Inode) (ok : Consistent sb)
    (owned : Owned sb inode.dinode)
    (counts : inode.dinode.blockCount = BitVec.ofNat 32 (held (ptr sb.dev inode.dinode)))
    (within : WithinSize sb.dev inode.dinode) (bounded : inode.dinode.endBlock < 2 ^ 31) :
    Sat (testfsFreeBlocks sb inode) (fun r => FreesAll sb inode r.2 r.1)
      (fun e => e = .exit ∧ ¬ Stored sb.dev inode.dinode) := by
  apply ((testfsFreeBlocks_sat sb inode ok owned).also (testfsFreeBlocks_clears sb inode)).weaken
  intro r spec
  obtain ⟨⟨F, freeing, covers⟩, size, direct, indirect, dindirect⟩ := spec
  have all := covers within bounded
  have apart : ∀ k, (∀ s ∈ F, ptr sb.dev inode.dinode s ≠ k) ∧ k ≠ 0 ↔
      (∀ s, ptr sb.dev inode.dinode s ≠ k) ∧ k ≠ 0 := by
    intro k
    refine ⟨fun away => ⟨fun s same => ?_, away.2⟩, fun away => ⟨fun s _ => away.1 s, away.2⟩⟩
    exact away.1 s (all s (same ▸ away.2)) same
  have bits : ∀ k, r.2.Allocated k ↔ sb.Allocated k ∧ ∀ s, ptr sb.dev inode.dinode s ≠ k := by
    intro k
    rw [freeing.allocated]
    refine and_congr_right fun used => ?_
    have nonzero : k ≠ 0 := by
      have lower := used.1
      omega
    have same := apart k
    rwa [and_iff_left nonzero, and_iff_left nonzero] at same
  have exact : 0 ≤ inode.dinode.endBlock →
      toInt32 inode.dinode.endBlock = inode.dinode.endBlock :=
    fun lower => toInt32_of_lt _ lower bounded
  have present : ∀ {w : BitVec 32} {s : Slot}, w.toNat = ptr sb.dev inode.dinode s →
      w.toInt ≤ 0 → w = 0 := by
    intro w s value none
    rw [← toNat_eq_zero]
    by_contra nonzero
    have positive := toInt_pos_of_ne_zero (value ▸ owned.small s) nonzero
    omega
  refine ⟨bits, fun s nonzero => freeing.zeros s (all s nonzero) nonzero, fun k data away =>
    freeing.kept k data fun s _ => away s, owned.usedBlockCount ok freeing.consistent bits,
    freeing.emptied counts all, size, fun i => ?_, ?_, ?_⟩
  · cases direct i with
    | inl null => exact null
    | inr still =>
        rw [still.1, ← toNat_eq_zero]
        by_contra nonzero
        have small : i.val < 10 := i.isLt
        have below := within.data i.val (Nat.lt_trans small (by decide))
          (by rw [leaf_direct i.val small]; exact nonzero)
        have same := exact (by omega)
        have beyond := still.2
        omega
  · cases indirect with
    | inl null => exact null
    | inr still => exact still.1.trans (present (s := .indirect) rfl still.2)
  · cases dindirect with
    | inl null => exact null
    | inr still =>
        rw [still.1]
        by_contra nonzero
        have behind := within.dindirect nonzero
        change (2058 : Int) ≤ inode.dinode.endBlock at behind
        have same := exact (by omega)
        refine still.2 ⟨by omega, ?_⟩
        by_contra none
        exact nonzero (present (s := .dindirect) rfl (Int.not_lt.mp none))

/-- A file of one block, the first data block, with any size. -/
def oneBlock (iSize : BitVec 64) : Inode where
  dinode := { Dinode.zero with
    iBlockNr := fun i => if i.val = 0 then 146 else 0, blockCount := 1, iSize := iSize }
  dirty := false
  iNr := 0
  iCount := 1

theorem ptr_oneBlock (dev : Device) (iSize : BitVec 64) :
    ptr dev (oneBlock iSize).dinode = Function.update (fun _ => 0) (.direct 0) 146 := by
  funext s
  by_cases first : s = .direct 0
  · rw [first, Function.update_self]
    rfl
  · rw [Function.update_of_ne first]
    cases s with
    | direct i =>
        have other : ¬ i.val = 0 := fun zero => first (congrArg Slot.direct (Fin.ext zero))
        change (if i.val = 0 then (146 : BitVec 32) else 0).toNat = 0
        rw [if_neg other]
        rfl
    | indirect => rfl
    | entry i => exact ptr_zero dev (.entry i)
    | dindirect => rfl
    | page i => exact ptr_zero dev (.page i)
    | dentry i j => exact ptr_zero dev (.dentry i j)

theorem fresh_oneBlock (iSize : BitVec 64) (positive : 0 < (oneBlock iSize).dinode.endBlock) :
    ∃ sb, freshSuperBlock 1 = .ok sb ∧ Consistent (sb.taken 146) ∧
      Owned (sb.taken 146) (oneBlock iSize).dinode ∧
      (oneBlock iSize).dinode.blockCount =
        BitVec.ofNat 32 (held (ptr (sb.taken 146).dev (oneBlock iSize).dinode)) ∧
      WithinSize (sb.taken 146).dev (oneBlock iSize).dinode := by
  obtain ⟨sb, made, blank⟩ := freshSuperBlock_eq 1 (by decide)
  have ok := blank.consistent.taken 146 (by decide) (by decide) (blank.clear 146)
    (by rw [blank.free]; decide)
  have used := (sb.allocated_taken 146 (by decide) (by decide) 146).mpr (Or.inr rfl)
  have only : ∀ s, ptr (sb.taken 146).dev (oneBlock iSize).dinode s ≠ 0 → s = .direct 0 := by
    intro s nonzero
    by_contra other
    rw [ptr_oneBlock, Function.update_of_ne other] at nonzero
    exact nonzero rfl
  refine ⟨sb, made, ok, ?_, ?_, fun log inside present => ?_, fun double => absurd rfl double⟩
  · rw [Owned, ptr_oneBlock]
    exact .single _ 146 used
  · rw [ptr_oneBlock, held_update (fun _ => 0) _ 146 rfl (by decide), held_null]
    rfl
  · have first := only _ present
    by_cases small : log < 10
    · rw [leaf_direct log small] at first
      have zero := congrArg Fin.val (Slot.direct.inj first)
      have same : log = 0 := zero
      rw [same]
      exact positive
    · have shape : leaf log ≠ leaf 0 := fun same => small (by
        have equal := leaf_injective inside (by decide) same
        omega)
      exact absurd (first.trans (leaf_direct 0 (by decide)).symm) shape

theorem testfsFreeBlocks_frees_one : ∃ sb, freshSuperBlock 1 = .ok sb ∧
    Sat (testfsFreeBlocks (sb.taken 146) (oneBlock 1))
      (fun r => FreesAll (sb.taken 146) (oneBlock 1) r.2 r.1)
      (fun e => e = .exit ∧ ¬ Stored (sb.taken 146).dev (oneBlock 1).dinode) := by
  obtain ⟨sb, made, ok, owned, counts, within⟩ := fresh_oneBlock 1 (by decide)
  exact ⟨sb, made, testfsFreeBlocks_frees _ _ ok owned counts within (by decide)⟩

/-- With `i_size` at `2^45` the number of blocks is `2^32`, which the `int` takes for 0: the block
of the file is not given back. -/
theorem free_blocks_wraps : ∃ sb, freshSuperBlock 1 = .ok sb ∧ Consistent (sb.taken 146) ∧
    Owned (sb.taken 146) (oneBlock (BitVec.ofNat 64 (2 ^ 45))).dinode ∧
    (oneBlock (BitVec.ofNat 64 (2 ^ 45))).dinode.blockCount =
      BitVec.ofNat 32 (held (ptr (sb.taken 146).dev (oneBlock (BitVec.ofNat 64 (2 ^ 45))).dinode)) ∧
    WithinSize (sb.taken 146).dev (oneBlock (BitVec.ofNat 64 (2 ^ 45))).dinode ∧
    ∃ inode', testfsFreeBlocks (sb.taken 146)
    (oneBlock (BitVec.ofNat 64 (2 ^ 45))) = .ok (inode', sb.taken 146) ∧
      ¬ FreesAll (sb.taken 146) (oneBlock (BitVec.ofNat 64 (2 ^ 45))) (sb.taken 146) inode' := by
  obtain ⟨sb, made, ok, owned, counts, within⟩ :=
    fresh_oneBlock (BitVec.ofNat 64 (2 ^ 45)) (by decide)
  refine ⟨sb, made, ok, owned, counts, within, _, rfl, fun frees => ?_⟩
  have count := frees.blockCount
  exact absurd count (by decide)

end Ece344Lab.Fs
