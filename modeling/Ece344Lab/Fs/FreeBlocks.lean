import Ece344Lab.Fs.Extends
import Ece344Lab.Fs.ReadData

set_option autoImplicit false

/- `testfs_free_blocks`: every block of an inode is given back once. -/
namespace Ece344Lab.Fs

open Outcome Ownership

/-- The blocks behind the slots in `F` have been given back; `sb₀` and `inode₀` are the state
before. Null pointers among the slots stand for nothing. -/
structure Freeing (sb₀ : SuperBlock) (inode₀ : Inode) (F : Finset Slot) (sb : SuperBlock)
    (inode : Inode) : Prop where
  consistent : Consistent sb
  allocated : ∀ k, sb.Allocated k ↔
    sb₀.Allocated k ∧ ∀ s ∈ F, ptr sb₀.dev inode₀.dinode s ≠ k
  kept : ∀ k, 18 ≤ k → (∀ s ∈ F, ptr sb₀.dev inode₀.dinode s ≠ k) →
    sb.dev.block k = sb₀.dev.block k
  zeros : ∀ s ∈ F, ptr sb₀.dev inode₀.dinode s ≠ 0 →
    sb.dev.block (ptr sb₀.dev inode₀.dinode s) = Buffer.zero
  charge : inode.dinode.blockCount = inode₀.dinode.blockCount -
    BitVec.ofNat 32 (F.filter fun s => ptr sb₀.dev inode₀.dinode s ≠ 0).card
  number : inode.iNr = inode₀.iNr
  count : inode.iCount = inode₀.iCount
  inodes : sb.inodeFreemap = sb₀.inodeFreemap
  limit : sb.sb.maxFsBlocks = sb₀.sb.maxFsBlocks
  ghost : sb.allocFailed = sb₀.allocFailed
  longer : sb₀.dev.nr ≤ sb.dev.nr

/-- Only the block count and the dirty flag may differ. -/
def Recounted (inode inode' : Inode) : Prop :=
  ∃ count dirty, inode' = { inode with dinode.blockCount := count, dirty := dirty }

theorem Recounted.refl (inode : Inode) : Recounted inode inode := ⟨_, _, rfl⟩

theorem Recounted.trans {inode inode' inode'' : Inode} (first : Recounted inode inode')
    (second : Recounted inode' inode'') : Recounted inode inode'' := by
  obtain ⟨_, _, same⟩ := first
  obtain ⟨count, dirty, same'⟩ := second
  exact ⟨count, dirty, by rw [same', same]⟩

theorem Recounted.pointers {inode inode' : Inode} (same : Recounted inode inode') :
    inode'.dinode.iBlockNr = inode.dinode.iBlockNr ∧
      inode'.dinode.iIndirect = inode.dinode.iIndirect ∧
      inode'.dinode.iDindirect = inode.dinode.iDindirect := by
  obtain ⟨_, _, same⟩ := same
  rw [same]
  exact ⟨rfl, rfl, rfl⟩

theorem sub_one_sub (a b : BitVec 32) : a - b - 1 = a - (b + 1) := by
  bv_omega

namespace Freeing

variable {sb₀ sb : SuperBlock} {inode₀ inode : Inode} {F : Finset Slot}

theorem refl (ok : Consistent sb₀) (inode₀ : Inode) : Freeing sb₀ inode₀ ∅ sb₀ inode₀ where
  consistent := ok
  allocated k := by simp
  kept _ _ _ := rfl
  zeros s member := by simp at member
  charge := by simp
  number := rfl
  count := rfl
  inodes := rfl
  limit := rfl
  ghost := rfl
  longer := Nat.le_refl _

/-- The blocks of slots that have not been given back hold what they held. -/
theorem block_eq (freeing : Freeing sb₀ inode₀ F sb inode) (owned : Owned sb₀ inode₀.dinode)
    {t : Slot} (fresh : t ∉ F) (nonzero : ptr sb₀.dev inode₀.dinode t ≠ 0) :
    sb.dev.block (ptr sb₀.dev inode₀.dinode t) = sb₀.dev.block (ptr sb₀.dev inode₀.dinode t) := by
  have range := (owned.range nonzero).1
  apply freeing.kept _ (by omega)
  intro s member
  apply owned.ne _ nonzero
  intro same
  exact fresh (same ▸ member)

theorem cleared (freeing : Freeing sb₀ inode₀ F sb inode) (inode' : Inode)
    (charge : inode'.dinode.blockCount = inode.dinode.blockCount)
    (number : inode'.iNr = inode.iNr) (count : inode'.iCount = inode.iCount) :
    Freeing sb₀ inode₀ F sb inode' :=
  { freeing with
    charge := charge.trans freeing.charge
    number := number.trans freeing.number
    count := count.trans freeing.count }

theorem free (freeing : Freeing sb₀ inode₀ F sb inode) (owned : Owned sb₀ inode₀.dinode)
    (t : Slot) (fresh : t ∉ F) (w : BitVec 32) (value : w.toNat = ptr sb₀.dev inode₀.dinode t) :
    Sat (testfsFreeBlockFromInode sb inode w)
      (fun r => Freeing sb₀ inode₀ (insert t F) r.2 r.1 ∧ Recounted inode r.1)
      (fun _ => False) := by
  by_cases null : ptr sb₀.dev inode₀.dinode t = 0
  · have zero : w = 0 := (toNat_eq_zero w).mp (value.trans null)
    have same : ((insert t F).filter fun s => ptr sb₀.dev inode₀.dinode s ≠ 0) =
        F.filter fun s => ptr sb₀.dev inode₀.dinode s ≠ 0 := by
      rw [Finset.filter_insert, if_neg (by simpa using null)]
    rw [zero, testfsFreeBlockFromInode_zero]
    refine ⟨{ freeing with
      allocated := ?_
      kept := ?_
      zeros := ?_
      charge := by rw [same]; exact freeing.charge }, Recounted.refl inode⟩
    · intro k
      rw [freeing.allocated, Finset.forall_mem_insert, null]
      constructor
      · intro held
        have lower := held.1.1
        exact ⟨held.1, by omega, held.2⟩
      · exact fun held => ⟨held.1, held.2.2⟩
    · intro k data apart
      exact freeing.kept k data fun s member => apart s (Finset.mem_insert_of_mem member)
    · intro s member nonzero
      apply freeing.zeros s _ nonzero
      apply (Finset.mem_insert.mp member).resolve_left
      intro same
      exact nonzero (same ▸ null)
  · have range := owned.range null
    have apart : ∀ s ∈ F, ptr sb₀.dev inode₀.dinode s ≠ ptr sb₀.dev inode₀.dinode t := by
      intro s member
      apply owned.ne _ null
      intro same
      exact fresh (same ▸ member)
    have held : sb.Allocated w.toNat := by
      rw [value]
      exact (freeing.allocated _).mpr ⟨owned.inside t null, apart⟩
    rw [testfsFreeBlockFromInode_eq sb inode w freeing.consistent held, value]
    have block : ∀ k, 18 ≤ k → (sb.released (ptr sb₀.dev inode₀.dinode t)).dev.block k =
        if k = ptr sb₀.dev inode₀.dinode t then Buffer.zero else sb.dev.block k :=
      fun k data => SuperBlock.block_released sb _ freeing.consistent.layout range.2 k
        (Or.inl data)
    have longer : sb.dev.nr ≤ (sb.released (ptr sb₀.dev inode₀.dinode t)).dev.nr := by
      simp [SuperBlock.released]
    refine ⟨⟨freeing.consistent.released _ (value ▸ held), ?_, ?_, ?_, ?_, freeing.number,
      freeing.count, freeing.inodes, freeing.limit, freeing.ghost, freeing.longer.trans longer⟩,
      _, _, rfl⟩
    · intro k
      rw [SuperBlock.allocated_released _ _ range.1, freeing.allocated, Finset.forall_mem_insert]
      constructor
      · exact fun still => ⟨still.1.1, fun same => still.2 same.symm, still.1.2⟩
      · exact fun still => ⟨⟨still.1, still.2.2⟩, fun same => still.2.1 same.symm⟩
    · intro k data away
      rw [Finset.forall_mem_insert] at away
      rw [block k data, if_neg fun same => away.1 same.symm]
      exact freeing.kept k data away.2
    · intro s member nonzero
      have range' := owned.range nonzero
      rw [block _ (by omega)]
      cases Finset.mem_insert.mp member with
      | inl same => rw [same, if_pos rfl]
      | inr before => rw [if_neg (apart s before), freeing.zeros s before nonzero]
    · have one : ((insert t F).filter fun s => ptr sb₀.dev inode₀.dinode s ≠ 0).card =
          (F.filter fun s => ptr sb₀.dev inode₀.dinode s ≠ 0).card + 1 := by
        rw [Finset.filter_insert, if_pos null, Finset.card_insert_of_notMem]
        intro member
        exact fresh (Finset.mem_filter.mp member).1
      change inode.dinode.blockCount - 1 = _
      rw [freeing.charge, one, BitVec.ofNat_add]
      exact sub_one_sub _ _

end Freeing

/-- The entries of one index block, by induction on the list of their positions. -/
theorem freeEntries_sat {sb₀ sb : SuperBlock} {inode₀ inode : Inode} {F : Finset Slot}
    (owned : Owned sb₀ inode₀.dinode) (entries : Block) (slot : Nat → Slot) (indices : List Nat)
    (nodup : (indices.map slot).Nodup)
    (value : ∀ i ∈ indices, (entries.getInt i).toNat = ptr sb₀.dev inode₀.dinode (slot i))
    (fresh : ∀ i ∈ indices, slot i ∉ F) (freeing : Freeing sb₀ inode₀ F sb inode) :
    Sat (freeEntries entries indices sb inode)
      (fun r => (∃ G, Freeing sb₀ inode₀ G r.2 r.1 ∧
        ∀ s, s ∈ G ↔ s ∈ F ∨ ∃ i ∈ indices, s = slot i) ∧ Recounted inode r.1)
      (fun _ => False) := by
  induction indices generalizing F sb inode with
  | nil => exact ⟨⟨F, freeing, by simp⟩, Recounted.refl inode⟩
  | cons i rest ih =>
      have nodup' := List.nodup_cons.mp nodup
      unfold freeEntries
      rw [List.foldlM_cons]
      apply Sat.bind (freeing.free owned (slot i) (fresh i List.mem_cons_self) _
        (value i List.mem_cons_self))
      intro r step
      have later : ∀ j ∈ rest, slot j ∉ insert (slot i) F := by
        intro j member
        rw [Finset.mem_insert, not_or]
        refine ⟨?_, fresh j (List.mem_cons_of_mem _ member)⟩
        intro same
        exact nodup'.1 (same ▸ List.mem_map_of_mem member)
      apply (ih nodup'.2 (fun j member => value j (List.mem_cons_of_mem _ member)) later
        step.1).weaken
      intro r' spec
      obtain ⟨⟨G, freeing', inside⟩, same⟩ := spec
      refine ⟨⟨G, freeing', fun s => ?_⟩, step.2.trans same⟩
      rw [inside s, Finset.mem_insert, List.exists_mem_cons_iff]
      tauto

theorem nodup_slots (f : Fin 2048 → Slot) (injective : Function.Injective f) (n : Nat)
    (most : n ≤ 2048) : ((List.range n).map fun i => f (Fin.ofNat 2048 i)).Nodup := by
  apply List.Nodup.map_on _ List.nodup_range
  intro i member j member' same
  have small := List.mem_range.mp member
  have small' := List.mem_range.mp member'
  have equal := congrArg Fin.val (injective same)
  rwa [Fin.val_ofNat, Fin.val_ofNat, Nat.mod_eq_of_lt (by omega),
    Nat.mod_eq_of_lt (by omega)] at equal

theorem freeDirectBlocks_sat {sb₀ : SuperBlock} {inode₀ : Inode} (ok : Consistent sb₀)
    (owned : Owned sb₀ inode₀.dinode) (eBlockNr : Int) :
    Sat (freeDirectBlocks eBlockNr sb₀ inode₀)
      (fun r => (∃ F, Freeing sb₀ inode₀ F r.2 r.1 ∧
          ∀ s, s ∈ F ↔ ∃ i, s = .direct i ∧ (i.val : Int) < eBlockNr) ∧
        r.1.dinode.iIndirect = inode₀.dinode.iIndirect ∧
        r.1.dinode.iDindirect = inode₀.dinode.iDindirect)
      (fun _ => False) := by
  let I (rest : List (Fin nrDirectBlocks)) (r : Inode × SuperBlock) : Prop :=
    rest.Nodup ∧ (∃ F, Freeing sb₀ inode₀ F r.2 r.1 ∧
        ∀ s, s ∈ F ↔ ∃ i, s = .direct i ∧ (i.val : Int) < eBlockNr ∧ i ∉ rest) ∧
      (∀ i ∈ rest, r.1.dinode.iBlockNr i = inode₀.dinode.iBlockNr i) ∧
      r.1.dinode.iIndirect = inode₀.dinode.iIndirect ∧
      r.1.dinode.iDindirect = inode₀.dinode.iDindirect
  unfold freeDirectBlocks
  apply Sat.weaken (Q := I []) (sat_foldlM (I := I) _ _ ?_ ?_)
  · intro r spec
    obtain ⟨_, ⟨F, freeing, inside⟩, _, indirect, dindirect⟩ := spec
    refine ⟨⟨F, freeing, fun s => ?_⟩, indirect, dindirect⟩
    rw [inside s]
    simp only [List.not_mem_nil, not_false_eq_true, and_true]
  · intro i rest r invariant
    obtain ⟨inode, sb⟩ := r
    obtain ⟨nodup, ⟨F, freeing, inside⟩, pointers, indirect, dindirect⟩ := invariant
    have nodup' := List.nodup_cons.mp nodup
    have fresh : Slot.direct i ∉ F := by
      intro member
      obtain ⟨j, same, _, away⟩ := (inside _).mp member
      cases same
      exact away List.mem_cons_self
    have value : (inode.dinode.iBlockNr i).toNat = ptr sb₀.dev inode₀.dinode (.direct i) :=
      congrArg BitVec.toNat (pointers i List.mem_cons_self)
    change Sat (if (i.val : Int) < eBlockNr then _ else _) _ _
    apply Sat.ite
    · intro below
      apply Sat.bind (freeing.free owned (.direct i) fresh _ value)
      intro r' step
      obtain ⟨blocks, indirect', dindirect'⟩ := step.2.pointers
      refine ⟨nodup'.2, ⟨_, step.1.cleared _ rfl rfl rfl, ?_⟩, ?_, indirect'.trans indirect,
        dindirect'.trans dindirect⟩
      · intro s
        rw [Finset.mem_insert, inside s]
        constructor
        · intro either
          rcases either with same | ⟨j, same, below', away⟩
          · exact ⟨i, same, below, nodup'.1⟩
          · exact ⟨j, same, below', fun later => away (List.mem_cons_of_mem _ later)⟩
        · intro found
          obtain ⟨j, same, below', away⟩ := found
          by_cases here : j = i
          · exact Or.inl (here ▸ same)
          · exact Or.inr ⟨j, same, below', List.not_mem_cons_of_ne_of_not_mem here away⟩
      · intro j member
        have other : j ≠ i := fun same => nodup'.1 (same ▸ member)
        simp only [other, ↓reduceIte]
        rw [blocks]
        exact pointers j (List.mem_cons_of_mem _ member)
    · intro beyond
      refine ⟨nodup'.2, ⟨F, freeing, ?_⟩,
        fun j member => pointers j (List.mem_cons_of_mem _ member),
        indirect, dindirect⟩
      intro s
      rw [inside s]
      constructor
      · intro found
        obtain ⟨j, same, below, away⟩ := found
        exact ⟨j, same, below, fun later => away (List.mem_cons_of_mem _ later)⟩
      · intro found
        obtain ⟨j, same, below, away⟩ := found
        have other : j ≠ i := fun here => beyond (here ▸ below)
        exact ⟨j, same, below, List.not_mem_cons_of_ne_of_not_mem other away⟩
  · refine ⟨List.nodup_finRange _, ⟨∅, Freeing.refl ok inode₀, fun s => ?_⟩,
      fun _ _ => rfl, rfl, rfl⟩
    simp [List.mem_finRange]

/-- An index block that is still in use, and the pointers in it. -/
theorem Freeing.read {sb₀ sb : SuperBlock} {inode₀ inode : Inode} {F : Finset Slot}
    (freeing : Freeing sb₀ inode₀ F sb inode) (owned : Owned sb₀ inode₀.dinode) (t : Slot)
    (fresh : t ∉ F) (w : BitVec 32) (value : w.toNat = ptr sb₀.dev inode₀.dinode t)
    (nonzero : w ≠ 0) :
    Sat (readBlocks sb.dev w.toInt)
      (fun block => ∀ i, (block.getInt i).toNat =
        indexEntry sb₀.dev (ptr sb₀.dev inode₀.dinode t) i)
      (fun e => e = .exit ∧ ¬ Stored sb₀.dev inode₀.dinode) := by
  have nonzero' : ptr sb₀.dev inode₀.dinode t ≠ 0 := by
    rw [← value]
    exact fun zero => nonzero ((toNat_eq_zero w).mp zero)
  have small : w.toNat < 2 ^ 31 := by
    rw [value]
    exact owned.small t
  rw [toInt_of_small w small, value]
  apply (readBlocks_sat sb.dev _).mono
  · intro block spec
    rw [spec.1, freeing.block_eq owned fresh nonzero']
    exact fun i => (indexEntry_of_ne_zero _ _ _ nonzero').symm
  · intro e outside
    refine ⟨outside.1, fun stored => ?_⟩
    have inside := stored t nonzero'
    have longer := freeing.longer
    omega

/-- The entries of an index block `t`, which stays in use. -/
theorem freeBehind_sat {sb₀ sb : SuperBlock} {inode₀ inode : Inode} {F : Finset Slot} {t : Slot}
    (slot : Fin 2048 → Slot) (owned : Owned sb₀ inode₀.dinode)
    (freeing : Freeing sb₀ inode₀ F sb inode)
    (index : Block)
    (entries : ∀ i : Fin 2048, (index.getInt i).toNat = ptr sb₀.dev inode₀.dinode (slot i))
    (injective : Function.Injective slot) (other : ∀ i, slot i ≠ t) (fresh : t ∉ F)
    (fresh' : ∀ i, slot i ∉ F) {n : Nat} (most : n ≤ 2048) :
    Sat (freeEntries index (List.range n) sb inode)
      (fun r => (∃ G, Freeing sb₀ inode₀ G r.2 r.1 ∧ t ∉ G ∧
        ∀ s, s ∈ G ↔ s ∈ F ∨ ∃ i ∈ List.range n, s = slot (Fin.ofNat 2048 i)) ∧ Recounted inode r.1)
      (fun _ => False) := by
  have values : ∀ i ∈ List.range n, (index.getInt i).toNat =
      ptr sb₀.dev inode₀.dinode (slot (Fin.ofNat 2048 i)) := by
    intro i member
    have below := List.mem_range.mp member
    have column : (Fin.ofNat 2048 i).val = i := Nat.mod_eq_of_lt (by omega)
    rw [← entries, column]
  apply (freeEntries_sat owned index (fun i => slot (Fin.ofNat 2048 i)) _
    (nodup_slots slot injective n most) values (fun i _ => fresh' _) freeing).weaken
  intro r spec
  obtain ⟨⟨G, freeing', inside⟩, same⟩ := spec
  refine ⟨⟨G, freeing', fun member => ?_, inside⟩, same⟩
  cases (inside t).mp member with
  | inl old => exact fresh old
  | inr found =>
      obtain ⟨i, _, shape⟩ := found
      exact other _ shape.symm

theorem freeIndirectBlocks_sat {sb₀ sb : SuperBlock} {inode₀ inode : Inode} {F : Finset Slot}
    (owned : Owned sb₀ inode₀.dinode) (freeing : Freeing sb₀ inode₀ F sb inode)
    (before : ∀ s ∈ F, ∃ i, s = .direct i)
    (indirect : inode.dinode.iIndirect = inode₀.dinode.iIndirect) (eBlockNr : Int) :
    Sat (freeIndirectBlocks eBlockNr sb inode)
      (fun r => (∃ G, Freeing sb₀ inode₀ G r.2 r.1 ∧
        ∀ s, s ∈ G ↔ s ∈ F ∨ 0 < inode.dinode.iIndirect.toInt ∧ (s = .indirect ∨
          ∃ i ∈ List.range (min eBlockNr.toNat nrIndirectBlocks), s = .entry (Fin.ofNat 2048 i))) ∧
        r.1.dinode.iDindirect = inode.dinode.iDindirect)
      (fun e => e = .exit ∧ ¬ Stored sb₀.dev inode₀.dinode) := by
  have value : inode.dinode.iIndirect.toNat = ptr sb₀.dev inode₀.dinode .indirect :=
    congrArg BitVec.toNat indirect
  have fresh : Slot.indirect ∉ F := by
    intro member
    obtain ⟨_, same⟩ := before _ member
    cases same
  unfold freeIndirectBlocks
  generalize bound : min eBlockNr.toNat nrIndirectBlocks = n
  have most : n ≤ 2048 := bound ▸ Nat.min_le_right _ _
  split
  · rename_i positive
    have nonzero : inode.dinode.iIndirect ≠ 0 := by
      intro zero
      rw [zero] at positive
      cases positive
    apply Sat.bind (freeing.read owned .indirect fresh _ value nonzero)
    intro block entries
    have others : ∀ i, Slot.entry i ∉ F := by
      intro i member
      obtain ⟨_, same⟩ := before _ member
      cases same
    apply Sat.bind (freeBehind_sat (t := .indirect) Slot.entry owned freeing block
      (fun i => entries i) (fun _ _ same => Slot.entry.inj same) nofun fresh others most).total
    intro r spec
    obtain ⟨⟨G, freeing', fresh', inside⟩, same⟩ := spec
    obtain ⟨_, indirect', dindirect'⟩ := same.pointers
    apply Sat.bind (freeing'.free owned .indirect fresh' _ (by rw [indirect', value])).total
    intro r' step
    refine ⟨⟨_, step.1.cleared _ rfl rfl rfl, ?_⟩, step.2.pointers.2.2.trans dindirect'⟩
    intro s
    rw [Finset.mem_insert, inside s]
    simp only [positive, true_and]
    tauto
  · rename_i zero
    refine ⟨⟨F, freeing, fun s => ?_⟩, rfl⟩
    simp only [zero, false_and, or_false]

theorem freePage_sat {sb₀ sb : SuperBlock} {inode₀ inode : Inode} {F : Finset Slot}
    (owned : Owned sb₀ inode₀.dinode) (freeing : Freeing sb₀ inode₀ F sb inode) (j : Fin 2048)
    {w : BitVec 32} (value : w.toNat = ptr sb₀.dev inode₀.dinode (.page j)) (nonzero : w ≠ 0)
    (fresh : .page j ∉ F) (fresh' : ∀ i, .dentry j i ∉ F) {n : Nat} (most : n ≤ 2048) :
    Sat (do
        let dp2Index ← readBlocks sb.dev w.toInt
        let (inode, sb) ← freeEntries dp2Index (List.range n) sb inode
        testfsFreeBlockFromInode sb inode w)
      (fun r => (∃ G, Freeing sb₀ inode₀ G r.2 r.1 ∧
          ∀ s, s ∈ G ↔ s ∈ F ∨ s = .page j ∨ ∃ i ∈ List.range n, s = .dentry j (Fin.ofNat 2048 i)) ∧
        Recounted inode r.1)
      (fun e => e = .exit ∧ ¬ Stored sb₀.dev inode₀.dinode) := by
  apply Sat.bind (freeing.read owned _ fresh _ value nonzero)
  intro block entries
  apply Sat.bind (freeBehind_sat (t := .page j) (Slot.dentry j) owned freeing block
    (fun i => entries i) (fun _ _ same => (Slot.dentry.inj same).2) nofun fresh fresh' most).total
  intro r spec
  obtain ⟨⟨G, freeing', fresh'', inside⟩, same⟩ := spec
  apply (freeing'.free owned _ fresh'' _ value).mono _ fun _ none => none.elim
  intro r' step
  refine ⟨⟨_, step.1, fun s => ?_⟩, same.trans step.2⟩
  rw [Finset.mem_insert, inside s]
  tauto

/-- The pages of the double-indirect block, each with its entries, by induction on their list. -/
theorem freePages_sat {sb₀ sb : SuperBlock} {inode₀ inode : Inode} {F : Finset Slot}
    (owned : Owned sb₀ inode₀.dinode) (dp1Index : Block)
    (pages : ∀ j : Fin 2048, (dp1Index.getInt j).toNat = ptr sb₀.dev inode₀.dinode (.page j))
    (n : Nat) (most : n ≤ 2048) (indices : List Nat) (nodup : indices.Nodup)
    (bound : ∀ j ∈ indices, j < 2048)
    (fresh : ∀ s ∈ F, s ≠ .dindirect ∧ ∀ j ∈ indices, s ≠ .page (Fin.ofNat 2048 j) ∧
      ∀ i, s ≠ .dentry (Fin.ofNat 2048 j) i)
    (freeing : Freeing sb₀ inode₀ F sb inode) :
    Sat (indices.foldlM (fun (r : Inode × SuperBlock) j =>
        if dp1Index.getInt j = 0 then .ok (r.1, r.2)
        else do
          let dp2Index ← readBlocks r.2.dev (dp1Index.getInt j).toInt
          let (inode, sb) ← freeEntries dp2Index (List.range n) r.2 r.1
          testfsFreeBlockFromInode sb inode (dp1Index.getInt j)) (inode, sb))
      (fun r => (∃ G, Freeing sb₀ inode₀ G r.2 r.1 ∧
          ∀ s, s ∈ G ↔ s ∈ F ∨ ∃ j ∈ indices, dp1Index.getInt j ≠ 0 ∧
            (s = .page (Fin.ofNat 2048 j) ∨
              ∃ i ∈ List.range n, s = .dentry (Fin.ofNat 2048 j) (Fin.ofNat 2048 i))) ∧
        Recounted inode r.1)
      (fun e => e = .exit ∧ ¬ Stored sb₀.dev inode₀.dinode) := by
  induction indices generalizing F sb inode with
  | nil => exact ⟨⟨F, freeing, by simp⟩, Recounted.refl inode⟩
  | cons j rest ih =>
      have nodup' := List.nodup_cons.mp nodup
      have below : ∀ k ∈ rest, k < 2048 := fun k member => bound k (List.mem_cons_of_mem _ member)
      have index : (Fin.ofNat 2048 j).val = j := Nat.mod_eq_of_lt (bound j List.mem_cons_self)
      have apart : ∀ k ∈ rest, Fin.ofNat 2048 k ≠ Fin.ofNat 2048 j := by
        intro k member same
        have equal := congrArg Fin.val same
        rw [index, Fin.val_ofNat, Nat.mod_eq_of_lt (below k member)] at equal
        exact nodup'.1 (equal ▸ member)
      have old : ∀ s ∈ F, s ≠ .dindirect ∧ ∀ k ∈ rest, s ≠ .page (Fin.ofNat 2048 k) ∧
          ∀ i, s ≠ .dentry (Fin.ofNat 2048 k) i := fun s member =>
        ⟨(fresh s member).1, fun k later => (fresh s member).2 k (List.mem_cons_of_mem _ later)⟩
      rw [List.foldlM_cons]
      split
      · rename_i null
        apply (ih nodup'.2 below old freeing).weaken
        intro r spec
        obtain ⟨⟨G, freeing', inside⟩, same⟩ := spec
        refine ⟨⟨G, freeing', fun s => ?_⟩, same⟩
        rw [inside s, List.exists_mem_cons_iff]
        simp only [null, ne_eq, not_true_eq_false, false_and, false_or]
      · rename_i nonzero
        have value := pages (Fin.ofNat 2048 j)
        rw [index] at value
        apply Sat.bind (freePage_sat owned freeing (Fin.ofNat 2048 j) value nonzero
          (fun member => ((fresh _ member).2 j List.mem_cons_self).1 rfl)
          (fun i member => ((fresh _ member).2 j List.mem_cons_self).2 i rfl) most)
        intro r spec
        obtain ⟨⟨G, freeing', inside⟩, same⟩ := spec
        apply (ih nodup'.2 below _ freeing').weaken
        · intro r' spec'
          obtain ⟨⟨H, freeing'', inside'⟩, same'⟩ := spec'
          refine ⟨⟨H, freeing'', fun s => ?_⟩, same.trans same'⟩
          rw [inside' s, inside s, List.exists_mem_cons_iff]
          simp only [ne_eq, nonzero, not_false_eq_true, true_and, or_assoc]
        · intro s member
          rcases (inside s).mp member with before | shape | ⟨i, _, shape⟩
          · exact old s before
          · rw [shape]
            refine ⟨nofun, fun k later => ⟨fun equal => ?_, nofun⟩⟩
            exact apart k later (Slot.page.inj equal).symm
          · rw [shape]
            refine ⟨nofun, fun k later => ⟨nofun, fun i' equal => ?_⟩⟩
            exact apart k later (Slot.dentry.inj equal).1.symm

/-- The double-indirect block with its pages. -/
theorem freeDindirectBlocks_sat {sb₀ sb : SuperBlock} {inode₀ inode : Inode} {F : Finset Slot}
    (owned : Owned sb₀ inode₀.dinode) (freeing : Freeing sb₀ inode₀ F sb inode)
    (before : ∀ s ∈ F, (∃ i, s = .direct i) ∨ s = .indirect ∨ ∃ i, s = .entry i)
    (dindirect : inode.dinode.iDindirect = inode₀.dinode.iDindirect) (eBlockNr : Int) :
    Sat (freeDindirectBlocks eBlockNr sb inode)
      (fun r => ∃ G, Freeing sb₀ inode₀ G r.2 r.1 ∧ (∀ s ∈ F, s ∈ G) ∧
        (0 ≤ eBlockNr → 0 < inode.dinode.iDindirect.toInt → .dindirect ∈ G ∧
          ∀ j, ptr sb₀.dev inode₀.dinode (.page j) ≠ 0 → .page j ∈ G ∧ ∀ i, .dentry j i ∈ G))
      (fun e => e = .exit ∧ ¬ Stored sb₀.dev inode₀.dinode) := by
  have value : inode.dinode.iDindirect.toNat = ptr sb₀.dev inode₀.dinode .dindirect :=
    congrArg BitVec.toNat dindirect
  have others : ∀ s ∈ F, s ≠ .dindirect ∧ (∀ j, s ≠ .page j) ∧ ∀ j i, s ≠ .dentry j i := by
    intro s member
    rcases before s member with ⟨i, shape⟩ | shape | ⟨i, shape⟩ <;> simp [shape]
  have fresh : Slot.dindirect ∉ F := fun member => (others _ member).1 rfl
  have full : nrIndirectBlocks = 2048 := rfl
  unfold freeDindirectBlocks
  generalize nrIndirectBlocks = n at full ⊢
  have most : n ≤ 2048 := Nat.le_of_eq full
  split
  · rename_i present
    have nonzero : inode.dinode.iDindirect ≠ 0 := by
      intro zero
      rw [zero] at present
      cases present.2
    apply Sat.bind (freeing.read owned .dindirect fresh _ value nonzero)
    intro block entries
    apply Sat.bind
      (freePages_sat owned block (fun j => entries j) n most (List.range n) List.nodup_range
      ?_ ?_ freeing)
    · intro r spec
      obtain ⟨inode', sb'⟩ := r
      obtain ⟨⟨G, freeing', inside⟩, same⟩ := spec
      obtain ⟨_, _, dindirect'⟩ := same.pointers
      have fresh' : Slot.dindirect ∉ G := by
        intro member
        rcases (inside _).mp member with old | ⟨_, _, _, shape | ⟨_, _, shape⟩⟩
        · exact fresh old
        · cases shape
        · cases shape
      apply Sat.bind (freeing'.free owned .dindirect fresh' _
        (by rw [dindirect', value])).total
      intro r' step
      refine ⟨_, step.1.cleared _ rfl rfl rfl, ?_, fun _ _ => ⟨Finset.mem_insert_self _ _, ?_⟩⟩
      · intro s member
        exact Finset.mem_insert_of_mem ((inside s).mpr (Or.inl member))
      · intro j page
        have listed : ∀ i : Fin 2048, i.val ∈ List.range n :=
          fun i => List.mem_range.mpr (full ▸ i.isLt)
        have named : ∀ i : Fin 2048, Fin.ofNat 2048 i.val = i :=
          fun i => Fin.ext (Nat.mod_eq_of_lt i.isLt)
        have entry : block.getInt j ≠ 0 := by
          intro zero
          apply page
          have value' := entries j
          rw [zero] at value'
          exact value'.symm
        constructor
        · apply Finset.mem_insert_of_mem
          exact (inside _).mpr (Or.inr ⟨j, listed j, entry, Or.inl (by rw [named])⟩)
        · intro i
          apply Finset.mem_insert_of_mem
          exact (inside _).mpr (Or.inr ⟨j, listed j, entry, Or.inr ⟨i, listed i,
            by rw [named, named]⟩⟩)
    · intro j member
      exact Nat.lt_of_lt_of_le (List.mem_range.mp member) most
    · exact fun s member => ⟨(others s member).1, fun j _ =>
        ⟨(others s member).2.1 _, (others s member).2.2 _⟩⟩
  · rename_i absent
    exact ⟨F, freeing, fun _ member => member, fun lower upper => absurd ⟨lower, upper⟩ absent⟩

/-- `DIVROUNDUP(in->in.i_size, BLOCK_SIZE)`, the block behind the last one of the file. -/
def Dinode.endBlock (d : Dinode) : Int := (d.size + blockSize - 1).tdiv blockSize

/-- No block lies behind the end of the file. -/
structure WithinSize (dev : Device) (d : Dinode) : Prop where
  data : ∀ log < nrMaxBlock, ptr dev d (leaf log) ≠ 0 → (log : Int) < d.endBlock
  dindirect : d.iDindirect ≠ 0 → ((nrDirectBlocks + nrIndirectBlocks : Nat) : Int) ≤ d.endBlock

theorem toInt32_of_lt (n : Int) (lower : 0 ≤ n) (upper : n < 2 ^ 31) : toInt32 n = n := by
  apply Int.bmod_eq_of_le <;> omega

theorem toInt_pos_of_ne_zero {w : BitVec 32} (small : w.toNat < 2 ^ 31) (nonzero : w.toNat ≠ 0) :
    0 < w.toInt := by
  rw [toInt_of_small w small]
  omega

/-- A block count of the blocks that there are comes down to zero when all of them are given
back. -/
theorem Freeing.emptied {sb₀ sb : SuperBlock} {inode₀ inode : Inode} {F : Finset Slot}
    (freeing : Freeing sb₀ inode₀ F sb inode)
    (count : inode₀.dinode.blockCount = BitVec.ofNat 32 (held (ptr sb₀.dev inode₀.dinode)))
    (all : ∀ s, ptr sb₀.dev inode₀.dinode s ≠ 0 → s ∈ F) : inode.dinode.blockCount = 0 := by
  have full : (F.filter fun s => ptr sb₀.dev inode₀.dinode s ≠ 0) =
      Finset.univ.filter fun s => ptr sb₀.dev inode₀.dinode s ≠ 0 := by
    ext s
    simp only [Finset.mem_filter, Finset.mem_univ, true_and, and_iff_right_iff_imp]
    exact all s
  rw [freeing.charge, count, full]
  exact BitVec.sub_self _

/-- `testfs_free_blocks` gives back blocks of this inode, each of them once: all of them, if none
lies behind the end of the file. -/
theorem testfsFreeBlocks_sat (sb : SuperBlock) (inode : Inode) (ok : Consistent sb)
    (owned : Owned sb inode.dinode) :
    Sat (testfsFreeBlocks sb inode)
      (fun r => ∃ F, Freeing sb inode F r.2 r.1 ∧
        (WithinSize sb.dev inode.dinode → inode.dinode.endBlock < 2 ^ 31 →
          ∀ s, ptr sb.dev inode.dinode s ≠ 0 → s ∈ F))
      (fun e => e = .exit ∧ ¬ Stored sb.dev inode.dinode) := by
  let e := toInt32 inode.dinode.endBlock
  unfold testfsFreeBlocks
  apply Sat.bind (freeDirectBlocks_sat ok owned e).total
  intro r spec
  obtain ⟨⟨F, freeing, direct⟩, indirect, dindirect⟩ := spec
  apply Sat.bind (freeIndirectBlocks_sat owned freeing
    (fun s member => ((direct s).mp member).imp fun _ found => found.1) indirect (e - 10))
  intro r' spec'
  obtain ⟨⟨G, freeing', inside⟩, dindirect'⟩ := spec'
  apply Sat.bind (freeDindirectBlocks_sat owned freeing' ?_ (dindirect'.trans dindirect)
    (e - 10 - 2048))
  · intro r'' spec''
    obtain ⟨H, freeing'', kept, double⟩ := spec''
    refine ⟨H, freeing''.cleared _ rfl rfl rfl, fun within upper => ?_⟩
    rw [indirect] at inside
    rw [dindirect'.trans dindirect] at double
    have exact : 0 ≤ inode.dinode.endBlock → e = inode.dinode.endBlock :=
      fun lower => toInt32_of_lt _ lower upper
    have pages : ptr sb.dev inode.dinode .dindirect ≠ 0 → Slot.dindirect ∈ H ∧
        ∀ j, ptr sb.dev inode.dinode (.page j) ≠ 0 → .page j ∈ H ∧ ∀ i, .dentry j i ∈ H := by
      intro nonzero
      have behind := within.dindirect fun zero => nonzero ((toNat_eq_zero _).mpr zero)
      change (2058 : Int) ≤ inode.dinode.endBlock at behind
      have same := exact (by omega)
      exact double (by omega) (toInt_pos_of_ne_zero (owned.small .dindirect) nonzero)
    intro s nonzero
    cases s with
    | direct i =>
        have small : i.val < 10 := i.isLt
        have inside' : i.val < 4196362 := by omega
        have below := within.data i.val inside' (by rw [leaf_direct i.val small]; exact nonzero)
        have same := exact (by omega)
        apply kept
        exact (inside _).mpr (Or.inl ((direct _).mpr ⟨i, rfl, by omega⟩))
    | indirect =>
        have positive := toInt_pos_of_ne_zero (owned.small .indirect) nonzero
        exact kept _ ((inside _).mpr (Or.inr ⟨positive, Or.inl rfl⟩))
    | entry i =>
        have small := i.isLt
        have shape : leaf (i.val + 10) = .entry i := by
          rw [leaf_entry _ (by omega) (by omega)]
          congr 1
        have inside' : i.val + 10 < 4196362 := by omega
        have below := within.data (i.val + 10) inside' (by rw [shape]; exact nonzero)
        have same := exact (by omega)
        have index := ptr_path_ne_zero nonzero (t := .indirect) (by simp [path])
        have positive := toInt_pos_of_ne_zero (owned.small .indirect) index
        have listed : i.val ∈ List.range (min (e - 10).toNat nrIndirectBlocks) := by
          rw [List.mem_range, lt_min_iff]
          exact ⟨by omega, small⟩
        have named : Fin.ofNat 2048 i.val = i := Fin.ext (Nat.mod_eq_of_lt i.isLt)
        exact kept _ ((inside _).mpr (Or.inr ⟨positive, Or.inr ⟨i, listed, by rw [named]⟩⟩))
    | dindirect => exact (pages nonzero).1
    | page j =>
        have index := ptr_path_ne_zero nonzero (t := .dindirect) (by simp [path])
        exact ((pages index).2 j nonzero).1
    | dentry j i =>
        have index := ptr_path_ne_zero nonzero (t := .dindirect) (by simp [path])
        have page := ptr_path_ne_zero nonzero (t := .page j) (by simp [path])
        exact ((pages index).2 j page).2 i
  · intro s member
    rcases (inside s).mp member with first | ⟨_, shape | ⟨i, _, shape⟩⟩
    · exact Or.inl (((direct s).mp first).imp fun _ found => found.1)
    · exact Or.inr (Or.inl shape)
    · exact Or.inr (Or.inr ⟨_, shape⟩)

end Ece344Lab.Fs
