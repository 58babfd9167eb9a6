import Ece344Lab.Fs.ReadBlock

set_option autoImplicit false

/- One inode receiving blocks: the relation between the states before and after, and the single
steps it is made of. -/
namespace Ece344Lab.Fs

open Outcome Ownership

/-- Data blocks that nothing owns hold zeros. -/
def FreeZero (sb : SuperBlock) : Prop :=
  ∀ n, 146 ≤ n → ¬ sb.Allocated n → sb.dev.block n = Buffer.zero

/-- Slots satisfying `p` may have received new blocks, and the blocks behind them may have been
rewritten; everything else that is in use is as before. -/
structure Extends (p : Slot → Prop) (sb : SuperBlock) (inode : Inode) (sb' : SuperBlock)
    (inode' : Inode) : Prop where
  consistent : Consistent sb'
  grows : Grows sb.Allocated (ptr sb.dev inode.dinode) sb'.Allocated (ptr sb'.dev inode'.dinode)
  off : ∀ s, ¬ p s → ptr sb'.dev inode'.dinode s = ptr sb.dev inode.dinode s
  kept : ∀ k, 18 ≤ k → (k < 146 ∨ sb.Allocated k) →
    (∀ s, p s → ptr sb'.dev inode'.dinode s ≠ k) → sb'.dev.block k = sb.dev.block k
  zeros : FreeZero sb → FreeZero sb'
  spent : sb'.free + held (ptr sb'.dev inode'.dinode) = sb.free + held (ptr sb.dev inode.dinode)
  counted : inode.dinode.blockCount = BitVec.ofNat 32 (held (ptr sb.dev inode.dinode)) →
    inode'.dinode.blockCount = BitVec.ofNat 32 (held (ptr sb'.dev inode'.dinode))
  longer : sb.dev.nr ≤ sb'.dev.nr
  inodes : sb'.inodeFreemap = sb.inodeFreemap
  limit : sb'.sb.maxFsBlocks = sb.sb.maxFsBlocks
  ghost : sb.allocFailed = true → sb'.allocFailed = true
  kind : inode'.dinode.iType = inode.dinode.iType
  number : inode'.iNr = inode.iNr
  count : inode'.iCount = inode.iCount
  clean : inode'.dirty = false → inode' = inode

namespace Extends

variable {p q : Slot → Prop} {sb sb' sb'' : SuperBlock} {inode inode' inode'' : Inode}

theorem refl (p : Slot → Prop) (ok : Consistent sb) (inode : Inode) :
    Extends p sb inode sb inode where
  consistent := ok
  grows := Grows.refl _ _
  off _ _ := rfl
  kept _ _ _ _ := rfl
  zeros := id
  spent := rfl
  counted := id
  longer := Nat.le_refl _
  inodes := rfl
  limit := rfl
  ghost := id
  kind := rfl
  number := rfl
  count := rfl
  clean _ := rfl

theorem mono (ext : Extends p sb inode sb' inode') (sub : ∀ s, p s → q s) :
    Extends q sb inode sb' inode' :=
  { ext with
    off := fun s outside => ext.off s fun inside => outside (sub s inside)
    kept := fun k data used apart => ext.kept k data used fun s inside => apart s (sub s inside) }

theorem trans (first : Extends p sb inode sb' inode') (second : Extends p sb' inode' sb'' inode'') :
    Extends p sb inode sb'' inode'' where
  consistent := second.consistent
  grows := first.grows.trans second.grows
  off s outside := (second.off s outside).trans (first.off s outside)
  kept k data used apart := by
    have before : ∀ s, p s → ptr sb'.dev inode'.dinode s ≠ k := by
      intro s inside same
      have nonzero : ptr sb'.dev inode'.dinode s ≠ 0 := by omega
      exact apart s inside ((second.grows.keeps s nonzero).trans same)
    have used' : k < 146 ∨ sb'.Allocated k := used.imp id first.grows.allocated
    exact (second.kept k data used' apart).trans (first.kept k data used before)
  zeros free := second.zeros (first.zeros free)
  spent := second.spent.trans first.spent
  counted same := second.counted (first.counted same)
  longer := first.longer.trans second.longer
  inodes := second.inodes.trans first.inodes
  limit := second.limit.trans first.limit
  ghost failed := second.ghost (first.ghost failed)
  kind := second.kind.trans first.kind
  number := second.number.trans first.number
  count := second.count.trans first.count
  clean still := by
    have same := second.clean still
    exact same.trans (first.clean (same ▸ still))

theorem owned (ext : Extends p sb inode sb' inode') (owned : Owned sb inode.dinode) :
    Owned sb' inode'.dinode :=
  ext.grows.owns owned

/-- Blocks of other inodes and the inode blocks are untouched. -/
theorem foreign (ext : Extends p sb inode sb' inode') (owned : Owned sb inode.dinode) (k : Nat)
    (data : 18 ≤ k) (used : k < 146 ∨ sb.Allocated k)
    (apart : ∀ s, ptr sb.dev inode.dinode s ≠ k) : sb'.dev.block k = sb.dev.block k := by
  apply ext.kept k data used
  intro s _ same
  have nonzero : ptr sb'.dev inode'.dinode s ≠ 0 := by omega
  by_cases before : ptr sb.dev inode.dinode s = 0
  · rcases used with low | held
    · have := ((ext.owned owned).range nonzero).1
      omega
    · exact ext.grows.fresh s before nonzero (same ▸ held)
  · exact apart s ((ext.grows.keeps s before).symm.trans same)

/-- Logical blocks outside the reach of the slots keep their contents. -/
theorem fileBlock_eq (ext : Extends p sb inode sb' inode') (owned : Owned sb inode.dinode)
    (log : Nat) (outside : ¬ p (leaf log)) :
    fileBlock sb'.dev inode'.dinode log = fileBlock sb.dev inode.dinode log := by
  unfold fileBlock
  rw [ext.off _ outside]
  split
  · rfl
  · rename_i nonzero
    have range := (owned.range nonzero).1
    refine ext.kept _ (by omega) (Or.inr (owned.inside _ nonzero)) ?_
    intro s inside same
    have equal := ext.off _ outside
    rw [← equal] at same
    have other := (ext.owned owned).distinct s (leaf log) (by omega) same
    exact outside (other ▸ inside)

end Extends

/-- Data block `n` can be handed out next. -/
structure SuperBlock.Next (sb : SuperBlock) (n : Nat) : Prop where
  room : 0 < sb.free
  lower : 146 ≤ n
  upper : n < 1048722
  clear : ¬ sb.Allocated n

def Inode.charged (inode : Inode) : Inode :=
  { inode with dinode.blockCount := inode.dinode.blockCount + 1, dirty := true }

def Inode.refunded (inode : Inode) : Inode :=
  { inode with dinode.blockCount := inode.dinode.blockCount - 1, dirty := true }

def Inode.setIndirect (inode : Inode) (n : Nat) : Inode :=
  { inode with dinode.iIndirect := pointer n }

def Inode.setDindirect (inode : Inode) (n : Nat) : Inode :=
  { inode with dinode.iDindirect := pointer n }

theorem testfsAllocBlockForInode_sat (sb : SuperBlock) (inode : Inode) (ok : Consistent sb) :
    Sat (testfsAllocBlockForInode sb inode)
      (fun r => (sb.free = 0 ∧ r = ⟨-eNOSPC, inode, sb.failed⟩) ∨
        ∃ n, sb.Next n ∧ r = ⟨n, inode.charged, sb.taken n⟩)
      (fun _ => False) := by
  unfold testfsAllocBlockForInode
  rw [sat_bind_iff]
  refine (testfsAllocBlock_sat sb ok).weaken ?_
  rintro _ (⟨full, rfl⟩ | ⟨room, n, lower, upper, clear, rfl⟩)
  · exact Or.inl ⟨full, rfl⟩
  · have limit := ok.limit
    have nonneg : (0 : Int) ≤ n := by omega
    simp only [sat_ok, nonneg, ↓reduceIte]
    exact Or.inr ⟨n, ⟨room, lower, by omega, clear⟩, rfl⟩

theorem toNat_pointer (n : Nat) (below : n < 1048722) : (pointer n).toNat = n := by
  unfold pointer
  rw [BitVec.toNat_ofInt]
  omega

theorem testfsFreeBlockFromInode_eq (sb : SuperBlock) (inode : Inode) (w : BitVec 32)
    (ok : Consistent sb) (held : sb.Allocated w.toNat) :
    testfsFreeBlockFromInode sb inode w = .ok (inode.refunded, sb.released w.toNat) := by
  have lower := held.1
  have upper := held.2.1
  have nonzero : w ≠ 0 := by
    rintro rfl
    simp at lower
  unfold testfsFreeBlockFromInode
  rw [if_neg nonzero, toInt_of_small w (by omega), testfsFreeBlock_eq sb ok _ held]
  rfl

theorem testfsFreeBlockFromInode_zero (sb : SuperBlock) (inode : Inode) :
    testfsFreeBlockFromInode sb inode 0 = .ok (inode, sb) :=
  if_pos rfl

namespace SuperBlock.Next

variable {sb : SuperBlock} {n : Nat}

theorem free (next : sb.Next n) : (sb.taken n).free + 1 = sb.free := by
  have room := next.room
  simp only [SuperBlock.free, SuperBlock.taken] at room ⊢
  omega

theorem consistent (next : sb.Next n) (ok : Consistent sb) : Consistent (sb.taken n) :=
  ok.taken n next.lower next.upper next.clear next.room

theorem allocated (next : sb.Next n) (k : Nat) :
    (sb.taken n).Allocated k ↔ sb.Allocated k ∨ k = n :=
  sb.allocated_taken n next.lower next.upper k

theorem block (next : sb.Next n) (ok : Consistent sb) (k : Nat) (data : 18 ≤ k) :
    (sb.taken n).dev.block k = sb.dev.block k :=
  sb.block_taken n ok.layout next.upper k (Or.inl data)

theorem written (next : sb.Next n) (m : Nat) (b : Block) : (sb.written m b).Next n :=
  ⟨next.room, next.lower, next.upper, next.clear⟩

theorem ptr_taken (next : sb.Next n) (ok : Consistent sb) {d : Dinode} (owned : Owned sb d) :
    ptr (sb.taken n).dev d = ptr sb.dev d := by
  apply ptr_congr
  intro s _ nonzero
  have range := (owned.range nonzero).1
  exact next.block ok _ (by omega)

theorem ptr_ne (next : sb.Next n) {d : Dinode} (owned : Owned sb d) (s : Slot) :
    ptr sb.dev d s ≠ n := by
  intro same
  have lower := next.lower
  exact next.clear (same ▸ owned.inside s (by omega))

end SuperBlock.Next

theorem ptr_written {sb : SuperBlock} {d : Dinode} (n : Nat) (b : Block)
    (apart : ∀ s, s.index = true → ptr sb.dev d s ≠ n) :
    ptr (sb.written n b).dev d = ptr sb.dev d := by
  apply ptr_congr
  intro s index _
  exact Device.block_set_of_ne _ _ _ _ (apart s index)

@[simp] theorem ptr_blockCount (dev : Device) (d : Dinode) (count : BitVec 32) :
    ptr dev { d with blockCount := count } = ptr dev d := by
  funext s
  cases s <;> rfl

@[simp] theorem ptr_iSize (dev : Device) (d : Dinode) (size : BitVec 64) :
    ptr dev { d with iSize := size } = ptr dev d := by
  funext s
  cases s <;> rfl

@[simp] theorem ptr_charged (dev : Device) (inode : Inode) :
    ptr dev inode.charged.dinode = ptr dev inode.dinode :=
  ptr_blockCount dev inode.dinode _

@[simp] theorem ptr_refunded (dev : Device) (inode : Inode) :
    ptr dev inode.refunded.dinode = ptr dev inode.dinode :=
  ptr_blockCount dev inode.dinode _

/-- What one new block in one slot comes to, whatever was written to the index blocks. -/
theorem Extends.of_attach {sb sb' : SuperBlock} {inode inode' : Inode} {s : Slot} {n : Nat}
    (owned : Owned sb inode.dinode) (next : sb.Next n)
    (absent : ptr sb.dev inode.dinode s = 0) (consistent : Consistent sb')
    (shape : sb' = { sb.taken n with dev := sb'.dev }) (longer : sb.dev.nr ≤ sb'.dev.nr)
    (table : ptr sb'.dev inode'.dinode = Function.update (ptr sb.dev inode.dinode) s n)
    (blocks : ∀ k, 18 ≤ k → k ≠ n → (∀ t ∈ path s, t ≠ s → ptr sb.dev inode.dinode t ≠ k) →
      sb'.dev.block k = sb.dev.block k)
    (charge : inode'.dinode.blockCount = inode.dinode.blockCount + 1)
    (kind : inode'.dinode.iType = inode.dinode.iType) (number : inode'.iNr = inode.iNr)
    (count : inode'.iCount = inode.iCount) (dirty : inode'.dirty = true) :
    Extends (fun t => t ∈ path s) sb inode sb' inode' := by
  have lower := next.lower
  have allocated : ∀ k, sb'.Allocated k ↔ sb.Allocated k ∨ k = n := by
    intro k
    rw [shape]
    exact next.allocated k
  have size : held (ptr sb'.dev inode'.dinode) = held (ptr sb.dev inode.dinode) + 1 := by
    rw [table]
    exact held_update _ _ _ absent (by omega)
  refine ⟨consistent, ?_, ?_, ?_, ?_, ?_, ?_, longer, ?_, ?_, ?_, kind, number, count, ?_⟩
  · rw [table]
    exact Grows.one _ _ _ absent (by omega) next.clear allocated
  · intro t outside
    rw [table, Function.update_of_ne]
    rintro rfl
    exact outside (mem_path _)
  · intro k data used apart
    have here : k ≠ n := by
      have last := apart s (mem_path s)
      rw [table, Function.update_self] at last
      exact fun same => last same.symm
    refine blocks k data here ?_
    intro t inside other
    have distinct := apart t inside
    rwa [table, Function.update_of_ne other] at distinct
  · intro free k range clear
    rw [allocated] at clear
    push Not at clear
    rw [blocks k (by omega) clear.2, free k range clear.1]
    intro t _ _ same
    exact clear.1 (same ▸ owned.inside t (by omega))
  · have before := next.free
    rw [size, shape]
    change (sb.taken n).free + _ = _
    omega
  · intro same
    rw [charge, same, size, BitVec.ofNat_add]
    rfl
  · rw [shape]
    rfl
  · rw [shape]
    rfl
  · intro failed
    rw [shape]
    exact failed
  · intro clean
    rw [dirty] at clean
    cases clean

/-- Blocks may have been taken and given back; nothing in use has changed. -/
structure Undone (sb sb' : SuperBlock) : Prop where
  consistent : Consistent sb'
  allocated : ∀ k, sb'.Allocated k ↔ sb.Allocated k
  blocks : ∀ k, 18 ≤ k → sb'.dev.block k = sb.dev.block k ∨
    146 ≤ k ∧ ¬ sb.Allocated k ∧ sb'.dev.block k = Buffer.zero
  counts : sb'.sb = sb.sb
  longer : sb.dev.nr ≤ sb'.dev.nr
  inodes : sb'.inodeFreemap = sb.inodeFreemap
  failed : sb'.allocFailed = true

theorem SuperBlock.Next.undone {sb : SuperBlock} {n : Nat} (next : sb.Next n)
    (ok : Consistent sb) : Undone sb ((sb.taken n).failed.released n) := by
  have lower := next.lower
  have ok' := (next.consistent ok).failed
  have held : (sb.taken n).failed.Allocated n := (next.allocated n).mpr (Or.inr rfl)
  refine ⟨ok'.released n held, ?_, ?_, rfl, ?_, rfl, rfl⟩
  · intro k
    rw [SuperBlock.allocated_released _ _ lower, SuperBlock.allocated_failed, next.allocated]
    constructor
    · rintro ⟨before | same, other⟩
      · exact before
      · exact absurd same other
    · intro before
      refine ⟨Or.inl before, ?_⟩
      rintro rfl
      exact next.clear before
  · intro k data
    rw [SuperBlock.block_released _ _ ok'.layout next.upper k (Or.inl data)]
    by_cases same : k = n
    · subst same
      exact Or.inr ⟨lower, next.clear, if_pos rfl⟩
    · rw [if_neg same]
      exact Or.inl (next.block ok k data)
  · exact (sb.nr_taken n).trans ((sb.taken n).failed.nr_released n)

theorem Undone.block {sb sb' : SuperBlock} (undone : Undone sb sb') (k : Nat) (data : 18 ≤ k)
    (used : k < 146 ∨ sb.Allocated k) : sb'.dev.block k = sb.dev.block k := by
  rcases undone.blocks k data with same | ⟨range, clear, _⟩
  · exact same
  · rcases used with low | held
    · omega
    · exact absurd held clear

/-- A data block in use rewritten with what it held. -/
theorem Undone.written {sb sb' : SuperBlock} (undone : Undone sb sb') (n : Nat) (b : Block)
    (data : 18 ≤ n) (same : b = sb.dev.block n) : Undone sb (sb'.written n b) :=
  { undone with
    consistent := undone.consistent.written n b data
    allocated := undone.allocated
    blocks := by
      intro k inside
      rw [SuperBlock.block_written]
      split
      · rename_i here
        exact Or.inl (by rw [same, here])
      · exact undone.blocks k inside
    longer := undone.longer.trans (Nat.le_max_left _ _) }

/-- A block taken first and given back last. -/
theorem Undone.around {sb sb' : SuperBlock} {n : Nat} (next : sb.Next n) (ok : Consistent sb)
    (undone : Undone (sb.taken n) sb') (b : Block) :
    Undone sb ((sb'.written n b).released n) := by
  have lower := next.lower
  have consistent := undone.consistent.written n b (by omega)
  have allocated : ∀ k, (sb'.written n b).Allocated k ↔ sb.Allocated k ∨ k = n := fun k =>
    (undone.allocated k).trans (next.allocated k)
  refine ⟨consistent.released n ((allocated n).mpr (Or.inr rfl)), ?_, ?_, ?_, ?_, undone.inodes,
    undone.failed⟩
  · intro k
    rw [SuperBlock.allocated_released _ _ lower, allocated]
    constructor
    · rintro ⟨before | same, other⟩
      · exact before
      · exact absurd same other
    · intro before
      refine ⟨Or.inl before, ?_⟩
      rintro rfl
      exact next.clear before
  · intro k data
    rw [SuperBlock.block_released _ _ consistent.layout next.upper k (Or.inl data)]
    by_cases same : k = n
    · subst same
      exact Or.inr ⟨lower, next.clear, if_pos rfl⟩
    · rw [if_neg same, SuperBlock.block_written, if_neg same]
      rcases undone.blocks k data with kept | ⟨range, clear, zero⟩
      · exact Or.inl (kept.trans (next.block ok k data))
      · exact Or.inr ⟨range, fun held => clear ((next.allocated k).mpr (Or.inl held)), zero⟩
  · change { sb'.sb with usedBlockCount := sb'.sb.usedBlockCount - 1 } = sb.sb
    rw [undone.counts]
    rfl
  · exact (sb.nr_taken n).trans (undone.longer.trans
      ((Nat.le_max_left _ _).trans ((sb'.written n b).nr_released n)))

theorem Undone.ptr_eq {sb sb' : SuperBlock} {d : Dinode} (undone : Undone sb sb')
    (owned : Owned sb d) :
    ptr sb'.dev d = ptr sb.dev d := by
  apply ptr_congr
  intro s _ nonzero
  have range := (owned.range nonzero).1
  exact undone.block _ (by omega) (Or.inr (owned.inside s nonzero))

theorem Undone.extends {sb sb' : SuperBlock} {inode : Inode} (undone : Undone sb sb')
    (owned : Owned sb inode.dinode) (p : Slot → Prop) :
    Extends p sb inode sb' { inode with dirty := true } := by
  have table := undone.ptr_eq owned
  have free : sb'.free = sb.free := by
    unfold SuperBlock.free
    rw [undone.counts]
  refine ⟨undone.consistent, ?_, fun s _ => congrFun table s,
    fun k data used _ => undone.block k data used, ?_, ?_, ?_, undone.longer, undone.inodes, ?_,
    fun _ => undone.failed, rfl, rfl, rfl, fun clean => ?_⟩
  · change Grows sb.Allocated _ sb'.Allocated (ptr sb'.dev inode.dinode)
    rw [table, show sb'.Allocated = sb.Allocated from
      funext fun k => propext (undone.allocated k)]
    exact Grows.refl _ _
  · intro zeros k range clear
    rcases undone.blocks k (by omega) with same | ⟨_, _, zero⟩
    · rw [same, zeros k range fun held => clear ((undone.allocated k).mpr held)]
    · exact zero
  · change sb'.free + held (ptr sb'.dev inode.dinode) = _
    rw [table, free]
  · intro same
    change inode.dinode.blockCount = BitVec.ofNat 32 (held (ptr sb'.dev inode.dinode))
    rw [table]
    exact same
  · rw [undone.counts]
  · cases clean

theorem Extends.failed {p : Slot → Prop} {sb sb' : SuperBlock} {inode inode' : Inode}
    (ext : Extends p sb inode sb' inode') : Extends p sb inode sb'.failed inode' :=
  { ext with
    consistent := ext.consistent.failed
    ghost := fun _ => rfl }

/-- The size is no part of what the relation speaks of. -/
theorem Extends.resize {p : Slot → Prop} {sb sb' : SuperBlock} {inode inode' : Inode}
    (ext : Extends p sb inode sb' inode') (size : BitVec 64) :
    Extends p sb inode sb' { inode' with dinode.iSize := size, dirty := true } :=
  { ext with
    grows := by rw [ptr_iSize]; exact ext.grows
    off := by rw [ptr_iSize]; exact ext.off
    kept := by rw [ptr_iSize]; exact ext.kept
    spent := by rw [ptr_iSize]; exact ext.spent
    counted := by rw [ptr_iSize]; exact ext.counted
    clean := fun clean => by cases clean }

section Attach

variable {sb : SuperBlock} {inode : Inode} {n : Nat}

/-- Growth by one slot with the resulting table. -/
structure Attached (s : Slot) (n : Nat) (sb : SuperBlock) (inode : Inode) (sb' : SuperBlock)
    (inode' : Inode) : Prop where
  ext : Extends (fun t => t ∈ path s) sb inode sb' inode'
  table : ptr sb'.dev inode'.dinode = Function.update (ptr sb.dev inode.dinode) s n
  free : sb'.free + 1 = sb.free
  size : inode'.dinode.iSize = inode.dinode.iSize
  ghost : sb'.allocFailed = sb.allocFailed

theorem Extends.attachDirect (ok : Consistent sb) (owned : Owned sb inode.dinode)
    (next : sb.Next n) (i : Fin 10) (absent : ptr sb.dev inode.dinode (.direct i) = 0) :
    Attached (.direct i) n sb inode (sb.taken n)
      { inode.charged with dinode.iBlockNr := fun j =>
          if j = i then pointer n else inode.charged.dinode.iBlockNr j } := by
  have table := ptr_setDirect (sb.taken n).dev inode.charged.dinode i (pointer n)
  rw [toNat_pointer n next.upper, ptr_charged, next.ptr_taken ok owned] at table
  refine ⟨?_, table, next.free, rfl, rfl⟩
  exact of_attach owned next absent (next.consistent ok) rfl (sb.nr_taken n) table
    (fun k data _ _ => next.block ok k data) rfl rfl rfl rfl rfl

/-- The device after an index block was taken and cleared. -/
theorem block_taken_cleared (ok : Consistent sb) (next : sb.Next n) (k : Nat) (data : 18 ≤ k)
    (apart : k ≠ n) :
    ((sb.taken n).written n Buffer.zero).dev.block k = sb.dev.block k := by
  rw [SuperBlock.block_written, if_neg apart]
  exact next.block ok k data

theorem ptr_cleared (ok : Consistent sb) (owned : Owned sb inode.dinode) (next : sb.Next n) :
    ptr ((sb.taken n).written n Buffer.zero).dev inode.charged.dinode =
      ptr sb.dev inode.dinode := by
  have taken := next.ptr_taken ok owned
  rw [ptr_charged, ptr_written, taken]
  intro s _
  rw [taken]
  exact next.ptr_ne owned s

theorem Extends.attachIndirect (ok : Consistent sb) (owned : Owned sb inode.dinode)
    (next : sb.Next n) (absent : inode.dinode.iIndirect = 0) :
    Attached .indirect n sb inode ((sb.taken n).written n Buffer.zero)
      (inode.charged.setIndirect n) := by
  have lower := next.lower
  have number := toNat_pointer n next.upper
  have table := ptr_setIndirect ((sb.taken n).written n Buffer.zero).dev inode.charged.dinode
    (pointer n) absent (by rw [number, SuperBlock.block_written, if_pos rfl])
  rw [number, ptr_cleared ok owned next] at table
  have null : ptr sb.dev inode.dinode .indirect = 0 := (toNat_eq_zero _).mpr absent
  refine ⟨?_, table, next.free, rfl, rfl⟩
  refine of_attach owned next null ((next.consistent ok).written n _ (by omega)) rfl ?_ table
    (fun k data apart _ => block_taken_cleared ok next k data apart) rfl rfl rfl rfl rfl
  exact (sb.nr_taken n).trans (Nat.le_max_left _ _)

theorem Extends.attachDindirect (ok : Consistent sb) (owned : Owned sb inode.dinode)
    (next : sb.Next n) (absent : inode.dinode.iDindirect = 0) :
    Attached .dindirect n sb inode ((sb.taken n).written n Buffer.zero)
      (inode.charged.setDindirect n) := by
  have lower := next.lower
  have number := toNat_pointer n next.upper
  have table := ptr_setDindirect ((sb.taken n).written n Buffer.zero).dev inode.charged.dinode
    (pointer n) absent (by rw [number, SuperBlock.block_written, if_pos rfl])
  rw [number, ptr_cleared ok owned next] at table
  have null : ptr sb.dev inode.dinode .dindirect = 0 := (toNat_eq_zero _).mpr absent
  refine ⟨?_, table, next.free, rfl, rfl⟩
  refine of_attach owned next null ((next.consistent ok).written n _ (by omega)) rfl ?_ table
    (fun k data apart _ => block_taken_cleared ok next k data apart) rfl rfl rfl rfl rfl
  exact (sb.nr_taken n).trans (Nat.le_max_left _ _)

/-- The double-indirect block stays with the inode although nothing was written to it. -/
theorem Extends.attachDindirect_unwritten (ok : Consistent sb) (owned : Owned sb inode.dinode)
    (next : sb.Next n) (absent : inode.dinode.iDindirect = 0) (free : FreeZero sb) :
    Attached .dindirect n sb inode (sb.taken n)
      (inode.charged.setDindirect n) := by
  have lower := next.lower
  have number := toNat_pointer n next.upper
  have blank : (sb.taken n).dev.block n = Buffer.zero := by
    rw [next.block ok n (by omega), free n lower next.clear]
  have table := ptr_setDindirect (sb.taken n).dev inode.charged.dinode (pointer n) absent
    (by rw [number, blank])
  rw [number, ptr_charged, next.ptr_taken ok owned] at table
  have null : ptr sb.dev inode.dinode .dindirect = 0 := (toNat_eq_zero _).mpr absent
  refine ⟨?_, table, next.free, rfl, rfl⟩
  exact of_attach owned next null (next.consistent ok) rfl (sb.nr_taken n) table
    (fun k data _ _ => next.block ok k data) rfl rfl rfl rfl rfl

theorem Extends.attachEntry (ok : Consistent sb) (owned : Owned sb inode.dinode)
    (next : sb.Next n) (i : Fin 2048) (present : ptr sb.dev inode.dinode .indirect ≠ 0)
    (absent : ptr sb.dev inode.dinode (.entry i) = 0) :
    Attached (.entry i) n sb inode
      ((sb.taken n).written (ptr sb.dev inode.dinode .indirect)
        ((sb.dev.block (ptr sb.dev inode.dinode .indirect)).setInt i (pointer n)))
      inode.charged := by
  have range := owned.range present
  have taken := next.ptr_taken ok owned
  have block := next.block ok (ptr sb.dev inode.dinode .indirect) (by omega)
  have held : Owns sb.Allocated (ptr (sb.taken n).dev inode.dinode) := by rwa [taken]
  have table := ptr_setEntry held i (pointer n) (by rwa [taken])
  rw [taken, block, toNat_pointer n next.upper] at table
  refine ⟨?_, (ptr_charged _ inode).trans table, next.free, rfl, rfl⟩
  refine of_attach owned next absent ((next.consistent ok).written _ _ (by omega)) rfl ?_
    ((ptr_charged _ inode).trans table) ?_ rfl rfl rfl rfl rfl
  · exact (sb.nr_taken n).trans (Nat.le_max_left _ _)
  · intro k data _ apart
    have other := apart .indirect (by simp [path]) (by simp)
    rw [SuperBlock.block_written, if_neg fun same => other same.symm]
    exact next.block ok k data

theorem Extends.attachDentry (ok : Consistent sb) (owned : Owned sb inode.dinode)
    (next : sb.Next n) (i j : Fin 2048) (present : ptr sb.dev inode.dinode (.page i) ≠ 0)
    (absent : ptr sb.dev inode.dinode (.dentry i j) = 0) :
    Attached (.dentry i j) n sb inode
      ((sb.taken n).written (ptr sb.dev inode.dinode (.page i))
        ((sb.dev.block (ptr sb.dev inode.dinode (.page i))).setInt j (pointer n)))
      inode.charged := by
  have range := owned.range present
  have taken := next.ptr_taken ok owned
  have block := next.block ok (ptr sb.dev inode.dinode (.page i)) (by omega)
  have held : Owns sb.Allocated (ptr (sb.taken n).dev inode.dinode) := by rwa [taken]
  have table := ptr_setDentry held i j (pointer n) (by rwa [taken])
  rw [taken, block, toNat_pointer n next.upper] at table
  refine ⟨?_, (ptr_charged _ inode).trans table, next.free, rfl, rfl⟩
  refine of_attach owned next absent ((next.consistent ok).written _ _ (by omega)) rfl ?_
    ((ptr_charged _ inode).trans table) ?_ rfl rfl rfl rfl rfl
  · exact (sb.nr_taken n).trans (Nat.le_max_left _ _)
  · intro k data _ apart
    have other := apart (.page i) (by simp [path]) (by simp)
    rw [SuperBlock.block_written, if_neg fun same => other same.symm]
    exact next.block ok k data

theorem Extends.attachPage (ok : Consistent sb) (owned : Owned sb inode.dinode)
    (next : sb.Next n) (i : Fin 2048) (present : ptr sb.dev inode.dinode .dindirect ≠ 0)
    (absent : ptr sb.dev inode.dinode (.page i) = 0) :
    Attached (.page i) n sb inode
      (((sb.taken n).written n Buffer.zero).written (ptr sb.dev inode.dinode .dindirect)
        ((sb.dev.block (ptr sb.dev inode.dinode .dindirect)).setInt i (pointer n)))
      inode.charged := by
  have range := owned.range present
  have lower := next.lower
  have number := toNat_pointer n next.upper
  have apart := next.ptr_ne owned .dindirect
  have cleared := ptr_cleared ok owned next
  rw [ptr_charged] at cleared
  have block := block_taken_cleared ok next (ptr sb.dev inode.dinode .dindirect) (by omega) apart
  have held : Owns sb.Allocated
      (ptr ((sb.taken n).written n Buffer.zero).dev inode.dinode) := by rwa [cleared]
  have table := ptr_setPage held i (pointer n) (by rwa [cleared]) (by rwa [cleared])
    (by rw [cleared, number]; exact apart.symm)
    (by rw [number, SuperBlock.block_written, if_pos rfl])
  rw [cleared, block, number] at table
  refine ⟨?_, (ptr_charged _ inode).trans table, next.free, rfl, rfl⟩
  refine of_attach owned next absent
    (((next.consistent ok).written n _ (by omega)).written _ _ (by omega)) rfl ?_
    ((ptr_charged _ inode).trans table) ?_ rfl rfl rfl rfl rfl
  · exact ((sb.nr_taken n).trans (Nat.le_max_left _ _)).trans (Nat.le_max_left _ _)
  · intro k data other distinct
    have outside := distinct .dindirect (by simp [path]) (by simp)
    rw [SuperBlock.block_written, if_neg fun same => outside same.symm]
    exact block_taken_cleared ok next k data other

end Attach

end Ece344Lab.Fs
