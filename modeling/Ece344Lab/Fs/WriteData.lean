import Ece344Lab.Fs.AllocateBlock
import Ece344Lab.Fs.ReadData

set_option autoImplicit false

/- `testfs_write_data`: the contents of the file afterwards, and the ways it can stop early. -/
namespace Ece344Lab.Fs

open Outcome Ownership

def Span (first last : Nat) (s : Slot) : Prop :=
  ∃ log, first ≤ log ∧ log ≤ last ∧ log < 4196362 ∧ s ∈ path (leaf log)

theorem Span.block {first last log : Nat} (lower : first ≤ log) (upper : log ≤ last)
    (inside : log < 4196362) {s : Slot} (member : s ∈ path (leaf log)) : Span first last s :=
  ⟨log, lower, upper, inside, member⟩

theorem Span.later {first last : Nat} {s : Slot} (span : Span (first + 1) last s) :
    Span first last s := by
  obtain ⟨log, lower, upper, inside, member⟩ := span
  exact ⟨log, by omega, upper, inside, member⟩

theorem not_span {first last log : Nat} (inside : log < 4196362)
    (outside : log < first ∨ last < log) :
    ¬ Span first last (leaf log) := by
  rintro ⟨other, lower, upper, inside', member⟩
  have same := leaf_mem_path inside inside' member
  omega

/-- The bytes `f` with `buf` put in at a position. -/
def overlay (f : Nat → Byte) (pos : Nat) (buf : List Byte) (q : Nat) : Byte :=
  if pos ≤ q ∧ q < pos + buf.length then buf.getD (q - pos) 0 else f q

theorem overlay_outside (f : Nat → Byte) (pos : Nat) (buf : List Byte) (q : Nat)
    (outside : q < pos ∨ pos + buf.length ≤ q) : overlay f pos buf q = f q :=
  if_neg (by omega)

/-- Two copies one behind the other are one copy. -/
theorem overlay_take_drop (f : Nat → Byte) (pos k : Nat) (buf : List Byte)
    (inside : k ≤ buf.length) (q : Nat) :
    overlay (overlay f pos (buf.take k)) (pos + k) (buf.drop k) q = overlay f pos buf q := by
  unfold overlay
  rw [List.length_drop, List.length_take, Nat.min_eq_left inside]
  by_cases second : pos + k ≤ q ∧ q < pos + k + (buf.length - k)
  · rw [if_pos second, if_pos (by omega), List.getD_eq_getElem?_getD, List.getElem?_drop,
      List.getD_eq_getElem?_getD]
    congr 2
    omega
  · rw [if_neg second]
    by_cases first : pos ≤ q ∧ q < pos + k
    · rw [if_pos first, if_pos (by omega), List.getD_eq_getElem?_getD,
        List.getElem?_take_of_lt (by omega), List.getD_eq_getElem?_getD]
    · rw [if_neg first, if_neg (by omega)]

theorem index_leaf (log : Nat) : (leaf log).index = false := by
  unfold leaf
  split
  · rfl
  · split <;> rfl

theorem Extends.writeLeaf {sb : SuperBlock} {inode : Inode} (ok : Consistent sb)
    (owned : Owned sb inode.dinode) (log : Nat) (b : Block)
    (present : ptr sb.dev inode.dinode (leaf log) ≠ 0) :
    Extends (fun s => s ∈ path (leaf log)) sb inode
        (sb.written (ptr sb.dev inode.dinode (leaf log)) b) inode ∧
      ptr (sb.written (ptr sb.dev inode.dinode (leaf log)) b).dev inode.dinode =
        ptr sb.dev inode.dinode := by
  have range := owned.range present
  have table : ptr (sb.written (ptr sb.dev inode.dinode (leaf log)) b).dev inode.dinode =
      ptr sb.dev inode.dinode := by
    apply ptr_written
    intro s index
    refine owned.ne ?_ present
    rintro rfl
    rw [index_leaf] at index
    cases index
  refine ⟨{ Extends.refl (fun s => s ∈ path (leaf log)) ok inode with
    consistent := ok.written _ b (by omega)
    grows := by rw [table]; exact Grows.refl _ _
    off := fun s _ => congrFun table s
    kept := ?_
    zeros := ?_
    spent := by rw [table]; rfl
    counted := fun same => by rw [table]; exact same
    longer := Nat.le_max_left _ _ }, table⟩
  · intro k _ _ apart
    have other := apart _ (mem_path (leaf log))
    rw [table] at other
    exact if_neg fun same => other same.symm
  · intro free k lower clear
    rw [SuperBlock.block_written, if_neg, free k lower clear]
    rintro rfl
    exact clear (owned.inside _ present)

/-- `bytes` have been written into logical block `log`. -/
structure Wrote (log ix : Nat) (bytes : List Byte) (sb : SuperBlock) (inode : Inode)
    (sb' : SuperBlock) (inode' : Inode) : Prop where
  ext : Extends (fun s => s ∈ path (leaf log)) sb inode sb' inode'
  block : fileBlock sb'.dev inode'.dinode log =
    (fileBlock sb.dev inode.dinode log).splice ix bytes
  present : ∀ s ∈ path (leaf log), ptr sb'.dev inode'.dinode s ≠ 0
  stored : Stored sb.dev inode.dinode → Stored sb'.dev inode'.dinode
  size : inode'.dinode.iSize = inode.dinode.iSize
  ghost : sb'.allocFailed = sb.allocFailed
  idle : lacking sb.dev inode.dinode (leaf log) = 0 → inode' = inode

theorem Reached.wrote {log : Nat} {sb : SuperBlock} {inode : Inode} {r : BlockResult}
    (reached : Reached (leaf log) sb inode (fileBlock sb.dev inode.dinode log) r)
    (owned : Owned sb inode.dinode) (ix : Nat) (bytes : List Byte) :
    Wrote log ix bytes sb inode
      (r.sb.written (ptr r.sb.dev r.inode.dinode (leaf log)) (r.block.splice ix bytes))
      r.inode := by
  have owned' := reached.ext.owned owned
  have present := reached.present _ (mem_path (leaf log))
  obtain ⟨ext, table⟩ := Extends.writeLeaf reached.ext.consistent owned' log
    (r.block.splice ix bytes) present
  refine ⟨reached.ext.trans ext, ?_, ?_, ?_, reached.size, reached.ghost,
    fun none => reached.idle (ptr_ne_zero_of_lacking none)⟩
  · rw [fileBlock, table, if_neg present, SuperBlock.block_written, if_pos rfl, reached.block]
  · intro s member
    rw [table]
    exact reached.present s member
  · intro stored s nonzero
    rw [table] at nonzero ⊢
    rw [SuperBlock.nr_written]
    by_cases member : s ∈ path (leaf log)
    · by_cases last : s = leaf log
      · subst last
        omega
      · have := reached.stored s member last
        omega
    · rw [reached.ext.off s member] at nonzero ⊢
      have := stored s nonzero
      have := reached.ext.longer
      omega

theorem Wrote.contents {log ix : Nat} {bytes : List Byte} {sb sb' : SuperBlock}
    {inode inode' : Inode} (wrote : Wrote log ix bytes sb inode sb' inode')
    (owned : Owned sb inode.dinode) (inside : log < 4196362) (fits : ix + bytes.length ≤ 8192)
    (q : Nat) (bound : q / 8192 < 4196362) :
    content sb'.dev inode'.dinode q =
      overlay (content sb.dev inode.dinode) (log * 8192 + ix) bytes q := by
  have split : content sb'.dev inode'.dinode q =
      (fileBlock sb'.dev inode'.dinode (q / 8192)).get (q % 8192) := rfl
  have split' : content sb.dev inode.dinode q =
      (fileBlock sb.dev inode.dinode (q / 8192)).get (q % 8192) := rfl
  by_cases here : q / 8192 = log
  · have small : q % 8192 < blockSize := Nat.mod_lt _ (by decide)
    rw [split, here, wrote.block, Buffer.get_splice _ _ _ _ small, overlay, split', here]
    by_cases range : ix ≤ q % 8192 ∧ q % 8192 < ix + bytes.length
    · rw [if_pos range, if_pos (by omega)]
      congr 1
      omega
    · rw [if_neg range, if_neg (by omega)]
  · rw [overlay_outside _ _ _ _ (by omega), split, split',
      wrote.ext.fileBlock_eq owned _ fun member => here (leaf_mem_path bound inside member)]

theorem Wrote.held {log ix : Nat} {bytes : List Byte} {sb sb' : SuperBlock} {inode inode' : Inode}
    (wrote : Wrote log ix bytes sb inode sb' inode') :
    sb'.free + lacking sb.dev inode.dinode (leaf log) = sb.free := by
  have spent := wrote.ext.spent
  have filled := held_fill (ptr sb.dev inode.dinode) (ptr sb'.dev inode'.dinode)
    (path (leaf log)).toFinset
    (fun s outside => wrote.ext.off s fun member => outside (List.mem_toFinset.mpr member))
    fun s member => wrote.present s (List.mem_toFinset.mp member)
  unfold lacking
  omega

theorem Wrote.free_le {log ix : Nat} {bytes : List Byte} {sb sb' : SuperBlock}
    {inode inode' : Inode} (wrote : Wrote log ix bytes sb inode sb' inode') :
    sb.free ≤ sb'.free + 3 := by
  have held := wrote.held
  have few := lacking_le sb.dev inode.dinode (leaf log)
  omega

/-- The direct pointers from block `first` on that are null. -/
def holes (d : Dinode) (first : Nat) : Nat :=
  (Finset.univ.filter fun i : Fin nrDirectBlocks => first ≤ i.val ∧ d.iBlockNr i = 0).card

theorem holes_of_ge (d : Dinode) (first : Nat) (beyond : 10 ≤ first) : holes d first = 0 := by
  rw [holes, Finset.card_eq_zero, Finset.filter_eq_empty_iff]
  rintro i _ ⟨lower, _⟩
  have inside : i.val < 10 := i.isLt
  omega

/-- Writing a direct block uses up one hole and one free block, or neither. -/
theorem Wrote.holes {log ix : Nat} {bytes : List Byte} {sb sb' : SuperBlock}
    {inode inode' : Inode} (wrote : Wrote log ix bytes sb inode sb' inode') (direct : log < 10) :
    sb'.free + holes inode.dinode log = sb.free + holes inode'.dinode (log + 1) := by
  have free := wrote.held
  have shape := leaf_direct log direct
  have others : ∀ i : Fin 10, i.val ≠ log →
      (inode'.dinode.iBlockNr i).toNat = (inode.dinode.iBlockNr i).toNat := by
    intro i other
    apply wrote.ext.off (.direct i)
    rw [shape]
    intro member
    apply other
    simpa [path, Fin.ext_iff] using member
  have later : (Finset.univ.filter fun i : Fin nrDirectBlocks =>
      log + 1 ≤ i.val ∧ inode'.dinode.iBlockNr i = 0) =
        Finset.univ.filter fun i : Fin nrDirectBlocks =>
          log + 1 ≤ i.val ∧ inode.dinode.iBlockNr i = 0 := by
    ext i
    simp only [Finset.mem_filter, Finset.mem_univ, true_and, and_congr_right_iff]
    intro lower
    rw [← toNat_eq_zero, ← toNat_eq_zero, others i (by omega)]
  by_cases null : inode.dinode.iBlockNr ⟨log, direct⟩ = 0
  · have here : ptr sb.dev inode.dinode (.direct ⟨log, direct⟩) = 0 := (toNat_eq_zero _).mpr null
    have first : (Finset.univ.filter fun i : Fin nrDirectBlocks =>
        log ≤ i.val ∧ inode.dinode.iBlockNr i = 0) =
          insert ⟨log, direct⟩ (Finset.univ.filter fun i : Fin nrDirectBlocks =>
            log + 1 ≤ i.val ∧ inode.dinode.iBlockNr i = 0) := by
      ext i
      simp only [Finset.mem_filter, Finset.mem_univ, true_and, Finset.mem_insert]
      by_cases here : i = ⟨log, direct⟩
      · simp [here, null]
      · have apart : i.val ≠ log := fun same => here (Fin.ext same)
        simp only [here, false_or, and_congr_left_iff]
        omega
    rw [shape, lacking_direct, if_pos here] at free
    unfold Fs.holes
    rw [later, first, Finset.card_insert_of_notMem (by simp)]
    omega
  · have here : ptr sb.dev inode.dinode (.direct ⟨log, direct⟩) ≠ 0 :=
      fun zero => null ((toNat_eq_zero _).mp zero)
    have first : (Finset.univ.filter fun i : Fin nrDirectBlocks =>
        log ≤ i.val ∧ inode.dinode.iBlockNr i = 0) =
          Finset.univ.filter fun i : Fin nrDirectBlocks =>
            log + 1 ≤ i.val ∧ inode.dinode.iBlockNr i = 0 := by
      ext i
      simp only [Finset.mem_filter, Finset.mem_univ, true_and, and_congr_left_iff]
      intro zero
      have apart : i.val ≠ log := by
        intro same
        apply null
        rw [← zero]
        congr 1
        exact Fin.ext same.symm
      omega
    rw [shape, lacking_direct, if_neg here] at free
    unfold Fs.holes
    rw [later, first]
    omega

/-- A block behind a new single-indirect block takes two free ones. -/
theorem Wrote.two {log ix : Nat} {bytes : List Byte} {sb sb' : SuperBlock}
    {inode inode' : Inode} (wrote : Wrote log ix bytes sb inode sb' inode') (lower : 10 ≤ log)
    (upper : log < 2058) (absent : inode.dinode.iIndirect = 0) : 2 ≤ sb.free := by
  have held := wrote.held
  have null : ptr sb.dev inode.dinode .indirect = 0 := (toNat_eq_zero _).mpr absent
  have null' : ∀ i, ptr sb.dev inode.dinode (.entry i) = 0 := by
    intro i
    change indexEntry sb.dev (ptr sb.dev inode.dinode .indirect) i = 0
    rw [null, indexEntry_zero]
  rw [leaf_entry log lower upper, lacking_entry _ _ _ (null' _), if_pos null] at held
  omega

def spanSlots (first last : Nat) : Finset Slot :=
  ((List.range' first (last + 1 - first)).flatMap fun log =>
    if log < 4196362 then path (leaf log) else []).toFinset

theorem mem_spanSlots (first last : Nat) (s : Slot) :
    s ∈ spanSlots first last ↔ Span first last s := by
  unfold spanSlots Span
  rw [List.mem_toFinset, List.mem_flatMap]
  constructor
  · intro found
    obtain ⟨log, member, inside⟩ := found
    rw [List.mem_range'_1] at member
    split at inside
    · rename_i bound
      exact ⟨log, member.1, by omega, bound, inside⟩
    · cases inside
  · intro span
    obtain ⟨log, lower, upper, bound, inside⟩ := span
    refine ⟨log, List.mem_range'_1.mpr ⟨lower, by omega⟩, ?_⟩
    rwa [if_pos bound]

/-- How many blocks it takes to write the logical blocks `first` to `last`. -/
def missing (dev : Device) (d : Dinode) (first last : Nat) : Nat :=
  ((spanSlots first last).filter fun s => ptr dev d s = 0).card

/-- What the first block took is what it lacked, and the rest is missing as before. -/
theorem Wrote.missing {log ix last : Nat} {bytes : List Byte} {sb sb' : SuperBlock}
    {inode inode' : Inode} (wrote : Wrote log ix bytes sb inode sb' inode') (inside : log < 4196362)
    (upper : log ≤ last) :
    missing sb.dev inode.dinode log last =
      lacking sb.dev inode.dinode (leaf log) + missing sb'.dev inode'.dinode (log + 1) last := by
  have split : ((spanSlots log last).filter fun s => ptr sb.dev inode.dinode s = 0) =
      ((path (leaf log)).toFinset.filter fun s => ptr sb.dev inode.dinode s = 0) ∪
        (spanSlots (log + 1) last).filter fun s => ptr sb'.dev inode'.dinode s = 0 := by
    ext s
    rw [Finset.mem_union, Finset.mem_filter, Finset.mem_filter, Finset.mem_filter,
      mem_spanSlots, mem_spanSlots, List.mem_toFinset]
    constructor
    · intro both
      obtain ⟨⟨k, lower, upper', bound, member⟩, null⟩ := both
      by_cases here : s ∈ path (leaf log)
      · exact Or.inl ⟨here, null⟩
      · have other : k ≠ log := fun same => here (same ▸ member)
        refine Or.inr ⟨⟨k, by omega, upper', bound, member⟩, ?_⟩
        rw [wrote.ext.off s here, null]
    · intro either
      cases either with
      | inl here => exact ⟨Span.block (Nat.le_refl log) upper inside here.1, here.2⟩
      | inr later =>
          refine ⟨later.1.later, ?_⟩
          by_contra before
          exact wrote.ext.grows.of_ne_zero before later.2
  have apart : Disjoint ((path (leaf log)).toFinset.filter fun s => ptr sb.dev inode.dinode s = 0)
      ((spanSlots (log + 1) last).filter fun s => ptr sb'.dev inode'.dinode s = 0) := by
    rw [Finset.disjoint_left]
    intro s here later
    rw [Finset.mem_filter, List.mem_toFinset] at here
    exact wrote.present s here.1 (Finset.mem_filter.mp later).2
  unfold Fs.missing lacking
  rw [split, Finset.card_union_of_disjoint apart]

theorem lacking_le_missing (dev : Device) (d : Dinode) (first last : Nat) (inside : first < 4196362)
    (upper : first ≤ last) : lacking dev d (leaf first) ≤ missing dev d first last := by
  apply Finset.card_le_card
  apply Finset.filter_subset_filter
  intro s member
  rw [mem_spanSlots]
  exact Span.block (Nat.le_refl first) upper inside (List.mem_toFinset.mp member)

theorem missing_filled {dev : Device} {d : Dinode} {first last : Nat}
    (filled : ∀ slot, Span first last slot → ptr dev d slot ≠ 0) :
    missing dev d first last = 0 := by
  unfold missing
  rw [Finset.card_eq_zero, Finset.filter_eq_empty_iff]
  exact fun slot member => filled slot ((mem_spanSlots _ _ slot).mp member)

theorem missing_congr {dev dev' : Device} {d d' : Dinode} (same : ptr dev' d' = ptr dev d)
    (first last : Nat) : missing dev' d' first last = missing dev d first last := by
  unfold missing
  rw [same]

/-- A write that stays within one block. -/
theorem missing_one (dev : Device) (d : Dinode) (log : Nat) (inside : log < 4196362) :
    missing dev d log log = lacking dev d (leaf log) := by
  have slots : spanSlots log log = (path (leaf log)).toFinset := by
    ext s
    rw [mem_spanSlots, List.mem_toFinset]
    constructor
    · intro span
      obtain ⟨log', lower, upper, _, member⟩ := span
      rw [Nat.le_antisymm lower upper]
      exact member
    · exact fun member => Span.block (Nat.le_refl _) (Nat.le_refl _) inside member
  unfold missing lacking
  rw [slots]

end Ece344Lab.Fs
