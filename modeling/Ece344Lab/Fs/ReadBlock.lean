import Ece344Lab.Fs.Slots
import Ece344Lab.Fs.SuperFacts

set_option autoImplicit false

/- What `testfs_read_block` returns, in terms of the pointer table. -/
namespace Ece344Lab.Fs

open Outcome Ownership

/-- Every pointer of the inode names a data block that is marked in the freemap, and no two
pointers name the same one. -/
abbrev Owned (sb : SuperBlock) (d : Dinode) : Prop := Owns sb.Allocated (ptr sb.dev d)

theorem Owned.range {sb : SuperBlock} {d : Dinode} (owned : Owned sb d) {s : Slot}
    (nonzero : ptr sb.dev d s ≠ 0) : 146 ≤ ptr sb.dev d s ∧ ptr sb.dev d s < 1048722 :=
  ⟨(owned.inside s nonzero).1, (owned.inside s nonzero).2.1⟩

theorem Owned.small {sb : SuperBlock} {d : Dinode} (owned : Owned sb d) (s : Slot) :
    ptr sb.dev d s < 2 ^ 31 := by
  by_cases zero : ptr sb.dev d s = 0
  · rw [zero]
    decide
  · have := (owned.range zero).2
    omega

theorem toInt_of_small (w : BitVec 32) (small : w.toNat < 2 ^ 31) : w.toInt = w.toNat := by
  rw [BitVec.toInt_eq_toNat_of_lt (by omega)]

/-- The contents of a logical block; blocks that are not there read as zeros. -/
def fileBlock (dev : Device) (d : Dinode) (log : Nat) : Block :=
  if ptr dev d (leaf log) = 0 then Buffer.zero else dev.block (ptr dev d (leaf log))

/-- The byte at a position of the file. -/
def content (dev : Device) (d : Dinode) (pos : Nat) : Byte :=
  (fileBlock dev d (pos / blockSize)).get (pos % blockSize)

/-- Some block on the way to a slot lies beyond the end of the image. -/
def Cut (dev : Device) (d : Dinode) (s : Slot) : Prop :=
  ∃ t ∈ path s, ptr dev d t ≠ 0 ∧ dev.nr ≤ ptr dev d t

/-- The pointer of a slot and the contents of the block behind it, unless the image ends before
that. -/
abbrev ReadsSlot (dev : Device) (d : Dinode) (s : Slot) (run : Except Halt (Int × Block)) : Prop :=
  Sat run
    (fun r =>
      r = ((ptr dev d s : Int), if ptr dev d s = 0 then Buffer.zero else dev.block (ptr dev d s)) ∧
      ¬ Cut dev d s)
    (fun e => e = .exit ∧ Cut dev d s)

section Slots

variable {dev : Device} {d : Dinode} {s t : Slot} {w : BitVec 32}

theorem cut_behind (behind : path s = path t ++ [s]) :
    Cut dev d s ↔ Cut dev d t ∨ ptr dev d s ≠ 0 ∧ dev.nr ≤ ptr dev d s := by
  unfold Cut
  rw [behind]
  simp only [List.mem_append, List.mem_singleton, or_and_right, exists_or, exists_eq_left]

theorem cut_first (first : path s = [s]) :
    Cut dev d s ↔ ptr dev d s ≠ 0 ∧ dev.nr ≤ ptr dev d s := by
  unfold Cut
  rw [first]
  simp only [List.mem_singleton, exists_eq_left]

theorem reads_null {n : Int} (zero : n = 0) (null : ptr dev d s = 0) (whole : ¬ Cut dev d s) :
    ReadsSlot dev d s (.ok (n, Buffer.zero)) := by
  rw [ReadsSlot, sat_ok, if_pos null, null, zero]
  exact ⟨rfl, whole⟩

theorem readPointer_reads (value : w.toNat = ptr dev d s) (small : w.toNat < 2 ^ 31)
    (last : Cut dev d s ↔ ptr dev d s ≠ 0 ∧ dev.nr ≤ ptr dev d s) :
    ReadsSlot dev d s (readPointer dev w) := by
  unfold readPointer
  rw [toInt_of_small w small, value]
  by_cases null : ptr dev d s = 0
  · rw [if_neg (by omega)]
    exact reads_null (by omega) null fun cut => (last.mp cut).1 null
  · rw [if_pos (by omega)]
    refine Sat.bind ((readBlocks_sat dev _).mono (fun _ spec => spec) ?_) ?_
    · rintro e ⟨rfl, outside⟩
      exact ⟨rfl, last.mpr ⟨null, outside⟩⟩
    · rintro _ ⟨rfl, stored⟩
      rw [sat_ok, if_neg null]
      refine ⟨rfl, fun cut => ?_⟩
      have beyond := (last.mp cut).2
      omega

/-- What is read behind an index block: nothing where the index block is missing. -/
theorem throughIndex_reads {absent : Int} {i : Nat}
    {next : BitVec 32 → Except Halt (Int × Block)} (inside : i < 2048)
    (value : w.toNat = ptr dev d t) (small : w.toNat < 2 ^ 31)
    (last : Cut dev d t ↔ ptr dev d t ≠ 0 ∧ dev.nr ≤ ptr dev d t)
    (through : Cut dev d t → Cut dev d s)
    (present : ptr dev d t ≠ 0 → ¬ Cut dev d t →
      ReadsSlot dev d s (next ((dev.block (ptr dev d t)).getInt i)))
    (missing : ptr dev d t = 0 → ¬ Cut dev d t → ReadsSlot dev d s (.ok (absent, Buffer.zero))) :
    ReadsSlot dev d s (throughIndex dev w absent i next) := by
  unfold throughIndex
  rw [toInt_of_small w small, value]
  by_cases null : ptr dev d t = 0
  · rw [if_neg (by omega)]
    exact missing null fun cut => (last.mp cut).1 null
  · rw [if_pos (by omega)]
    refine Sat.bind ((readBlocks_sat dev _).mono (fun _ spec => spec) ?_) ?_
    · rintro e ⟨rfl, outside⟩
      exact ⟨rfl, through (last.mpr ⟨null, outside⟩)⟩
    · rintro _ ⟨rfl, stored⟩
      rw [intAt_of_lt _ inside, ok_bind]
      refine present null fun cut => ?_
      have beyond := (last.mp cut).2
      omega

end Slots

section Reads

variable {sb : SuperBlock} {d : Dinode}

theorem reads_direct (owned : Owned sb d) (i : Fin 10) :
    ReadsSlot sb.dev d (.direct i) ((IndexPath.direct i).follow sb.dev d) := by
  rw [follow_direct i.isLt]
  exact readPointer_reads rfl (owned.small (.direct i)) (cut_first rfl)

theorem reads_entry (owned : Owned sb d) (i : Fin 2048) :
    ReadsSlot sb.dev d (.entry i) ((IndexPath.indirect i).follow sb.dev d) := by
  have behind : Cut sb.dev d (.entry i) ↔ Cut sb.dev d .indirect ∨ _ := cut_behind rfl
  refine throughIndex_reads (t := .indirect) i.isLt rfl (owned.small .indirect) (cut_first rfl)
    (fun cut => behind.mpr (Or.inl cut)) (fun present whole => ?_) fun missing whole => ?_
  · have value : ((sb.dev.block (ptr sb.dev d .indirect)).getInt i).toNat =
        ptr sb.dev d (.entry i) :=
      (indexEntry_of_ne_zero sb.dev _ i present).symm
    exact readPointer_reads value (value ▸ owned.small (.entry i))
      (behind.trans (or_iff_right whole))
  · have null : ptr sb.dev d (.entry i) = 0 := by
      change indexEntry sb.dev (ptr sb.dev d .indirect) i = 0
      rw [missing, indexEntry_zero]
    refine reads_null rfl null fun cut => ?_
    exact ((behind.mp cut).resolve_left whole).1 null

theorem reads_dentry (owned : Owned sb d) (i j : Fin 2048) :
    ReadsSlot sb.dev d (.dentry i j) ((IndexPath.dindirect i j).follow sb.dev d) := by
  have page : Cut sb.dev d (.page i) ↔ Cut sb.dev d .dindirect ∨ _ := cut_behind rfl
  have behind : Cut sb.dev d (.dentry i j) ↔ Cut sb.dev d (.page i) ∨ _ := cut_behind rfl
  have null : ptr sb.dev d (.page i) = 0 → ptr sb.dev d (.dentry i j) = 0 := by
    intro missing
    change indexEntry sb.dev (ptr sb.dev d (.page i)) j = 0
    rw [missing, indexEntry_zero]
  have reads : ∀ n : Int, n = 0 → ptr sb.dev d (.page i) = 0 → ¬ Cut sb.dev d (.page i) →
      ReadsSlot sb.dev d (.dentry i j) (.ok (n, Buffer.zero)) := by
    intro n zero missing whole
    refine reads_null zero (null missing) fun cut => ?_
    exact ((behind.mp cut).resolve_left whole).1 (null missing)
  refine throughIndex_reads (t := .dindirect) i.isLt rfl (owned.small .dindirect) (cut_first rfl)
    (fun cut => behind.mpr (Or.inl (page.mpr (Or.inl cut)))) (fun present whole => ?_)
    fun missing whole => ?_
  · have value : ((sb.dev.block (ptr sb.dev d .dindirect)).getInt i).toNat =
        ptr sb.dev d (.page i) :=
      (indexEntry_of_ne_zero sb.dev _ i present).symm
    have small := value ▸ owned.small (.page i)
    refine throughIndex_reads (t := .page i) j.isLt value small (page.trans (or_iff_right whole))
      (fun cut => behind.mpr (Or.inl cut)) (fun present' whole' => ?_) fun missing whole' => ?_
    · have value' : ((sb.dev.block (ptr sb.dev d (.page i))).getInt j).toNat =
          ptr sb.dev d (.dentry i j) :=
        (indexEntry_of_ne_zero sb.dev _ j present').symm
      exact readPointer_reads value' (value' ▸ owned.small (.dentry i j))
        (behind.trans (or_iff_right whole'))
    · refine reads _ ?_ missing whole'
      rw [toInt_of_small _ small, value, missing]
      rfl
  · have missing' : ptr sb.dev d (.page i) = 0 := by
      change indexEntry sb.dev (ptr sb.dev d .dindirect) i = 0
      rw [missing, indexEntry_zero]
    refine reads 0 rfl missing' fun cut => ?_
    exact ((page.mp cut).resolve_left whole).1 missing'

/-- Following indices reads the slot that they lead to. -/
theorem IndexPath.Leads.reads {path : IndexPath} {s : Slot} (leads : path.Leads s)
    (owned : Owned sb d) : ReadsSlot sb.dev d s (path.follow sb.dev d) := by
  cases leads with
  | direct i => exact reads_direct owned i
  | indirect i => exact reads_entry owned i
  | dindirect i j => exact reads_dentry owned i j

end Reads

/-- Reading a logical block gives its pointer and its contents, or stops because the image
ends before a block that the inode owns. -/
theorem testfsReadBlock_sat (sb : SuperBlock) (d : Dinode) (log : Nat) (block : Block)
    (owned : Owned sb d) (inside : log < nrMaxBlock) :
    Sat (testfsReadBlock sb d log block)
      (fun r => r = ((ptr sb.dev d (leaf log) : Int), fileBlock sb.dev d log) ∧
        ¬ Cut sb.dev d (leaf log))
      (fun e => e = .exit ∧ Cut sb.dev d (leaf log)) := by
  rw [testfsReadBlock_follows sb d block (Nat.le_of_lt inside)]
  exact (indexPath_leads inside).reads owned

/-- A pointer is behind pointers. -/
theorem ptr_path_ne_zero {dev : Device} {d : Dinode} {s t : Slot} (nonzero : ptr dev d s ≠ 0)
    (member : t ∈ path s) : ptr dev d t ≠ 0 := by
  cases s with
  | entry i =>
      have cases : t = .indirect ∨ t = .entry i := by simpa [path] using member
      rcases cases with rfl | rfl
      · intro zero
        apply nonzero
        change indexEntry dev (ptr dev d .indirect) i = 0
        rw [zero, indexEntry_zero]
      · exact nonzero
  | page i =>
      have cases : t = .dindirect ∨ t = .page i := by simpa [path] using member
      rcases cases with rfl | rfl
      · intro zero
        apply nonzero
        change indexEntry dev (ptr dev d .dindirect) i = 0
        rw [zero, indexEntry_zero]
      · exact nonzero
  | dentry i j =>
      have page : ptr dev d (.page i) ≠ 0 := by
        intro zero
        apply nonzero
        change indexEntry dev (ptr dev d (.page i)) j = 0
        rw [zero, indexEntry_zero]
      have cases : t = .dindirect ∨ t = .page i ∨ t = .dentry i j := by
        simpa [path] using member
      rcases cases with rfl | rfl | rfl
      · intro zero
        apply page
        change indexEntry dev (ptr dev d .dindirect) i = 0
        rw [zero, indexEntry_zero]
      · exact page
      · exact nonzero
  | _ =>
      rw [path, List.mem_singleton] at member
      rwa [member]

end Ece344Lab.Fs
