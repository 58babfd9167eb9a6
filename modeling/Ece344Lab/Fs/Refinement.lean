import Ece344Lab.Fs.ReadData
import Ece344Lab.Fs.Start

set_option autoImplicit false

/- `testfs_write_data` and `testfs_read_data` as operations on byte sequences. -/
namespace Ece344Lab.Fs

open Outcome Ownership

/-- The file systems on which reading and writing are meaningful: no two block pointers agree, and
files continue with zeros behind their ends. -/
structure Sound (s : State) : Prop where
  consistent : Consistent s.sb
  table : TableOk s
  owns : Owns s.sb.Allocated s.pointers
  bounded : ∀ n, s.sb.InodeAllocated n → (s.view n).size ≤ (nrMaxBlock * blockSize : Nat)
  tails : ∀ n, s.sb.InodeAllocated n → ∀ q : Nat, (s.view n).size ≤ q → q / 8192 < 4196362 →
    content s.sb.dev (s.view n) q = 0

/-- The file as a byte sequence that goes on with zeros. -/
def State.file (s : State) (n : Nat) (q : Nat) : Byte :=
  if (q : Int) < (s.view n).size then content s.sb.dev (s.view n) q else 0

theorem Sound.file_eq {s : State} (sound : Sound s) {n : Nat} (allocated : s.sb.InodeAllocated n)
    (q : Nat) (inside : q / 8192 < 4196362) : s.file n q = content s.sb.dev (s.view n) q := by
  unfold State.file
  split
  · rfl
  · rename_i beyond
    exact (sound.tails n allocated q (Int.not_lt.mp beyond) inside).symm

theorem empty_at_end {first size : Nat} (most : Nat) (fits : first + size ≤ most * 8192)
    (behind : most ≤ first / 8192) : size = 0 := by
  omega

/-- A range inside the file reads as the file. -/
theorem Sound.read {s : State} (sound : Sound s) {n : Nat} (allocated : s.sb.InodeAllocated n)
    (first size : Nat) (inside : (first + size : Nat) ≤ (s.view n).size) :
    Sat (testfsReadData s.sb (s.view n) first size)
      (fun r => r.stored = (List.range size).map (fun i => s.file n (first + i)) ∧
        (0 < size → r.ret = toInt32 size))
      (fun e => e = .exit ∧ ¬ Stored s.sb.dev (s.view n)) := by
  have most : ((first + size : Nat) : Int) ≤ ((nrMaxBlock * blockSize : Nat) : Int) :=
    inside.trans (sound.bounded n allocated)
  have fits : first + size ≤ 4196362 * 8192 := Int.ofNat_le.mp most
  by_cases room : first / 8192 < 4196362
  · refine (testfsReadData_sat s.sb (s.view n) first size (owned_of_owns sound.owns allocated)
      inside room fits).weaken ?_
    intro r read
    constructor
    · rw [read]
      refine List.map_congr_left fun i member => ?_
      have below := List.mem_range.mp member
      have before : ((first + i : Nat) : Int) < (s.view n).size := by omega
      unfold State.file
      rw [if_pos before]
    · intro _
      rw [read]
  · -- the empty range at the end of the largest file
    have beyond : nrMaxBlock ≤ first / blockSize := Nat.not_lt.mp room
    obtain rfl : size = 0 := empty_at_end 4196362 fits (Nat.not_lt.mp room)
    unfold testfsReadData
    rw [if_pos beyond]
    exact ⟨rfl, fun positive => absurd positive (Nat.lt_irrefl 0)⟩

section Splice

variable {p : Slot → Prop} {s s' : State} {n start : Nat} {buf : List Byte} {inode inode' : Inode}

/-- Putting `buf` into one file keeps the conditions. -/
theorem Sound.splice (sound : Sound s) (allocated : s.sb.InodeAllocated n)
    (view : inode.dinode = s.view n) (step : Extended p n inode s inode' s')
    (contents : ∀ q, q / 8192 < 4196362 →
      content s'.sb.dev inode'.dinode q = overlay (content s.sb.dev inode.dinode) start buf q)
    (size : inode'.dinode.size = max (s.view n).size (start + buf.length : Nat))
    (fits : start + buf.length ≤ nrMaxBlock * blockSize) : Sound s' := by
  have same := step.allocated_iff
  have view' := step.view_self allocated.1
  refine ⟨step.ext.consistent, step.table.ok,
    (step.grows sound.owns allocated view).owns sound.owns, ?_, ?_⟩
  · intro m allocated'
    by_cases here : m = n
    · subst here
      have bounded := sound.bounded m allocated
      rw [view', size]
      exact max_le bounded (by exact_mod_cast fits)
    · have before := (same m).mp allocated'
      rw [step.view_other before.1 here]
      exact sound.bounded m before
  · intro m allocated' q beyond inside
    have before := (same m).mp allocated'
    by_cases here : m = n
    · subst here
      rw [view', size] at beyond
      have tail := sound.tails m allocated q (le_trans (le_max_left _ _) beyond) inside
      have behind : start + buf.length ≤ q := by
        exact_mod_cast le_trans (le_max_right _ _) beyond
      rw [view', contents q inside, overlay_outside _ _ _ _ (Or.inr behind), view, tail]
    · rw [step.view_other before.1 here] at beyond
      rw [step.content_other sound.owns allocated view before here]
      exact sound.tails m before q beyond inside

theorem Sound.file_splice (sound : Sound s) (sound' : Sound s') (allocated : s.sb.InodeAllocated n)
    (view : inode.dinode = s.view n) (step : Extended p n inode s inode' s')
    (contents : ∀ q, q / 8192 < 4196362 →
      content s'.sb.dev inode'.dinode q = overlay (content s.sb.dev inode.dinode) start buf q)
    (q : Nat) (inside : q / 8192 < 4196362) :
    s'.file n q = overlay (s.file n) start buf q := by
  have allocated' := (step.allocated_iff n).mpr allocated
  rw [sound'.file_eq allocated' q inside, step.view_self allocated.1, contents q inside, view]
  unfold overlay
  rw [sound.file_eq allocated q inside]

theorem file_other (sound : Sound s) (allocated : s.sb.InodeAllocated n)
    (view : inode.dinode = s.view n) (step : Extended p n inode s inode' s') {m : Nat}
    (allocated' : s.sb.InodeAllocated m) (other : m ≠ n) : s'.file m = s.file m := by
  funext q
  unfold State.file
  rw [step.content_other sound.owns allocated view allocated' other,
    step.view_other allocated'.1 other]

end Splice

/-- A write that finds all the blocks it needs puts `buf` into the file and changes nothing else. -/
theorem testfsWriteData_refines (s : State) (n start : Nat) (buf : List Byte) (sound : Sound s)
    (allocated : s.sb.InodeAllocated n) (held : 0 < s.refs n) (nonempty : buf ≠ [])
    (fits : start + buf.length ≤ nrMaxBlock * blockSize) (small : buf.length < 2 ^ 31) :
    Sat (s.onInode n fun sb inode => testfsWriteData sb inode buf start)
      (fun r => r.2.sb.allocFailed = false →
        r.1 = buf.length ∧ Sound r.2 ∧
        (∀ m, r.2.sb.InodeAllocated m ↔ s.sb.InodeAllocated m) ∧
        (r.2.view n).size = max (s.view n).size (start + buf.length : Nat) ∧
        (∀ first size : Nat, (first + size : Nat) ≤ (r.2.view n).size →
          Sat (testfsReadData r.2.sb (r.2.view n) first size)
            (fun read => read.stored =
                (List.range size).map (fun i => overlay (s.file n) start buf (first + i)) ∧
              (0 < size → read.ret = toInt32 size))
            (fun e => e = .exit ∧ ¬ Stored r.2.sb.dev (r.2.view n))) ∧
        (∀ m, s.sb.InodeAllocated m → m ≠ n →
          r.2.view m = s.view m ∧ r.2.file m = s.file m))
      (fun e => e = .exit ∧ ¬ Stored s.sb.dev (s.view n)) := by
  obtain ⟨inode, found, read, view, _, number, _⟩ := sound.table.inode_eq held
  have owned := owned_of_owns sound.owns allocated
  rw [← view] at owned
  have positive := List.length_pos_of_ne_nil nonempty
  have fits' : start + buf.length ≤ 4196362 * 8192 := fits
  have inside : start / 8192 < 4196362 := by omega
  unfold State.onInode
  rw [read, ok_bind]
  rw [← view]
  refine Sat.bind (testfsWriteData_sat s.sb inode buf start sound.consistent owned inside) ?_
  rw [view]
  intro r outcome after
  change r.sb.allocFailed = false at after
  have last : lastBlock start buf.length < 4196362 := by
    unfold lastBlock
    clear after
    omega
  have length : toInt32 (buf.length : Int) = (buf.length : Int) := by
    apply Int.bmod_eq_of_le <;> omega
  rcases outcome with ⟨spliced, ret, _, size⟩ | ⟨_, _, beyond, _⟩ | failed | ⟨_, _, failed, _⟩
  · have step := spliced.ext.onInode sound.table read owned
    have bounded := sound.bounded n allocated
    have size' : r.inode.dinode.size = max (s.view n).size (start + buf.length : Nat) := by
      have bounded' : inode.dinode.size ≤ 4196362 * 8192 := by
        rw [view]
        exact_mod_cast bounded
      rw [← view, ← size_grown _ _ _ bounded' fits', Dinode.size, size, if_pos positive, length]
    have contents : ∀ q, q / 8192 < 4196362 → content r.sb.dev r.inode.dinode q =
        overlay (content s.sb.dev inode.dinode) start buf q := spliced.contents
    have sound' := sound.splice allocated view step contents size' fits
    have allocated' := (step.allocated_iff n).mpr allocated
    have view' := step.view_self allocated.1
    refine ⟨ret.trans length, sound', step.allocated_iff, ?_, ?_, ?_⟩
    · rw [view']
      exact size'
    · intro first size within
      have most : ((first + size : Nat) : Int) ≤ ((nrMaxBlock * blockSize : Nat) : Int) :=
        within.trans (sound'.bounded n allocated')
      have most' : first + size ≤ 4196362 * 8192 := Int.ofNat_le.mp most
      refine (sound'.read allocated' first size within).weaken ?_
      rintro read ⟨stored, returned⟩
      refine ⟨stored.trans (List.map_congr_left fun i member => ?_), returned⟩
      have below := List.mem_range.mp member
      exact sound.file_splice sound' allocated view step contents _
        (Nat.div_lt_of_lt_mul (by omega))
    · exact fun m before other => ⟨step.view_other before.1 other,
        file_other sound allocated view step before other⟩
  · omega
  · rw [failed.ghost] at after
    cases after
  · rw [failed] at after
    cases after

/-- The only inode of a file system, without any blocks. -/
theorem Created.sound {n : Nat} {type : InodeType} {s s' : State} (created : Created n type s s')
    (none : ∀ m, ¬ s.sb.InodeAllocated m) : Sound s' := by
  have intact := created.intact
  have only : ∀ m, s'.sb.InodeAllocated m → m = n := by
    intro m held
    exact ((created.inodes m).mp held).resolve_left (none m)
  refine ⟨intact.consistent, intact.table, intact.owns, ?_, ?_⟩
  · intro m held
    rw [only m held, created.view]
    exact (by decide : Dinode.zero.size ≤ (nrMaxBlock * blockSize : Nat))
  · intro m held q _ _
    rw [only m held, created.view]
    unfold content fileBlock
    rw [ptr_iType, ptr_zero, if_pos rfl]
    exact Buffer.get_zero _

theorem testfsWriteData_refines_first : ∃ s : State,
    s.sb.InodeAllocated 0 ∧ (s.view 0).size = 0 ∧
    Sat (s.onInode 0 fun sb inode => testfsWriteData sb inode [7] 8191)
      (fun r => r.2.sb.allocFailed = false → r.1 = 1 ∧ (r.2.view 0).size = 8192)
      (fun e => e = .exit ∧ ¬ Stored s.sb.dev (s.view 0)) := by
  obtain ⟨sb, _, blank⟩ := freshSuperBlock_eq 128 (by decide)
  obtain ⟨r, _, made⟩ := (testfsCreateInode_sat _ .file blank.intact).exists_ok
  cases made with
  | inl full => exact absurd (full.2.1 0 (by decide)) (blank.notAllocated 0)
  | inr made =>
      obtain ⟨_, created⟩ := made
      have first : r.2.1 = 0 := by
        by_contra later
        exact blank.notAllocated 0 (created.least 0 (Nat.pos_of_ne_zero later))
      rw [first] at created
      have allocated := (created.inodes 0).mpr (Or.inr rfl)
      have empty : (r.2.2.view 0).size = 0 := by
        rw [created.view]
        rfl
      have held : 0 < r.2.2.refs 0 := by
        rw [created.refs, Function.update_self]
        exact Nat.succ_pos _
      refine ⟨r.2.2, allocated, empty, ?_⟩
      have spec := testfsWriteData_refines r.2.2 0 8191 [7] (created.sound blank.notAllocated)
        allocated held (by decide) (by decide) (by decide)
      apply spec.weaken
      intro w post unfailed
      obtain ⟨ret, _, _, size, _⟩ := post unfailed
      rw [empty] at size
      exact ⟨ret, size⟩

end Ece344Lab.Fs
