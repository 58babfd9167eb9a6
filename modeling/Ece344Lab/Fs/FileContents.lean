import Ece344Lab.Fs.CreateReturns
import Ece344Lab.Fs.FileTree

set_option autoImplicit false

/- Files as sequences of bytes: what a write, a creation and a removal leave of them. -/
namespace Ece344Lab.Fs

open Outcome Ownership

def State.bytes (s : State) (n : Nat) : List Byte :=
  fileBytes s.sb.dev (s.view n) 0 (s.view n).size.toNat

/-- A file keeps to the largest size, and its blocks are zero behind its end. -/
structure FileOk (s : State) (n : Nat) : Prop where
  kind : (s.view n).iType = InodeType.file.code
  lower : 0 ≤ (s.view n).size
  upper : (s.view n).size ≤ maxFileSize
  behind : ∀ q < maxFileSize, (s.view n).size ≤ q → content s.sb.dev (s.view n) q = 0

section Bytes

variable {s s' : State} {n : Nat}

@[simp] theorem State.length_bytes : (s.bytes n).length = (s.view n).size.toNat :=
  length_fileBytes _ _ _ _

theorem getElem_fileBytes {dev : Device} {d : Dinode} {start size i : Nat}
    (inside : i < (fileBytes dev d start size).length) :
    (fileBytes dev d start size)[i] = content dev d (start + i) := by
  simp [fileBytes]

/-- The bytes of a file, zeros behind its end. -/
theorem FileOk.getD_bytes (ok : FileOk s n) (q : Nat) (below : q < maxFileSize) :
    (s.bytes n).getD q 0 = content s.sb.dev (s.view n) q := by
  rw [List.getD_eq_getElem?_getD]
  by_cases inside : q < (s.bytes n).length
  · rw [List.getElem?_eq_getElem inside]
    change (s.bytes n)[q] = _
    unfold State.bytes at inside ⊢
    rw [getElem_fileBytes inside, Nat.zero_add]
  · rw [List.getElem?_eq_none (Nat.not_lt.mp inside), ok.behind q below]
    · rfl
    · rw [State.length_bytes] at inside
      omega

theorem FileOk.untouched (ok : FileOk s n) (same : Untouched s s' n) : FileOk s' n := by
  refine ⟨?_, ?_, ?_, fun q below past => ?_⟩
  · rw [same.view]
    exact ok.kind
  · rw [same.view]
    exact ok.lower
  · rw [same.view]
    exact ok.upper
  · rw [same.content]
    rw [same.view] at past
    exact ok.behind q below past

theorem Untouched.bytes (same : Untouched s s' n) : s'.bytes n = s.bytes n := by
  have size : (s'.view n).size = (s.view n).size := by rw [same.view]
  unfold State.bytes
  rw [size]
  exact fileBytes_congr fun q _ _ => same.content q

theorem State.bytes_range {start size : Nat} (inside : (start + size : Nat) ≤ (s.view n).size) :
    ((s.bytes n).drop start).take size = fileBytes s.sb.dev (s.view n) start size := by
  have split : (s.view n).size.toNat =
      start + (size + ((s.view n).size.toNat - (start + size))) := by
    omega
  unfold State.bytes
  rw [split, fileBytes_add, fileBytes_add, List.drop_left' (length_fileBytes _ _ _ _),
    List.take_left' (length_fileBytes _ _ _ _), Nat.zero_add]

end Bytes

/-- `buf` has been put into file `n`; the other inodes are as they were. -/
structure Patched (n start : Nat) (buf : List Byte) (s s' : State) : Prop where
  inodes : ∀ m, s'.sb.InodeAllocated m ↔ s.sb.InodeAllocated m
  others : ∀ m, s.sb.InodeAllocated m → m ≠ n → Untouched s s' m
  kind : (s'.view n).iType = (s.view n).iType
  size : (s'.view n).size = max (s.view n).size (start + buf.length : Nat)
  contents : ∀ q < maxFileSize, content s'.sb.dev (s'.view n) q =
    overlay (content s.sb.dev (s.view n)) start buf q

section Patched

variable {s s' s'' : State} {n start : Nat} {buf : List Byte}

theorem Patched.quiet (patched : Patched n start buf s s') (step : Quiet s' s'')
    (owns : Owns s'.sb.Allocated s'.pointers) (allocated : s.sb.InodeAllocated n) :
    Patched n start buf s s'' := by
  have untouched : ∀ m, s.sb.InodeAllocated m → Untouched s' s'' m :=
    fun m held => step.untouched owns ((patched.inodes m).mpr held)
  have own := untouched n allocated
  refine ⟨?_, ?_, ?_, ?_, ?_⟩
  · exact fun m => (step.inodeAllocated_iff m).trans (patched.inodes m)
  · exact fun m held other => (patched.others m held other).trans (untouched m held)
  · rw [own.view, patched.kind]
  · rw [own.view, patched.size]
  · exact fun q below => (own.content q).trans (patched.contents q below)

theorem Patched.behind_quiet (step : Quiet s s') (patched : Patched n start buf s' s'')
    (owns : Owns s.sb.Allocated s.pointers) (allocated : s.sb.InodeAllocated n) :
    Patched n start buf s s'' := by
  have untouched : ∀ m, s.sb.InodeAllocated m → Untouched s s' m := fun m => step.untouched owns
  have own := untouched n allocated
  refine ⟨?_, ?_, ?_, ?_, ?_⟩
  · exact fun m => (patched.inodes m).trans (step.inodeAllocated_iff m)
  · exact fun m held other =>
      (untouched m held).trans (patched.others m ((step.inodeAllocated_iff m).mpr held) other)
  · rw [patched.kind, own.view]
  · rw [patched.size, own.view]
  · intro q below
    rw [patched.contents q below]
    unfold overlay
    rw [own.content]

theorem Patched.bytes (patched : Patched n start buf s s') (ok : FileOk s n)
    (fits : start + buf.length ≤ maxFileSize) :
    FileOk s' n ∧ s'.bytes n = patch (s.bytes n) start buf := by
  have lower := ok.lower
  have upper := ok.upper
  have size := patched.size
  have ok' : FileOk s' n := by
    refine ⟨patched.kind.trans ok.kind, ?_, ?_, fun q below past => ?_⟩
    · omega
    · omega
    · rw [patched.contents q below, overlay_outside _ _ _ _ (Or.inr (by omega))]
      exact ok.behind q below (by omega)
  refine ⟨ok', ?_⟩
  have length : (s'.bytes n).length = (patch (s.bytes n) start buf).length := by
    rw [length_patch, State.length_bytes, State.length_bytes]
    omega
  apply List.ext_getElem length
  intro q inside inside'
  have below : q < maxFileSize := by
    rw [State.length_bytes] at inside
    omega
  have same : (s'.bytes n).getD q 0 = (patch (s.bytes n) start buf).getD q 0 := by
    rw [ok'.getD_bytes q below, patched.contents q below, getD_patch]
    unfold overlay
    dsimp only
    rw [ok.getD_bytes q below]
  rw [List.getD_eq_getElem?_getD, List.getD_eq_getElem?_getD, List.getElem?_eq_getElem inside,
    List.getElem?_eq_getElem inside'] at same
  exact same

end Patched

/-- A write to file `n` that gets all the blocks it asks for. -/
def FileWritten (n start : Nat) (buf : List Byte) (s : State) (ret : Int) (s' : State) : Prop :=
  if start + buf.length ≤ maxFileSize then ret = buf.length ∧ Patched n start buf s s'
  else if start < maxFileSize then
    ret = -eFBIG ∧ Patched n start (buf.take (maxFileSize - start)) s s'
  else ret = eFBIG ∧ Quiet s s'

theorem FileWritten.quiet {s s' s'' : State} {n start : Nat} {buf : List Byte} {ret : Int}
    (written : FileWritten n start buf s ret s') (step : Quiet s' s'')
    (owns : Owns s'.sb.Allocated s'.pointers) (allocated : s.sb.InodeAllocated n) :
    FileWritten n start buf s ret s'' := by
  unfold FileWritten at written ⊢
  split_ifs at written ⊢
  · exact ⟨written.1, written.2.quiet step owns allocated⟩
  · exact ⟨written.1, written.2.quiet step owns allocated⟩
  · exact ⟨written.1, written.2.trans step⟩

theorem FileWritten.behind_quiet {s s' s'' : State} {n start : Nat} {buf : List Byte} {ret : Int}
    (step : Quiet s s') (written : FileWritten n start buf s' ret s'')
    (owns : Owns s.sb.Allocated s.pointers) (allocated : s.sb.InodeAllocated n) :
    FileWritten n start buf s ret s'' := by
  unfold FileWritten at written ⊢
  split_ifs at written ⊢
  · exact ⟨written.1, written.2.behind_quiet step owns allocated⟩
  · exact ⟨written.1, written.2.behind_quiet step owns allocated⟩
  · exact ⟨written.1, step.trans written.2⟩

section Outcomes

variable {sb : SuperBlock} {inode : Inode} {w : FileResult} {start : Nat} {buf : List Byte}

theorem WriteOutcome.spliced
    (outcome : WriteOutcome start (toInt32 buf.length) start buf sb inode w)
    (handed : w.sb.allocFailed = false) : Spliced start buf sb inode w := by
  cases outcome with
  | done spliced _ _ _ => exact spliced
  | tooBig spliced _ _ _ => exact spliced
  | failed failed =>
      rw [failed.ghost] at handed
      cases handed
  | stranded _ _ ghost _ =>
      rw [ghost] at handed
      cases handed

/-- The size of a file after a write that fits. -/
theorem WriteOutcome.size
    (outcome : WriteOutcome start (toInt32 buf.length) start buf sb inode w)
    (handed : w.sb.allocFailed = false) (upper : inode.dinode.size ≤ maxFileSize)
    (positive : 0 < buf.length) (small : buf.length < 2 ^ 31)
    (fits : start + buf.length ≤ maxFileSize) :
    w.inode.dinode.size = max inode.dinode.size (start + buf.length : Nat) := by
  cases outcome with
  | done _ _ _ size =>
      have exact : toInt32 buf.length = buf.length := toInt32_of_lt _ (by omega) (by omega)
      rw [if_pos positive, exact] at size
      rw [← size_grown inode.dinode.size start buf.length upper fits]
      exact congrArg BitVec.toInt size
  | tooBig _ _ beyond _ =>
      have last := (lastBlock_lt_iff start buf.length _ positive).mpr fits
      exact absurd last (Nat.not_lt.mpr beyond)
  | failed failed =>
      rw [failed.ghost] at handed
      cases handed
  | stranded _ _ ghost _ =>
      rw [ghost] at handed
      cases handed

/-- What a write does to an inode, it does to the file. -/
theorem WriteOutcome.fileWritten {s s' : State} {n : Nat}
    (outcome : WriteOutcome start (toInt32 buf.length) start buf s.sb inode w)
    (handed : w.sb.allocFailed = false) (rewritten : Rewritten n s s')
    (view : inode.dinode = s.view n) (own : s'.view n = w.inode.dinode)
    (dev : s'.sb.dev = w.sb.dev) (upper : inode.dinode.size ≤ maxFileSize)
    (below : start < maxFileSize) (positive : 0 < buf.length) (small : buf.length < 2 ^ 31) :
    FileWritten n start buf s w.ret s' := by
  have contract := outcome.contract upper below positive small handed
  unfold FileWritten
  split_ifs with fits
  · obtain ⟨returned, contents⟩ := contract.fits fits
    refine ⟨returned, rewritten.inodes, rewritten.others, rewritten.kind, ?_, ?_⟩
    · rw [own, ← view]
      exact outcome.size handed upper positive small fits
    · rw [own, dev, ← view]
      exact contents
  · obtain ⟨returned, contents, size⟩ := contract.crosses below (Nat.not_le.mp fits)
    refine ⟨returned, rewritten.inodes, rewritten.others, rewritten.kind, ?_, ?_⟩
    · rw [own, size, List.length_take, ← view]
      omega
    · rw [own, dev, ← view]
      exact contents

end Outcomes

theorem onInode_write_beyond (s : State) (n start : Nat) (buf : List Byte) (intact : Intact s)
    (allocated : s.sb.InodeAllocated n) (positive : 0 < buf.length)
    (beyond : 4196362 ≤ start / 8192) :
    Sat (s.onInode n fun sb inode => testfsWriteData sb inode buf start)
      (fun r => Rewritten n s r.2 ∧ FileWritten n start buf s r.1 r.2) (fun _ => True) := by
  unfold State.onInode
  cases read : s.inode n with
  | error e => trivial
  | ok inode =>
      obtain ⟨_, view, _⟩ := intact.table.of_read read
      have owned := owned_of_owns intact.owns allocated
      rw [← view] at owned
      have step := (Extends.refl (fun _ => False) intact.consistent inode).onInode
        (r := ⟨eFBIG, inode, s.sb⟩) intact.table read owned
      have rewritten := Rewritten.of_extended step intact allocated view fun _ stored => stored
      have table := step.table
      rw [view, Function.update_eq_self] at table
      have past : ¬ start < maxFileSize := by
        rw [maxFileSize_eq]
        omega
      rw [ok_bind]
      dsimp only
      rw [testfsWriteData_beyond s.sb inode buf start beyond]
      refine ⟨rewritten, ?_⟩
      unfold FileWritten
      rw [if_neg fun fits => past (by omega), if_neg past]
      exact ⟨rfl, .of_retabled intact.consistent rfl table⟩

/-- `testfs_write_data` on an inode of the table, when every block is handed out. -/
theorem onInode_fileWritten (s : State) (n start : Nat) (buf : List Byte) (intact : Intact s)
    (allocated : s.sb.InodeAllocated n) (upper : (s.view n).size ≤ maxFileSize)
    (positive : 0 < buf.length) (small : buf.length < 2 ^ 31) :
    Sat (s.onInode n fun sb inode => testfsWriteData sb inode buf start)
      (fun r => r.2.sb.allocFailed = false → Rewritten n s r.2 ∧ FileWritten n start buf s r.1 r.2)
      (fun _ => True) := by
  by_cases inside : start / 8192 < 4196362
  · apply (onInode_write_sat s n buf start intact allocated inside).anyStop.weaken
    rintro _ ⟨inode, w, read, view, _, outcome, rfl⟩ handed
    have owned := owned_of_owns intact.owns allocated
    rw [← view] at owned upper
    have below : start < maxFileSize := by
      rw [maxFileSize_eq]
      omega
    have spliced := outcome.spliced handed
    have step := spliced.ext.onInode intact.table read owned
    have rewritten := Rewritten.of_extended step intact allocated view fun _ => spliced.stored
    exact ⟨rewritten,
      outcome.fileWritten handed rewritten view (step.view_self allocated.1) rfl upper
      below positive small⟩
  · exact (onInode_write_beyond s n start buf intact allocated positive
      (Nat.not_lt.mp inside)).weaken fun _ done _ => done

end Ece344Lab.Fs
