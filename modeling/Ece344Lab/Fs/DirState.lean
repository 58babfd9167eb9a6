import Ece344Lab.Fs.Lifecycle
import Ece344Lab.Fs.Listing

set_option autoImplicit false

/- Directories as parts of a state, and writing entries into them. -/
namespace Ece344Lab.Fs

open Outcome Ownership

/-- Directory `n` has the entries `es`, and none of its bytes lies in a hole. -/
structure DirOk (s : State) (n : Nat) (es : List Dirent) : Prop where
  allocated : s.sb.InodeAllocated n
  listing : Listing s.sb (s.view n) es
  present : ∀ log, log * 8192 < direntsSize es → ∀ slot ∈ path (leaf log), s.slots n slot ≠ 0

theorem DirOk.untouched {s s' : State} {n : Nat} {es : List Dirent} (dir : DirOk s n es)
    (same : Untouched s s' n) (owns : Owns s'.sb.Allocated s'.pointers)
    (allocated : s'.sb.InodeAllocated n) : DirOk s' n es := by
  have listing := dir.listing
  refine ⟨allocated, ⟨owned_of_owns owns allocated, ?_, ?_, listing.small, listing.wf, ?_⟩, ?_⟩
  · rw [same.view]
    exact listing.kind
  · rw [same.view]
    exact listing.size
  · rw [← listing.bytes]
    exact fileBytes_congr fun q _ _ => same.content q
  · rw [same.slots]
    exact dir.present

/-- One inode has been written to; the others are as they were. -/
structure Rewritten (n : Nat) (s s' : State) : Prop where
  intact : Intact s'
  inodes : ∀ m, s'.sb.InodeAllocated m ↔ s.sb.InodeAllocated m
  others : ∀ m, s.sb.InodeAllocated m → m ≠ n → Untouched s s' m
  kind : (s'.view n).iType = (s.view n).iType
  refs : s'.refs = s.refs
  dirty : ∀ m, m ≠ n → s'.dirty m = s.dirty m
  ghost : s.sb.allocFailed = true → s'.sb.allocFailed = true
  backed : s'.sb.allocFailed = false → Backed s → Backed s'

namespace Rewritten

variable {n : Nat} {s s' s'' : State}

theorem refl (intact : Intact s) (n : Nat) : Rewritten n s s :=
  ⟨intact, fun _ => Iff.rfl, fun m _ _ => Untouched.refl s m, rfl, rfl, fun _ _ => rfl, id,
    fun _ => id⟩

theorem unfailed (step : Rewritten n s s') (now : s'.sb.allocFailed = false) :
    s.sb.allocFailed = false := by
  rw [← Bool.not_eq_true]
  intro failed
  rw [step.ghost failed] at now
  cases now

theorem trans (first : Rewritten n s s') (second : Rewritten n s' s'') : Rewritten n s s'' where
  intact := second.intact
  inodes m := (second.inodes m).trans (first.inodes m)
  others m allocated other := (first.others m allocated other).trans
    (second.others m ((first.inodes m).mpr allocated) other)
  kind := second.kind.trans first.kind
  refs := second.refs.trans first.refs
  dirty m other := (second.dirty m other).trans (first.dirty m other)
  ghost failed := second.ghost (first.ghost failed)
  backed now before := second.backed now (first.backed (second.unfailed now) before)

theorem of_extended {p : Slot → Prop} {inode inode' : Inode}
    (step : Extended p n inode s inode' s') (intact : Intact s)
    (allocated : s.sb.InodeAllocated n) (view : inode.dinode = s.view n)
    (stored : s'.sb.allocFailed = false → Stored s.sb.dev inode.dinode →
      Stored s'.sb.dev inode'.dinode) : Rewritten n s s' where
  intact := step.intact intact allocated view
  inodes := step.allocated_iff
  others m allocated' other := step.untouched intact.owns allocated view allocated' other
  kind := by
    rw [step.view_self allocated.1, ← view]
    exact step.ext.kind
  refs := funext step.table.refs
  dirty m other := by
    rw [step.table.dirty, Function.update_of_ne other]
  ghost := step.ext.ghost
  backed unfailed := step.backed intact allocated view (stored unfailed)

theorem dirOk (step : Rewritten n s s') {m : Nat} {es : List Dirent} (dir : DirOk s m es)
    (other : m ≠ n) : DirOk s' m es :=
  dir.untouched (step.others m dir.allocated other) step.intact.owns
    ((step.inodes m).mpr dir.allocated)

end Rewritten

/-- A quiet step that leaves the references alone and the dirty flags of the other inodes. -/
theorem Shuffled.rewritten {s s' : State} {n : Nat} {flag : Bool}
    (step : Shuffled s s' s.refs (Function.update s.dirty n flag)) (intact : Intact s)
    (inside : n < 16384) : Rewritten n s s' where
  intact := step.quiet.intact intact
  inodes := step.quiet.inodeAllocated_iff
  others m allocated _ := step.quiet.untouched intact.owns allocated
  kind := by rw [step.quiet.view n inside]
  refs := step.refs
  dirty m other := by rw [step.dirty, Function.update_of_ne other]
  ghost failed := step.quiet.ghost.trans failed
  backed _ := step.quiet.backed

/-- Inode `n` is in memory, and its blocks are inside the image. -/
structure State.Readable (s : State) (n : Nat) : Prop where
  inTable : 0 < s.refs n
  stored : Stored s.sb.dev (s.view n)

/-- A write to an inode of the table, in terms of its outcome. -/
theorem onInode_write_sat (s : State) (n : Nat) (buf : List Byte) (pos : Nat) (intact : Intact s)
    (allocated : s.sb.InodeAllocated n) (inside : pos / 8192 < 4196362) :
    Sat (s.onInode n fun sb inode => testfsWriteData sb inode buf pos)
      (fun r => ∃ inode w, s.inode n = .ok inode ∧ inode.dinode = s.view n ∧
        inode.dirty = s.dirty n ∧ WriteOutcome pos (toInt32 buf.length) pos buf s.sb inode w ∧
        r = (w.ret, { s with sb := w.sb }.update w.inode))
      (fun _ => ¬ s.Readable n) := by
  unfold State.onInode
  cases read : s.inode n with
  | error e =>
      intro readable
      obtain ⟨_, _, read', _⟩ := intact.table.inode_eq readable.inTable
      rw [read] at read'
      cases read'
  | ok inode =>
      obtain ⟨_, view, dirty, _⟩ := intact.table.of_read read
      have owned := owned_of_owns intact.owns allocated
      rw [← view] at owned
      apply Sat.bind ((testfsWriteData_sat s.sb inode buf pos intact.consistent owned
        inside).mono (fun _ spec => spec) fun _ stop readable => stop.2 (view ▸ readable.stored))
      exact fun w outcome => ⟨inode, w, rfl, view, dirty, outcome, rfl⟩

section Write

variable {p : Slot → Prop} {s s' : State} {n : Nat} {inode inode' : Inode} {es : List Dirent}

theorem DirOk.still_present (dir : DirOk s n es) (step : Extended p n inode s inode' s')
    (intact : Intact s) (view : inode.dinode = s.view n) (log : Nat)
    (inside : log * 8192 < direntsSize es) : ∀ slot ∈ path (leaf log), s'.slots n slot ≠ 0 := by
  intro slot member
  have before := dir.present log inside slot member
  exact (step.grows intact.owns dir.allocated view).of_ne_zero (i := (n, slot)) before

theorem DirOk.same (dir : DirOk s n es) (step : Extended p n inode s inode' s')
    (intact : Intact s) (view : inode.dinode = s.view n)
    (size : inode'.dinode.iSize = inode.dinode.iSize)
    (contents : ∀ q, q < direntsSize es →
      content s'.sb.dev inode'.dinode q = content s.sb.dev inode.dinode q) : DirOk s' n es := by
  have allocated := (step.allocated_iff n).mpr dir.allocated
  have listing := dir.listing
  have view' := step.view_self dir.allocated.1
  have intact' := step.intact intact dir.allocated view
  refine ⟨allocated, ⟨owned_of_owns intact'.owns allocated, ?_, ?_, listing.small, listing.wf, ?_⟩,
    fun log inside => dir.still_present step intact view log inside⟩
  · rw [view', step.ext.kind, view]
    exact listing.kind
  · rw [view', Dinode.size, size, view]
    exact listing.size
  · rw [view', ← listing.bytes, ← view]
    exact fileBytes_congr fun q _ below => contents q (by omega)

theorem DirOk.changed {es' : List Dirent} (dir : DirOk s n es)
    (step : Extended p n inode s inode' s') (intact : Intact s) (view : inode.dinode = s.view n)
    (size : inode'.dinode.size = direntsSize es') (small : direntsSize es' < 2 ^ 32)
    (wf : ∀ d ∈ es', d.Wf) (bytes : fileBytes s'.sb.dev inode'.dinode 0 (direntsSize es') =
      direntsBytes es')
    (reach : ∀ log, log * 8192 < direntsSize es' → log * 8192 < direntsSize es ∨
      ∀ slot ∈ path (leaf log), ptr s'.sb.dev inode'.dinode slot ≠ 0) : DirOk s' n es' := by
  have allocated := (step.allocated_iff n).mpr dir.allocated
  have view' := step.view_self dir.allocated.1
  have intact' := step.intact intact dir.allocated view
  refine ⟨allocated, ⟨owned_of_owns intact'.owns allocated, ?_, ?_, small, wf, ?_⟩, ?_⟩
  · rw [view', step.ext.kind, view]
    exact dir.listing.kind
  · rw [view', size]
  · rw [view', bytes]
  · intro log inside
    cases reach log inside with
    | inl before => exact dir.still_present step intact view log before
    | inr new =>
        rw [State.slots_eq allocated, view']
        exact new

end Write

theorem map_getD_range (b : List Byte) : (List.range b.length).map (fun i => b.getD i 0) = b := by
  apply List.ext_getElem
  · simp
  · intro i inside inside'
    simp [List.getD_eq_getElem?_getD, inside']

/-- The bytes of a file into which `b` has been copied over `old`. -/
theorem fileBytes_overlay {dev dev' : Device} {d d' : Dinode} (a old b c : List Byte)
    (bytes : fileBytes dev d 0 (a ++ old ++ c).length = a ++ old ++ c)
    (same : old.length = b.length)
    (contents : ∀ q, q < a.length + b.length + c.length →
      content dev' d' q = overlay (content dev d) a.length b q) :
    fileBytes dev' d' 0 (a ++ b ++ c).length = a ++ b ++ c := by
  have before := bytes
  rw [List.length_append, List.length_append, fileBytes_add, fileBytes_add] at before
  have front := List.append_inj_left before (by simp)
  have last := List.append_inj_right before (by simp)
  have first := List.append_inj_left front (by simp)
  have left : fileBytes dev' d' 0 a.length = a := by
    refine (fileBytes_congr fun q _ below => ?_).trans first
    rw [contents q (by omega), overlay_outside _ _ _ _ (by omega)]
  have middle : fileBytes dev' d' (0 + a.length) b.length = b := by
    refine Eq.trans (List.map_congr_left fun i member => ?_) (map_getD_range b)
    have below := List.mem_range.mp member
    rw [contents _ (by omega), overlay, if_pos (by omega)]
    congr 1
    omega
  have right : fileBytes dev' d' (0 + (a.length + b.length)) c.length = c := by
    rw [← same]
    refine (fileBytes_congr fun q lower below => ?_).trans last
    rw [contents q (by omega), overlay_outside _ _ _ _ (by omega)]
  rw [List.length_append, List.length_append, fileBytes_add, fileBytes_add, left, middle, right]

theorem toInt32_small (n : Nat) (small : n < 2 ^ 31) : toInt32 n = n := by
  apply Int.bmod_eq_of_le <;> omega

theorem lastBlock_lt (pos size bound : Nat) (inside : pos + size ≤ bound * 8192)
    (positive : 0 < size) : lastBlock pos size < bound := by
  unfold lastBlock
  omega

theorem le_lastBlock_of_lt (pos size log : Nat) (inside : log * 8192 < pos + size) :
    log ≤ lastBlock pos size := by
  unfold lastBlock
  omega

theorem block_in_range (q : Nat) (small : q < 2 ^ 32) : q / 8192 < 4196362 := by
  omega

theorem block_before (pos log : Nat) (lower : log < pos / 8192) : log * 8192 < pos := by
  omega

theorem lastBlock_before (pos size bound : Nat) (inside : pos + size ≤ bound)
    (positive : 0 < size) :
    lastBlock pos size * 8192 < bound := by
  unfold lastBlock
  omega

theorem size_same (old : Int) (start len : Nat) (inside : (start + len : Nat) ≤ old)
    (small : old < 2 ^ 32) : (BitVec.ofInt 64 (max old (start + len))).toInt = old := by
  have same : max old ((start : Int) + len) = old := by omega
  rw [same, BitVec.toInt_ofInt]
  apply Int.bmod_eq_of_le <;> omega

/-- No block of a range within a directory is missing. -/
theorem DirOk.filled {s : State} {n pos size : Nat} {es : List Dirent} (dir : DirOk s n es)
    (inside : pos + size ≤ direntsSize es) (positive : 0 < size) (slot : Slot)
    (span : Span (pos / 8192) (lastBlock pos size) slot) : s.slots n slot ≠ 0 := by
  obtain ⟨log, _, upper, _, member⟩ := span
  have final := lastBlock_before pos size _ inside positive
  apply dir.present log _ slot member
  exact Nat.lt_of_le_of_lt (Nat.mul_le_mul_right 8192 upper) final

/-- Rewriting an entry with one of the same length needs no block and keeps the size. -/
theorem dir_overwrite (s : State) (n : Nat) (before after : List Dirent) (d d' : Dirent)
    (intact : Intact s) (dir : DirOk s n (before ++ d :: after)) (wf : d'.Wf)
    (length : d'.name.length = d.name.length) :
    Sat (s.onInode n fun sb inode => testfsWriteData sb inode d'.bytes (direntsSize before : Nat))
      (fun r => r.1 = (8 + d.name.length : Nat) ∧ Rewritten n s r.2 ∧
        DirOk r.2 n (before ++ d' :: after) ∧ r.2.dirty n = true ∧ r.2.sb.free = s.sb.free ∧
        r.2.sb.allocFailed = s.sb.allocFailed)
      (fun _ => ¬ s.Readable n) := by
  have listing := dir.listing
  have small := listing.small
  have room := wf.small
  have whole : direntsSize (before ++ d :: after) =
      direntsSize before + (8 + d.name.length) + direntsSize after := by
    rw [direntsSize_append, direntsSize_cons]
    omega
  have whole' : direntsSize (before ++ d' :: after) = direntsSize (before ++ d :: after) := by
    rw [direntsSize_append, direntsSize_append, direntsSize_cons, direntsSize_cons, length]
  have size : d'.bytes.length = 8 + d.name.length := by rw [Dirent.length_bytes, length]
  have fits : direntsSize before + d'.bytes.length ≤ direntsSize (before ++ d :: after) := by omega
  have total : direntsSize before + d'.bytes.length + direntsSize after < 2 ^ 32 := by omega
  have positive : 0 < d'.bytes.length := by omega
  have inside := block_in_range (direntsSize before) (by omega)
  have last := lastBlock_lt (direntsSize before) d'.bytes.length 4196362 (by omega) positive
  have filled := dir.filled fits positive
  rw [State.slots_eq dir.allocated] at filled
  apply (onInode_write_sat s n d'.bytes _ intact dir.allocated inside).weaken
  intro r spec
  obtain ⟨inode, w, read, view, _, outcome, same⟩ := spec
  rw [← view] at filled
  have owned := owned_of_owns intact.owns dir.allocated
  rw [← view] at owned
  have none := missing_filled filled
  rw [same]
  rcases outcome with ⟨spliced, ret, _, size'⟩ | ⟨_, _, beyond, _⟩ | failed | ⟨strands, _, _, _⟩
  · have step := spliced.ext.onInode intact.table read owned
    have exact : toInt32 d'.bytes.length = d'.bytes.length :=
      toInt32_small _ (by rw [Dirent.length_bytes]; exact room)
    have old : inode.dinode.size = direntsSize (before ++ d :: after) := by
      rw [view, listing.size]
    have free := spliced.free
    refine ⟨?_, .of_extended step intact dir.allocated view fun _ => spliced.stored, ?_, ?_, ?_,
      spliced.ghost⟩
    · rw [ret, exact, size]
    · apply dir.changed step intact view
      · rw [whole', Dinode.size, size', if_pos positive, exact, old]
        exact size_same _ _ _ (Int.ofNat_le.mpr fits) (by exact_mod_cast small)
      · rw [whole']
        exact small
      · intro e member
        rw [List.mem_append, List.mem_cons] at member
        rcases member with early | here | late
        · exact listing.wf e (by simp [early])
        · exact here ▸ wf
        · exact listing.wf e (by simp [late])
      · have bytes := listing.bytes
        have shape : ∀ e : Dirent, direntsBytes (before ++ e :: after) =
            direntsBytes before ++ e.bytes ++ direntsBytes after := by
          intro e
          simp
        rw [← view, direntsSize, shape] at bytes
        rw [direntsSize, shape]
        apply fileBytes_overlay _ d.bytes _ _ bytes (by rw [size, Dirent.length_bytes])
        exact fun q below => spliced.contents q (block_in_range q (below.trans total))
      · intro log below
        rw [whole'] at below
        exact Or.inl below
    · rw [step.table.dirty, Function.update_self]
      exact spliced.dirty
    · change w.sb.free = s.sb.free
      omega
  · exact absurd last (Nat.not_lt.mpr beyond)
  · obtain ⟨slot, span, null⟩ := failed.null
    exact absurd null (filled slot span)
  · -- a write that strands an indirect block lacks one
    have short := strands.short s.sb.dev (le_lastBlock _ _)
    omega

/-- How many blocks it takes to write `size` bytes at `pos` into an inode. -/
def State.need (s : State) (n pos size : Nat) : Nat :=
  missing s.sb.dev (s.view n) (pos / 8192) (lastBlock pos size)

/-- A write of `size` bytes at the end of directory `n` ran out of blocks; the inode is dirty
afterwards only if it was before or has received blocks. -/
structure Starved (n pos size : Nat) (s s' : State) : Prop where
  ghost : s'.sb.allocFailed = true
  short : s.sb.free < s.need n pos size
  dirty : s'.dirty n = true → s.dirty n = true ∨ 1 ≤ s.sb.free

/-- Writing `size` bytes at `pos` with `free` blocks left would strand an indirect block. -/
def StrandsAt (s : State) (free n pos size : Nat) : Prop :=
  Strands free (s.view n) (pos / 8192) (lastBlock pos size)

/-- Running out of blocks leaves the entries as they are. -/
theorem DirOk.starved {s : State} {n : Nat} {es : List Dirent} {inode : Inode} {buf : List Byte}
    {w : FileResult} (dir : DirOk s n es) (intact : Intact s) (read : s.inode n = .ok inode)
    (view : inode.dinode = s.view n) (dirty : inode.dirty = s.dirty n)
    (failed : Failed (direntsSize es) buf s.sb inode w) :
    Rewritten n s ({ s with sb := w.sb }.update w.inode) ∧
      DirOk ({ s with sb := w.sb }.update w.inode) n es ∧
      Starved n (direntsSize es) buf.length s ({ s with sb := w.sb }.update w.inode) := by
  have owned := owned_of_owns intact.owns dir.allocated
  rw [← view] at owned
  have small := dir.listing.small
  have step := (failed.ext intact.zeros).onInode intact.table read owned
  have short := failed.short
  rw [view] at short
  have full := failed.ghost
  refine ⟨.of_extended step intact dir.allocated view fun unfailed => ?_, ?_,
    failed.ghost, short, ?_⟩
  · change w.sb.allocFailed = false at unfailed
    rw [full] at unfailed
    cases unfailed
  · apply dir.same step intact view failed.size
    exact fun q below => failed.contents intact.zeros q (block_in_range q (below.trans small))
      (Or.inl below)
  · intro flag
    by_cases none : s.sb.free = 0
    · have same := failed.idle none
      rw [step.table.dirty, Function.update_self, same, dirty] at flag
      exact Or.inl flag
    · exact Or.inr (Nat.one_le_iff_ne_zero.mpr none)

/-- An indirect block of inode `n` has been stranded. -/
def StrandedAt (n pos size : Nat) (s s' : State) : Prop :=
  StrandsAt s s.sb.free n pos size ∧ s'.sb.allocFailed = true

/-- A new entry at the end of a directory: it is there, or the disk was full. -/
theorem dir_append (s : State) (n : Nat) (es : List Dirent) (d : Dirent) (intact : Intact s)
    (dir : DirOk s n es) (wf : d.Wf) (start : direntsSize es < 2 ^ 31) :
    Sat (s.onInode n fun sb inode => testfsWriteData sb inode d.bytes (direntsSize es : Nat))
      (fun r => (r.1 < 0 ∧ StrandedAt n (direntsSize es) d.bytes.length s r.2) ∨
        Rewritten n s r.2 ∧
        ((r.1 = (8 + d.name.length : Nat) ∧ DirOk r.2 n (es ++ [d]) ∧ r.2.dirty n = true ∧
          r.2.sb.free + s.need n (direntsSize es) d.bytes.length = s.sb.free ∧
          r.2.sb.allocFailed = s.sb.allocFailed) ∨
        (r.1 < 0 ∧ DirOk r.2 n es ∧ Starved n (direntsSize es) d.bytes.length s r.2)))
      (fun _ => ¬ s.Readable n) := by
  have listing := dir.listing
  have room := wf.small
  have size : d.bytes.length = 8 + d.name.length := Dirent.length_bytes d
  have positive : 0 < d.bytes.length := by omega
  have whole : direntsSize (es ++ [d]) = direntsSize es + d.bytes.length := by
    rw [direntsSize_append, direntsSize_cons, size]
    rfl
  have total : direntsSize es + d.bytes.length < 2 ^ 32 := by omega
  have inside := block_in_range (direntsSize es) (by omega)
  have last := lastBlock_lt (direntsSize es) d.bytes.length 4196362 (by omega) positive
  apply (onInode_write_sat s n d.bytes _ intact dir.allocated inside).weaken
  intro r spec
  obtain ⟨inode, w, read, view, dirty, outcome, same⟩ := spec
  have owned := owned_of_owns intact.owns dir.allocated
  rw [← view] at owned
  rw [same]
  rcases outcome with ⟨spliced, ret, _, size'⟩ | ⟨_, _, beyond, _⟩ | failed | ⟨strands,
    ret, ghost, _⟩
  · have step := spliced.ext.onInode intact.table read owned
    have exact : toInt32 d.bytes.length = d.bytes.length :=
      toInt32_small _ (by rw [size]; exact room)
    have old : inode.dinode.size = direntsSize es := by rw [view, listing.size]
    refine Or.inr ⟨.of_extended step intact dir.allocated view fun _ => spliced.stored,
      Or.inl ⟨?_, ?_, ?_, ?_, spliced.ghost⟩⟩
    · rw [ret, exact, size]
    · apply dir.changed step intact view
      · have grown := size_grown (direntsSize es) (direntsSize es) d.bytes.length (by omega)
          (by omega)
        rw [whole, Dinode.size, size', if_pos positive, exact, old, grown]
        exact max_eq_right (Int.ofNat_le.mpr (Nat.le_add_right _ _))
      · rw [whole]
        exact total
      · intro e member
        cases List.mem_append.mp member with
        | inl early => exact listing.wf e early
        | inr here => exact (List.mem_singleton.mp here) ▸ wf
      · -- the bytes behind the old end are overwritten, whatever they were
        have bytes := listing.bytes
        rw [← view] at bytes
        have before : fileBytes s.sb.dev inode.dinode 0 (direntsBytes es ++ fileBytes s.sb.dev
            inode.dinode (direntsSize es) d.bytes.length ++ []).length = direntsBytes es ++
              fileBytes s.sb.dev inode.dinode (direntsSize es) d.bytes.length ++ [] := by
          rw [List.append_nil, List.length_append, length_fileBytes, fileBytes_add, Nat.zero_add]
          exact congrArg (· ++ _) bytes
        have after := fileBytes_overlay _ _ d.bytes [] before (length_fileBytes _ _ _ _)
          fun q below => spliced.contents q (block_in_range q (below.trans total))
        rw [List.append_nil] at after
        rw [direntsSize, direntsBytes_append, direntsBytes_cons, direntsBytes_nil, List.append_nil]
        exact after
      · intro log below
        rw [whole] at below
        by_cases early : log < direntsSize es / 8192
        · exact Or.inl (block_before _ _ early)
        · have upper := le_lastBlock_of_lt _ _ _ below
          have bound := Nat.lt_of_le_of_lt upper last
          exact Or.inr fun slot member =>
            spliced.present slot (Span.block (Nat.not_lt.mp early) upper bound member)
    · rw [step.table.dirty, Function.update_self]
      exact spliced.dirty
    · unfold State.need
      rw [← view]
      exact spliced.free
  · exact absurd last (Nat.not_lt.mpr beyond)
  · obtain ⟨rewritten, dir', starved⟩ := dir.starved intact read view dirty failed
    exact Or.inr ⟨rewritten, Or.inr ⟨failed.ret, dir', starved⟩⟩
  · rw [view] at strands
    exact Or.inl ⟨ret, strands, ghost⟩

theorem size_kept (old : BitVec 64) (start len : Nat) (size : old.toInt = start)
    (lower : 2 ^ 31 ≤ len) (upper : len < 2 ^ 31 + 8) :
    toInt32 len < 0 ∧ BitVec.ofInt 64 (max old.toInt (start + toInt32 len)) = old := by
  have shifted : toInt32 len = Int.bmod ((len : Int) - 4294967296) 4294967296 := by
    have wraps := Int.sub_bmod_right (len : Int) 4294967296
    exact wraps.symm
  have value : toInt32 len = (len : Int) - 4294967296 := by
    rw [shifted]
    apply Int.bmod_eq_of_le <;> omega
  rw [value]
  refine ⟨by omega, ?_⟩
  rw [max_eq_left (by omega)]
  exact BitVec.ofInt_toInt

/-- An entry so long that its size does not fit an `int`: the bytes are written behind the end of
the directory, and the caller is told that the write failed. -/
theorem dir_append_giant (s : State) (n : Nat) (es : List Dirent) (buf : List Byte)
    (intact : Intact s) (dir : DirOk s n es) (lower : 2 ^ 31 ≤ buf.length)
    (upper : buf.length < 2 ^ 31 + 8) (start : direntsSize es < 2 ^ 31) :
    Sat (s.onInode n fun sb inode => testfsWriteData sb inode buf (direntsSize es : Nat))
      (fun r => (r.1 < 0 ∧ StrandedAt n (direntsSize es) buf.length s r.2) ∨
        Rewritten n s r.2 ∧ r.1 < 0 ∧ DirOk r.2 n es ∧
        (s.need n (direntsSize es) buf.length ≤ s.sb.free ∧
          r.2.sb.allocFailed = s.sb.allocFailed ∨
        Starved n (direntsSize es) buf.length s r.2))
      (fun _ => ¬ s.Readable n) := by
  have listing := dir.listing
  have positive : 0 < buf.length := by omega
  have inside := block_in_range (direntsSize es) (by omega)
  have last := lastBlock_lt (direntsSize es) buf.length 4196362 (by omega) positive
  apply (onInode_write_sat s n buf _ intact dir.allocated inside).weaken
  intro r spec
  obtain ⟨inode, w, read, view, dirty, outcome, same⟩ := spec
  have owned := owned_of_owns intact.owns dir.allocated
  rw [← view] at owned
  rw [same]
  rcases outcome with ⟨spliced, ret, _, size⟩ | ⟨_, _, beyond, _⟩ | failed | ⟨strands,
    ret, ghost, _⟩
  · have step := spliced.ext.onInode intact.table read owned
    have old : inode.dinode.size = direntsSize es := by rw [view, listing.size]
    obtain ⟨negative, kept⟩ := size_kept inode.dinode.iSize _ buf.length old lower upper
    have free := spliced.free
    refine Or.inr ⟨.of_extended step intact dir.allocated view fun _ => spliced.stored, ?_, ?_,
      Or.inl ⟨?_, spliced.ghost⟩⟩
    · change w.ret < 0
      rw [ret]
      exact negative
    · apply dir.same step intact view
      · rw [size, if_pos positive]
        exact kept
      · intro q below
        rw [← overlay_outside (content s.sb.dev inode.dinode) (direntsSize es) buf q (Or.inl below)]
        exact spliced.contents q (block_in_range q (below.trans listing.small))
    · unfold State.need
      rw [← view]
      omega
  · exact absurd last (Nat.not_lt.mpr beyond)
  · obtain ⟨rewritten, dir', starved⟩ := dir.starved intact read view dirty failed
    exact Or.inr ⟨rewritten, failed.ret, dir', Or.inr starved⟩
  · rw [view] at strands
    exact Or.inl ⟨ret, strands, ghost⟩

end Ece344Lab.Fs
