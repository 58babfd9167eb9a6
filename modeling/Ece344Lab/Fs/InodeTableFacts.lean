import Ece344Lab.Fs.InodeTable
import Ece344Lab.Fs.SuperFacts
import Ece344Lab.Lib.Keyed

set_option autoImplicit false

/- The inode hash table as a cache of the inode blocks. -/
namespace Ece344Lab.Fs

open Outcome Keyed

/-- The 64-byte slot of an inode on the device. -/
def diskInode (dev : Device) (n : Nat) : Dinode :=
  Dinode.ofBytes ((dev.block (18 + n / 128)).slice (n % 128 * 64) 64)

theorem diskInode_congr {dev dev' : Device} {n : Nat}
    (same : dev'.block (18 + n / 128) = dev.block (18 + n / 128)) :
    diskInode dev' n = diskInode dev n := by
  rw [diskInode, same, diskInode]

namespace State

/-- The contents of an inode: the one in memory, or else the one on the device. -/
def view (s : State) (n : Nat) : Dinode :=
  match inodeHashFind s.inodes n with
  | some inode => inode.dinode
  | none => diskInode s.sb.dev n

def refs (s : State) (n : Nat) : Nat :=
  match inodeHashFind s.inodes n with
  | some inode => inode.iCount
  | none => 0

def dirty (s : State) (n : Nat) : Bool :=
  match inodeHashFind s.inodes n with
  | some inode => inode.dirty
  | none => false

end State

/-- The hash table holds each inode once, only while it is referenced, and what is not marked
dirty is what the device has. -/
structure TableOk (s : State) : Prop where
  distinct : (s.inodes.map Inode.iNr).Nodup
  counted : ∀ n inode, inodeHashFind s.inodes n = some inode → 0 < inode.iCount
  range : ∀ n inode, inodeHashFind s.inodes n = some inode → n < 16384
  clean : ∀ n inode, inodeHashFind s.inodes n = some inode → inode.dirty = false →
    inode.dinode = diskInode s.sb.dev n

theorem find_number {inodes : List Inode} {n : Nat} {inode : Inode}
    (found : inodeHashFind inodes n = some inode) : inode.iNr = n :=
  lookup_key found

theorem find_update_same (inodes : List Inode) (inode : Inode) (n : Nat) (number : inode.iNr = n)
    (present : inodeHashFind inodes n ≠ none) :
    inodeHashFind (inodeHashUpdate inodes inode) n = some inode := by
  subst number
  apply lookup_replace_same
  by_contra absent
  exact present (lookup_eq_none.mpr absent)

theorem find_update_of_ne (inodes : List Inode) (inode : Inode) (n : Nat) (other : n ≠ inode.iNr) :
    inodeHashFind (inodeHashUpdate inodes inode) n = inodeHashFind inodes n :=
  lookup_replace_of_ne inodes inode n other

theorem nodup_update {inodes : List Inode} (distinct : (inodes.map Inode.iNr).Nodup)
    (inode : Inode) : ((inodeHashUpdate inodes inode).map Inode.iNr).Nodup :=
  nodup_replace distinct inode

namespace TableOk

variable {s : State}

theorem inode_eq (_ok : TableOk s) {n : Nat} (held : 0 < s.refs n) :
    ∃ inode, inodeHashFind s.inodes n = some inode ∧ s.inode n = .ok inode ∧
      inode.dinode = s.view n ∧ inode.dirty = s.dirty n ∧ inode.iNr = n ∧
      inode.iCount = s.refs n := by
  unfold State.refs at held ⊢
  unfold State.inode State.view State.dirty
  cases found : inodeHashFind s.inodes n with
  | none =>
      rw [found] at held
      exact absurd held (Nat.lt_irrefl 0)
  | some inode => exact ⟨inode, rfl, rfl, rfl, rfl, find_number found, rfl⟩

theorem refs_pos (ok : TableOk s) {n : Nat} {inode : Inode} (found : s.inode n = .ok inode) :
    0 < s.refs n := by
  unfold State.inode at found
  unfold State.refs
  cases present : inodeHashFind s.inodes n with
  | none =>
      rw [present] at found
      cases found
  | some other => exact ok.counted n other present

theorem of_read (ok : TableOk s) {n : Nat} {inode : Inode} (read : s.inode n = .ok inode) :
    inodeHashFind s.inodes n = some inode ∧ inode.dinode = s.view n ∧ inode.dirty = s.dirty n ∧
      inode.iNr = n ∧ inode.iCount = s.refs n := by
  obtain ⟨other, found, read', same⟩ := ok.inode_eq (ok.refs_pos read)
  obtain rfl : inode = other := Except.ok.inj (read.symm.trans read')
  exact ⟨found, same⟩

theorem find_none (ok : TableOk s) {n : Nat} (free : s.refs n = 0) :
    inodeHashFind s.inodes n = none := by
  unfold State.refs at free
  cases found : inodeHashFind s.inodes n with
  | none => rfl
  | some inode =>
      rw [found] at free
      have := ok.counted n inode found
      change inode.iCount = 0 at free
      omega

theorem in_range (ok : TableOk s) {n : Nat} (held : 0 < s.refs n) : n < 16384 := by
  obtain ⟨inode, found, _⟩ := ok.inode_eq held
  exact ok.range n inode found

theorem not_dirty (ok : TableOk s) {n : Nat} (clean : s.dirty n = false) :
    s.view n = diskInode s.sb.dev n := by
  unfold State.dirty at clean
  unfold State.view
  cases found : inodeHashFind s.inodes n with
  | none => rfl
  | some inode =>
      rw [found] at clean
      exact ok.clean n inode found clean

end TableOk

/-- What a step did to the table, in terms of contents, references and dirty flags. -/
structure Retabled (s s' : State) (view : Nat → Dinode) (refs : Nat → Nat) (dirty : Nat → Bool) :
    Prop where
  ok : TableOk s'
  view : ∀ n < 16384, s'.view n = view n
  refs : ∀ n, s'.refs n = refs n
  dirty : ∀ n, s'.dirty n = dirty n
  stdout : s'.stdout = s.stdout

theorem testfsInodeToBlockNr_eq (n : Nat) (inside : n < 16384) :
    testfsInodeToBlockNr n = .ok (n / 128) := by
  have below : n / 128 < 128 := by omega
  unfold testfsInodeToBlockNr
  change (cAssert (n / 128 < 128) >>= fun _ => .ok (n / 128)) = _
  rw [cAssert_pos below]
  rfl

theorem testfsReadInodeBlock_eq (sb : SuperBlock) (ok : Consistent sb) (n : Nat)
    (inside : n < 16384) :
    testfsReadInodeBlock sb n = .ok (sb.dev.block (18 + n / 128)) := by
  have image := ok.image
  unfold testfsReadInodeBlock
  rw [testfsInodeToBlockNr_eq n inside, ok_bind, ok.layout.inodeBlocks,
    readBlocks_of_lt _ _ (by omega)]

theorem Retabled.of_set {s : State} (s' : State) (table : TableOk s) {n : Nat} {inode : Inode}
    (distinct : (s'.inodes.map Inode.iNr).Nodup) (here : inodeHashFind s'.inodes n = some inode)
    (there : ∀ m, m ≠ n → inodeHashFind s'.inodes m = inodeHashFind s.inodes m)
    (slots : ∀ m < 16384, m ≠ n → diskInode s'.sb.dev m = diskInode s.sb.dev m)
    (positive : 0 < inode.iCount) (inside : n < 16384)
    (clean : inode.dirty = false → inode.dinode = diskInode s'.sb.dev n)
    (stdout : s'.stdout = s.stdout) :
    Retabled s s' (Function.update s.view n inode.dinode)
      (Function.update s.refs n inode.iCount) (Function.update s.dirty n inode.dirty) := by
  refine ⟨⟨distinct, ?_, ?_, ?_⟩, ?_, ?_, ?_, stdout⟩
  · intro m other found
    by_cases same : m = n
    · subst same
      obtain rfl := Option.some.inj (here.symm.trans found)
      exact positive
    · exact table.counted m other ((there m same).symm.trans found)
  · intro m other found
    by_cases same : m = n
    · exact same ▸ inside
    · exact table.range m other ((there m same).symm.trans found)
  · intro m other found
    by_cases same : m = n
    · subst same
      obtain rfl := Option.some.inj (here.symm.trans found)
      exact clean
    · have before := (there m same).symm.trans found
      rw [slots m (table.range m other before) same]
      exact table.clean m other before
  · intro m small
    by_cases same : m = n
    · subst same
      simp [State.view, here]
    · simp only [State.view, there m same, Function.update_of_ne same]
      cases inodeHashFind s.inodes m with
      | none => exact slots m small same
      | some _ => rfl
  · intro m
    by_cases same : m = n
    · subst same
      simp [State.refs, here]
    · simp [State.refs, there m same, same]
  · intro m
    by_cases same : m = n
    · subst same
      simp [State.dirty, here]
    · simp [State.dirty, there m same, same]

theorem Retabled.of_update {s : State} (s' : State) (table : TableOk s) {n : Nat}
    (inode : Inode) {old : Inode} (entries : s'.inodes = inodeHashUpdate s.inodes inode)
    (number : inode.iNr = n) (found : inodeHashFind s.inodes n = some old)
    (slots : ∀ m < 16384, m ≠ n → diskInode s'.sb.dev m = diskInode s.sb.dev m)
    (positive : 0 < inode.iCount) (inside : n < 16384)
    (clean : inode.dirty = false → inode.dinode = diskInode s'.sb.dev n)
    (stdout : s'.stdout = s.stdout) :
    Retabled s s' (Function.update s.view n inode.dinode)
      (Function.update s.refs n inode.iCount) (Function.update s.dirty n inode.dirty) := by
  refine Retabled.of_set s' table ?_ ?_ ?_ slots positive inside clean stdout
  · rw [entries]
    exact nodup_update table.distinct inode
  · rw [entries]
    exact find_update_same s.inodes inode n number (by rw [found]; exact Option.some_ne_none _)
  · intro m other
    rw [entries]
    exact find_update_of_ne s.inodes inode m (number ▸ other)

theorem Retabled.congr {s s' : State} {view view' : Nat → Dinode} {refs refs' : Nat → Nat}
    {dirty dirty' : Nat → Bool} (step : Retabled s s' view refs dirty)
    (views : ∀ n < 16384, view n = view' n) (counts : ∀ n, refs n = refs' n)
    (flags : ∀ n, dirty n = dirty' n) : Retabled s s' view' refs' dirty' :=
  ⟨step.ok, fun n inside => (step.view n inside).trans (views n inside),
    fun n => (step.refs n).trans (counts n), fun n => (step.dirty n).trans (flags n), step.stdout⟩

theorem update_same {α : Type} (f : Nat → α) (n m : Nat) (a : α) (same : a = f n) :
    Function.update f n a m = f m := by
  rw [same, Function.update_eq_self]

/-- `testfs_get_inode` adds a reference and changes nothing else. -/
theorem testfsGetInode_eq (s : State) (ok : Consistent s.sb) (table : TableOk s) (n : Nat)
    (inside : n < 16384) :
    ∃ s', testfsGetInode s n = .ok s' ∧ s'.sb = s.sb ∧
      Retabled s s' s.view (Function.update s.refs n (s.refs n + 1)) s.dirty := by
  unfold testfsGetInode
  cases found : inodeHashFind s.inodes n with
  | some inode =>
      let held : Inode := { inode with iCount := inode.iCount + 1 }
      have number : inode.iNr = n := find_number found
      refine ⟨s.update held, rfl, rfl, ?_⟩
      refine (Retabled.of_update (s.update held) table held rfl number found (fun _ _ _ => rfl)
        (Nat.succ_pos _) inside (table.clean n inode found) rfl).congr ?_ ?_ ?_
      · exact fun m _ => update_same _ _ _ _ (by simp [State.view, found, held])
      · intro m
        simp [State.refs, found, held]
      · exact fun m => update_same _ _ _ _ (by simp [State.dirty, found, held])
  | none =>
      let inode : Inode := ⟨diskInode s.sb.dev n, false, n, 1⟩
      have here : inodeHashFind (inodeHashInsert s.inodes inode) n = some inode :=
        (lookup_cons inode s.inodes n).trans (if_pos rfl)
      have there : ∀ m, m ≠ n →
          inodeHashFind (inodeHashInsert s.inodes inode) m = inodeHashFind s.inodes m :=
        fun m other => (lookup_cons inode s.inodes m).trans (if_neg fun same => other same.symm)
      have distinct : ((inodeHashInsert s.inodes inode).map Inode.iNr).Nodup :=
        nodup_cons table.distinct found
      rw [testfsReadInodeBlock_eq s.sb ok n inside]
      let s' : State := { s with inodes := inodeHashInsert s.inodes inode }
      refine ⟨s', rfl, rfl, ?_⟩
      refine (Retabled.of_set s' table distinct here there (fun _ _ _ => rfl) Nat.one_pos
        inside (fun _ => rfl) rfl).congr ?_ ?_ ?_
      · exact fun m _ => update_same _ _ _ _ (by simp [State.view, found, inode])
      · intro m
        simp [State.refs, found, inode]
      · exact fun m => update_same _ _ _ _ (by simp [State.dirty, found, inode])

/-- `testfs_put_inode` drops a reference to a clean inode and fails its assertion on a dirty one. -/
theorem testfsPutInode_eq (s : State) (table : TableOk s) (n : Nat) (held : 0 < s.refs n) :
    if s.dirty n = true then testfsPutInode s n = .error .assertion
    else ∃ s', testfsPutInode s n = .ok s' ∧ s'.sb = s.sb ∧
      Retabled s s' s.view (Function.update s.refs n (s.refs n - 1)) s.dirty := by
  obtain ⟨inode, found, read, content, flag, number, count⟩ := table.inode_eq held
  unfold testfsPutInode
  rw [read, ok_bind]
  split
  · rename_i dirty
    rw [cAssert_neg (by rw [flag, dirty]; decide)]
    rfl
  · rename_i clean
    have clean' : inode.dirty = false := by
      rw [flag]
      exact Bool.eq_false_iff.mpr clean
    rw [cAssert_pos clean', ok_bind]
    by_cases last : inode.iCount - 1 = 0
    · rw [if_pos last]
      refine ⟨_, rfl, rfl, ?_⟩
      have here : inodeHashFind (inodeHashRemove s.inodes n) n = none :=
        lookup_remove_same s.inodes n table.distinct
      have there : ∀ m, m ≠ n →
          inodeHashFind (inodeHashRemove s.inodes n) m = inodeHashFind s.inodes m :=
        fun m other => lookup_remove_of_ne s.inodes n m other
      refine ⟨⟨nodup_remove table.distinct n, ?_, ?_, ?_⟩, ?_, ?_, ?_, rfl⟩
      · intro m other found'
        by_cases same : m = n
        · rw [same] at found'
          cases here.symm.trans found'
        · exact table.counted m other ((there m same).symm.trans found')
      · intro m other found'
        by_cases same : m = n
        · rw [same] at found'
          cases here.symm.trans found'
        · exact table.range m other ((there m same).symm.trans found')
      · intro m other found'
        by_cases same : m = n
        · rw [same] at found'
          cases here.symm.trans found'
        · exact table.clean m other ((there m same).symm.trans found')
      · intro m _
        by_cases same : m = n
        · subst same
          rw [← content, table.clean m inode found clean']
          simp [State.view, here]
        · simp [State.view, there m same]
      · intro m
        by_cases same : m = n
        · subst same
          rw [Function.update_self, ← count, last]
          simp [State.refs, here]
        · rw [Function.update_of_ne same]
          simp [State.refs, there m same]
      · intro m
        by_cases same : m = n
        · subst same
          rw [← flag, clean']
          simp [State.dirty, here]
        · simp [State.dirty, there m same]
    · rw [if_neg last]
      let released : Inode := { inode with iCount := inode.iCount - 1 }
      refine ⟨s.update released, rfl, rfl, ?_⟩
      refine (Retabled.of_update (s.update released) table released rfl number found
        (fun _ _ _ => rfl) (Nat.pos_of_ne_zero last) (table.range n inode found)
        (table.clean n inode found) rfl).congr ?_ ?_ ?_
      · exact fun m _ => update_same _ _ _ _ content
      · intro m
        rw [← count]
      · exact fun m => update_same _ _ _ _ flag

theorem slot_apart {n m : Nat} (other : m ≠ n) (same : m / 128 = n / 128) :
    m % 128 * 64 + 64 ≤ n % 128 * 64 ∨ n % 128 * 64 + 64 ≤ m % 128 * 64 := by
  omega

/-- Writing an inode back changes its own slot only. -/
theorem diskInode_splice (dev : Device) (n m : Nat) (d : Dinode) :
    diskInode (dev.set (18 + n / 128)
      ((dev.block (18 + n / 128)).splice (n % 128 * 64) d.bytes)) m =
        if m = n then d else diskInode dev m := by
  unfold diskInode
  by_cases page : m / 128 = n / 128
  · rw [page, Device.block_set_same]
    by_cases same : m = n
    · subst same
      have copied := Buffer.slice_splice_same (dev.block (18 + m / 128)) (m % 128 * 64) d.bytes
        (by rw [Dinode.length_bytes]; simp only [blockSize]; omega)
      rw [Dinode.length_bytes] at copied
      rw [if_pos rfl, copied, Dinode.ofBytes_bytes]
    · rw [if_neg same, Buffer.slice_splice_of_disjoint]
      rw [Dinode.length_bytes]
      exact slot_apart same page
  · have other : m ≠ n := fun same => page (same ▸ rfl)
    rw [if_neg other, Device.block_set_of_ne _ _ _ _ (by omega)]

/-- `testfs_sync_inode` writes the slot of a dirty inode, and nothing else. -/
theorem testfsSyncInode_eq (s : State) (ok : Consistent s.sb) (table : TableOk s) (n : Nat)
    (held : 0 < s.refs n) :
    ∃ s', testfsSyncInode s n = .ok s' ∧
      s'.sb = (if s.dirty n = true then s.sb.written (18 + n / 128)
        ((s.sb.dev.block (18 + n / 128)).splice (n % 128 * 64) (s.view n).bytes) else s.sb) ∧
      Retabled s s' s.view s.refs (Function.update s.dirty n false) := by
  obtain ⟨inode, found, read, content, flag, number, count⟩ := table.inode_eq held
  have inside := table.range n inode found
  unfold testfsSyncInode
  rw [read, ok_bind, flag]
  by_cases dirty : s.dirty n = true
  · rw [if_pos dirty, if_pos dirty, testfsReadInodeBlock_eq s.sb ok n inside, ok_bind]
    have write : testfsWriteInodeBlock s.sb n ((s.sb.dev.block (18 + n / 128)).splice
        (testfsInodeToBlockOffset n) inode.dinode.bytes) = .ok (s.sb.written (18 + n / 128)
          ((s.sb.dev.block (18 + n / 128)).splice (n % 128 * 64) (s.view n).bytes)) := by
      unfold testfsWriteInodeBlock
      rw [testfsInodeToBlockNr_eq n inside, ok_bind, ok.layout.inodeBlocks, writeBlocks_nat,
        content]
      rfl
    dsimp only
    rw [write, ok_bind]
    have slots := diskInode_splice s.sb.dev n
    let synced : Inode := { inode with dirty := false }
    let sb' := s.sb.written (18 + n / 128)
      ((s.sb.dev.block (18 + n / 128)).splice (n % 128 * 64) (s.view n).bytes)
    let s' : State := { s with sb := sb' }.update synced
    refine ⟨s', rfl, rfl, ?_⟩
    refine (Retabled.of_update s' table synced rfl number found ?_
      (table.counted n inode found) inside ?_ rfl).congr ?_ ?_ fun _ => rfl
    · intro m _ other
      exact (slots m (s.view n)).trans (if_neg other)
    · intro _
      exact content.trans ((slots n (s.view n)).trans (if_pos rfl)).symm
    · exact fun m _ => update_same _ _ _ _ content
    · exact fun m => update_same _ _ _ _ count
  · rw [if_neg dirty, if_neg dirty]
    refine ⟨s, rfl, rfl, table, fun _ _ => rfl, fun _ => rfl, ?_, rfl⟩
    intro m
    by_cases same : m = n
    · subst same
      rw [Function.update_self]
      exact Bool.eq_false_iff.mpr dirty
    · rw [Function.update_of_ne same]

/-- A function that changed one inode, and nothing in the inode blocks. -/
theorem Retabled.onInode {s : State} (table : TableOk s) {n : Nat} {inode : Inode}
    (r : FileResult) (read : s.inode n = .ok inode) (number : r.inode.iNr = inode.iNr)
    (count : r.inode.iCount = inode.iCount) (clean : r.inode.dirty = false → r.inode = inode)
    (slots : ∀ k, 18 ≤ k → k < 146 → r.sb.dev.block k = s.sb.dev.block k) :
    Retabled s ({ s with sb := r.sb }.update r.inode) (Function.update s.view n r.inode.dinode)
      s.refs (Function.update s.dirty n r.inode.dirty) := by
  obtain ⟨found, _, _, number', count'⟩ := table.of_read read
  have inside := table.range n inode found
  have same : ∀ m < 16384, diskInode r.sb.dev m = diskInode s.sb.dev m :=
    fun m small => diskInode_congr (slots _ (by omega) (by omega))
  let s' : State := { s with sb := r.sb }.update r.inode
  refine (Retabled.of_update s' table r.inode rfl (number.trans number') found
    (fun m small _ => same m small) (count ▸ table.counted n inode found) inside ?_ rfl).congr
    (fun _ _ => rfl) ?_ fun _ => rfl
  · intro still
    change _ = diskInode r.sb.dev n
    have before := clean still
    rw [before] at still ⊢
    rw [same n inside]
    exact table.clean n inode found still
  · exact fun m => update_same _ _ _ _ (count.trans count')

theorem Retabled.of_blocks {s : State} (table : TableOk s) (sb : SuperBlock)
    (slots : ∀ k, 18 ≤ k → k < 146 → sb.dev.block k = s.sb.dev.block k) :
    Retabled s { s with sb := sb } s.view s.refs s.dirty := by
  have same : ∀ m < 16384, diskInode sb.dev m = diskInode s.sb.dev m :=
    fun m small => diskInode_congr (slots _ (by omega) (by omega))
  refine ⟨⟨table.distinct, table.counted, table.range, ?_⟩, ?_, fun _ => rfl, fun _ => rfl, rfl⟩
  · intro m inode found clean
    change _ = diskInode sb.dev m
    rw [same m (table.range m inode found)]
    exact table.clean m inode found clean
  · intro m inside
    unfold State.view
    change (match inodeHashFind s.inodes m with
      | some inode => inode.dinode
      | none => diskInode sb.dev m) = _
    rw [same m inside]

end Ece344Lab.Fs
